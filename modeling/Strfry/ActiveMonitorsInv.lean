import Strfry.ActiveMonitors

/-!
# What the lookup structures hold

`am.item k p` is the entry of filter `p` at place `k` of the lookup structures.  The
invariant `Inv` ties the entries to the monitors: there is an entry exactly for every
place a filter of a live monitor is registered at (`Registered`), and its marker is never
ahead of both its subscription and the last event processed.

Every operation is described by what it does to `item`, `findMonitor` and the monitors;
nothing else of the five structures is looked at again.
-/

namespace Strfry

namespace ActiveMonitors

/-- The entry of a filter at a place. -/
def item (am : ActiveMonitors) (k : LookupKey) (p : FilterPtr) : Option MonitorItem :=
  (am.setAt k).bind fun ms => ms.find? p

/-! ## One entry -/

section
variable {κ : Type} [DecidableEq κ] (m : Assoc κ MonitorSet) (key key' : κ) (p p' : FilterPtr)
  (it : MonitorItem)

theorem find?_emplaceIn : ((emplaceIn m key p it).find? key').bind (fun ms => ms.find? p') =
    if key' = key ∧ p' = p then some (((m.find? key).bind fun ms => ms.find? p).getD it)
    else (m.find? key').bind fun ms => ms.find? p' := by
  unfold emplaceIn
  simp only [Assoc.find?_set, Assoc.find?_tryEmplace, if_true]
  by_cases hk : key' = key
  · subst hk
    simp only [if_true, true_and, Option.map_some, Option.bind_some, Assoc.find?_tryEmplace]
    cases m.find? key' with
    | none => simp [Assoc.find?_empty]
    | some ms => simp
  · simp [hk]

theorem eraseIn_ok (h : ((m.find? key).bind fun ms => ms.find? p) = some it) :
    ∃ m', eraseIn m key p = .ok m' ∧ ∀ key' p', ((m'.find? key').bind fun ms => ms.find? p') =
      if key' = key ∧ p' = p then none else (m.find? key').bind fun ms => ms.find? p' := by
  obtain ⟨ms, hms, -⟩ := Option.bind_eq_some_iff.mp h
  unfold eraseIn
  rw [hms]
  refine ⟨_, rfl, fun key' p' => ?_⟩
  by_cases hk : key' = key
  · subst hk
    simp only [true_and]
    by_cases hempty : (ms.erase p).isEmpty = true
    · -- the set is gone, and it held nothing but `p`
      have hnone := Assoc.find?_of_isEmpty hempty p'
      rw [Assoc.find?_erase] at hnone
      rw [if_pos hempty, Assoc.find?_erase, if_pos rfl, Option.bind_none, hms, Option.bind_some]
      split
      · rfl
      · rename_i hp
        rw [if_neg hp] at hnone
        exact hnone.symm
    · rw [if_neg hempty, Assoc.find?_set, if_pos rfl, hms, Option.map_some, Option.bind_some,
        Option.bind_some, Assoc.find?_erase]
  · by_cases hempty : (ms.erase p).isEmpty = true
    · rw [if_pos hempty, Assoc.find?_erase, if_neg hk, if_neg (by tauto)]
    · rw [if_neg hempty, Assoc.find?_set, if_neg hk, if_neg (by tauto)]

theorem find?_setIn (ms : MonitorSet) (hms : m.find? key = some ms) (old : MonitorItem)
    (hold : ms.find? p = some old) :
    ((m.set key (ms.set p it)).find? key').bind (fun ms => ms.find? p') =
      if key' = key ∧ p' = p then some it else (m.find? key').bind fun ms => ms.find? p' := by
  rw [Assoc.find?_set]
  by_cases hk : key' = key
  · subst hk
    rw [if_pos rfl, hms, Option.map_some, Option.bind_some, Option.bind_some, Assoc.find?_set, hold]
    simp
  · rw [if_neg hk, if_neg (by tauto)]

end

theorem item_emplace (am : ActiveMonitors) (k k' : LookupKey) (p p' : FilterPtr) (it : MonitorItem) :
    (am.emplace k p it).item k' p' =
      if k' = k ∧ p' = p then some ((am.item k p).getD it) else am.item k' p' := by
  cases k with
  | id b =>
    cases k' with
    | id b' =>
      simp only [LookupKey.id.injEq]
      exact find?_emplaceIn am.allIds b b' p p' it
    | _ => simp [item, setAt, emplace]
  | author b =>
    cases k' with
    | author b' =>
      simp only [LookupKey.author.injEq]
      exact find?_emplaceIn am.allAuthors b b' p p' it
    | _ => simp [item, setAt, emplace]
  | tag b =>
    cases k' with
    | tag b' =>
      simp only [LookupKey.tag.injEq]
      exact find?_emplaceIn am.allTags b b' p p' it
    | _ => simp [item, setAt, emplace]
  | kind n =>
    cases k' with
    | kind n' =>
      simp only [LookupKey.kind.injEq]
      exact find?_emplaceIn am.allKinds n n' p p' it
    | _ => simp [item, setAt, emplace]
  | other =>
    cases k' with
    | other => simp [item, setAt, emplace, Assoc.find?_tryEmplace]
    | _ => simp [item, setAt, emplace]

theorem emplace_frame (am : ActiveMonitors) (k : LookupKey) (p : FilterPtr) (it : MonitorItem) :
    (am.emplace k p it).conns = am.conns ∧ (am.emplace k p it).monitors = am.monitors := by
  cases k <;> exact ⟨rfl, rfl⟩

/-- Taking out an entry that is there. -/
theorem remove_ok {am : ActiveMonitors} {k : LookupKey} {p : FilterPtr} {it : MonitorItem}
    (h : am.item k p = some it) : ∃ am', am.remove k p = .ok am' ∧
      (∀ k' p', am'.item k' p' = if k' = k ∧ p' = p then none else am.item k' p') ∧
      am'.conns = am.conns ∧ am'.monitors = am.monitors := by
  cases k with
  | id b =>
    obtain ⟨m', hm', hfind⟩ := eraseIn_ok am.allIds b p it h
    refine ⟨{ am with allIds := m' }, by rw [remove, hm']; rfl, fun k' p' => ?_, rfl, rfl⟩
    cases k' with
    | id b' =>
      simp only [LookupKey.id.injEq]
      exact hfind b' p'
    | _ => simp [item, setAt]
  | author b =>
    obtain ⟨m', hm', hfind⟩ := eraseIn_ok am.allAuthors b p it h
    refine ⟨{ am with allAuthors := m' }, by rw [remove, hm']; rfl, fun k' p' => ?_, rfl, rfl⟩
    cases k' with
    | author b' =>
      simp only [LookupKey.author.injEq]
      exact hfind b' p'
    | _ => simp [item, setAt]
  | tag b =>
    obtain ⟨m', hm', hfind⟩ := eraseIn_ok am.allTags b p it h
    refine ⟨{ am with allTags := m' }, by rw [remove, hm']; rfl, fun k' p' => ?_, rfl, rfl⟩
    cases k' with
    | tag b' =>
      simp only [LookupKey.tag.injEq]
      exact hfind b' p'
    | _ => simp [item, setAt]
  | kind n =>
    obtain ⟨m', hm', hfind⟩ := eraseIn_ok am.allKinds n p it h
    refine ⟨{ am with allKinds := m' }, by rw [remove, hm']; rfl, fun k' p' => ?_, rfl, rfl⟩
    cases k' with
    | kind n' =>
      simp only [LookupKey.kind.injEq]
      exact hfind n' p'
    | _ => simp [item, setAt]
  | other =>
    refine ⟨_, rfl, fun k' p' => ?_, rfl, rfl⟩
    cases k' with
    | other => simp [item, setAt, Assoc.find?_erase]
    | _ => simp [item, setAt]

/-- Assigning an entry that is there. -/
theorem item_setItem {am : ActiveMonitors} {k : LookupKey} {p : FilterPtr} {old : MonitorItem}
    (h : am.item k p = some old) (it : MonitorItem) (k' : LookupKey) (p' : FilterPtr) :
    (am.setItem k p it).item k' p' = if k' = k ∧ p' = p then some it else am.item k' p' := by
  obtain ⟨ms, hms, hold⟩ := Option.bind_eq_some_iff.mp h
  unfold setItem
  rw [hms]
  cases k with
  | id b =>
    cases k' with
    | id b' =>
      simp only [LookupKey.id.injEq]
      exact find?_setIn am.allIds b b' p p' it ms hms old hold
    | _ => simp [item, setAt]
  | author b =>
    cases k' with
    | author b' =>
      simp only [LookupKey.author.injEq]
      exact find?_setIn am.allAuthors b b' p p' it ms hms old hold
    | _ => simp [item, setAt]
  | tag b =>
    cases k' with
    | tag b' =>
      simp only [LookupKey.tag.injEq]
      exact find?_setIn am.allTags b b' p p' it ms hms old hold
    | _ => simp [item, setAt]
  | kind n =>
    cases k' with
    | kind n' =>
      simp only [LookupKey.kind.injEq]
      exact find?_setIn am.allKinds n n' p p' it ms hms old hold
    | _ => simp [item, setAt]
  | other =>
    cases hms
    cases k' with
    | other => simp [item, setAt, Assoc.find?_set, hold]
    | _ => simp [item, setAt]

theorem setItem_frame (am : ActiveMonitors) (k : LookupKey) (p : FilterPtr) (it : MonitorItem) :
    (am.setItem k p it).conns = am.conns ∧ (am.setItem k p it).monitors = am.monitors := by
  unfold setItem
  split
  · exact ⟨rfl, rfl⟩
  · cases k <;> exact ⟨rfl, rfl⟩

/-! ## The places of a filter -/

theorem mem_registrations (m : Nat) (filters : List NostrFilter) (k : LookupKey) (p : FilterPtr) :
    (k, p) ∈ registrations m filters ↔ p.1 = m ∧ ∃ f, filters[p.2]? = some f ∧ k ∈ f.lookupKeys := by
  unfold registrations
  rw [List.mem_flatMap]
  constructor
  · rintro ⟨⟨f, i⟩, hfi, hk⟩
    obtain ⟨k', hk', he⟩ := List.mem_map.mp hk
    cases he
    exact ⟨rfl, f, List.mem_zipIdx_iff_getElem?.mp hfi, hk'⟩
  · rintro ⟨rfl, f, hf, hk⟩
    exact ⟨(f, p.2), List.mem_zipIdx_iff_getElem?.mpr hf, List.mem_map.mpr ⟨k, hk, rfl⟩⟩

theorem nodup_elems (s : FilterSetBytes) : s.elems.Nodup := s.sorted.imp fun h => ne_of_lt h

theorem lookupKeys_nodup {f : NostrFilter} (hf : f.Valid) : f.lookupKeys.Nodup := by
  unfold NostrFilter.lookupKeys
  split
  · exact (nodup_elems _).map fun a b h => LookupKey.id.inj h
  · exact (nodup_elems _).map fun a b h => LookupKey.author.inj h
  · rename_i t ts _ _ _ htags
    have hnames := hf.tagNames
    rw [htags] at hnames
    refine List.nodup_flatMap.mpr ⟨fun u _ => (nodup_elems u.2).map fun a b h => ?_, ?_⟩
    · exact List.cons.inj (LookupKey.tag.inj h) |>.2
    · refine (List.pairwise_map.mp hnames).imp fun {u w} huw => ?_
      refine List.disjoint_left.mpr ?_
      intro k hu hw
      obtain ⟨a, -, rfl⟩ := List.mem_map.mp hu
      obtain ⟨b, -, hb⟩ := List.mem_map.mp hw
      exact huw (List.cons.inj (LookupKey.tag.inj hb)).1.symm
  · rename_i kinds _ _ _ _
    have hnd : kinds.items.Nodup := kinds.sorted.imp fun h => Nat.ne_of_lt h
    exact hnd.map fun a b h => LookupKey.kind.inj h
  · simp

theorem registrations_nodup (m : Nat) {filters : List NostrFilter} (hf : ∀ f ∈ filters, f.Valid) :
    (registrations m filters).Nodup := by
  unfold registrations
  refine List.nodup_flatMap.mpr ⟨fun fi hfi => ?_, ?_⟩
  · have hmem := List.mem_of_getElem? (List.mem_zipIdx_iff_getElem?.mp hfi)
    exact (lookupKeys_nodup (hf fi.1 hmem)).map fun a b h => (Prod.mk.inj h).1
  · have hidx : (filters.zipIdx.map Prod.snd).Nodup := by
      rw [List.zipIdx_map_snd]
      exact List.nodup_range'
    refine (List.pairwise_map.mp hidx).imp fun {fi gj} hij => ?_
    refine List.disjoint_left.mpr ?_
    intro r hr hr'
    obtain ⟨k, -, rfl⟩ := List.mem_map.mp hr
    obtain ⟨k', -, he⟩ := List.mem_map.mp hr'
    exact hij (Prod.mk.inj (Prod.mk.inj he).2).2.symm

theorem check_ok {f : NostrFilter} (hf : f.Valid) {k : LookupKey} (hk : k ∈ f.lookupKeys) :
    k.check = .ok () := by
  unfold NostrFilter.lookupKeys at hk
  cases hids : f.ids with
  | some ids =>
    simp only [hids] at hk
    obtain ⟨b, hb, rfl⟩ := List.mem_map.mp hk
    have := (hf.ids ids hids).2 b hb
    simp [LookupKey.check, throwIf, this]
  | none =>
    cases ha : f.authors with
    | some authors =>
      simp only [hids, ha] at hk
      obtain ⟨b, hb, rfl⟩ := List.mem_map.mp hk
      have := (hf.authors authors ha).2 b hb
      simp [LookupKey.check, throwIf, this]
    | none =>
      cases ht : f.tags with
      | cons t ts =>
        simp only [hids, ha, ht] at hk
        obtain ⟨t, -, hk⟩ := List.mem_flatMap.mp hk
        obtain ⟨b, -, rfl⟩ := List.mem_map.mp hk
        rfl
      | nil =>
        cases hkinds : f.kinds with
        | some kinds =>
          simp only [hids, ha, ht, hkinds] at hk
          obtain ⟨n, -, rfl⟩ := List.mem_map.mp hk
          rfl
        | none =>
          simp only [hids, ha, ht, hkinds] at hk
          rw [List.mem_singleton.mp hk]
          rfl

theorem check_registrations {m : Nat} {filters : List NostrFilter} (hf : ∀ f ∈ filters, f.Valid)
    {r : LookupKey × FilterPtr} (hr : r ∈ registrations m filters) : r.1.check = .ok () := by
  obtain ⟨-, f, hfi, hk⟩ := (mem_registrations m filters r.1 r.2).mp hr
  exact check_ok (hf f (List.mem_of_getElem? hfi)) hk

/-! ## Installing and uninstalling -/

/-- Nothing but the lookup structures changes. -/
def SameMonitors (am am' : ActiveMonitors) : Prop :=
  am'.conns = am.conns ∧ am'.monitors = am.monitors

theorem SameMonitors.trans {a b c : ActiveMonitors} (h : SameMonitors a b) (h' : SameMonitors b c) :
    SameMonitors a c := ⟨h'.1.trans h.1, h'.2.trans h.2⟩

theorem install_ok (m currEventId : Nat) (rs : List (LookupKey × FilterPtr)) (st : State)
    (hcheck : ∀ r ∈ rs, r.1.check = .ok ()) : ∃ st',
      rs.foldlM (installTurn m currEventId) st = .ok st' ∧ SameMonitors st.1 st'.1 ∧
      st'.2 = rs.foldl (fun t r => track t r.1) st.2 ∧
      ∀ k p, st'.1.item k p = if (k, p) ∈ rs then some ((st.1.item k p).getD ⟨m, currEventId⟩)
        else st.1.item k p := by
  induction rs generalizing st with
  | nil => exact ⟨st, rfl, ⟨rfl, rfl⟩, rfl, fun k p => by simp⟩
  | cons r rs ih =>
    let st1 : State := (st.1.emplace r.1 r.2 ⟨m, currEventId⟩, track st.2 r.1)
    have hturn : installTurn m currEventId st r = .ok st1 := by
      unfold installTurn
      rw [hcheck r List.mem_cons_self]
      rfl
    obtain ⟨st', hst', hsame, htrack, hitem⟩ := ih st1 fun r' hr' => hcheck r' (List.mem_cons_of_mem _ hr')
    refine ⟨st', ?_, SameMonitors.trans (emplace_frame st.1 r.1 r.2 _) hsame, htrack,
      fun k p => ?_⟩
    · rw [List.foldlM_cons, hturn]
      exact hst'
    · rw [hitem, item_emplace]
      by_cases hr : k = r.1 ∧ p = r.2
      · obtain ⟨rfl, rfl⟩ := hr
        simp
      · have hkp : (k, p) ≠ r := fun h => hr (by rw [← h]; exact ⟨rfl, rfl⟩)
        simp only [if_neg hr, List.mem_cons, hkp, false_or]

theorem uninstall_ok (rs : List (LookupKey × FilterPtr)) (st : State)
    (hcheck : ∀ r ∈ rs, r.1.check = .ok ()) (hnd : rs.Nodup)
    (hin : ∀ r ∈ rs, (st.1.item r.1 r.2).isSome = true) : ∃ st',
      rs.foldlM uninstallTurn st = .ok st' ∧ SameMonitors st.1 st'.1 ∧
      st'.2 = rs.foldl (fun t r => untrack t r.1) st.2 ∧
      ∀ k p, st'.1.item k p = if (k, p) ∈ rs then none else st.1.item k p := by
  induction rs generalizing st with
  | nil => exact ⟨st, rfl, ⟨rfl, rfl⟩, rfl, fun k p => by simp⟩
  | cons r rs ih =>
    obtain ⟨it, hit⟩ := Option.isSome_iff_exists.mp (hin r List.mem_cons_self)
    obtain ⟨am1, ham1, hitem1, hsame1⟩ := remove_ok hit
    have hturn : uninstallTurn st r = .ok (am1, untrack st.2 r.1) := by
      unfold uninstallTurn
      rw [hcheck r List.mem_cons_self, ham1]
      rfl
    have hnd' := List.nodup_cons.mp hnd
    obtain ⟨st', hst', hsame, htrack, hitem⟩ := ih (am1, untrack st.2 r.1)
      (fun r' hr' => hcheck r' (List.mem_cons_of_mem _ hr')) hnd'.2 (by
        intro r' hr'
        have hne : ¬ (r'.1 = r.1 ∧ r'.2 = r.2) := fun h => hnd'.1 (Prod.ext h.1 h.2 ▸ hr')
        show (am1.item r'.1 r'.2).isSome = true
        rw [hitem1, if_neg hne]
        exact hin r' (List.mem_cons_of_mem _ hr'))
    refine ⟨st', ?_, SameMonitors.trans hsame1 hsame, htrack, fun k p => ?_⟩
    · rw [List.foldlM_cons, hturn]
      exact hst'
    · rw [hitem, hitem1]
      by_cases hr : k = r.1 ∧ p = r.2
      · obtain ⟨rfl, rfl⟩ := hr
        simp
      · have hkp : (k, p) ≠ r := fun h => hr (by rw [← h]; exact ⟨rfl, rfl⟩)
        simp only [if_neg hr, List.mem_cons, hkp, false_or]

/-! ## The invariant -/

/-- A filter of a live monitor is registered at this place. -/
def Registered (am : ActiveMonitors) (k : LookupKey) (p : FilterPtr) : Prop :=
  ∃ sub, am.monitors.find? p.1 = some sub ∧ ∃ f, sub.filterGroup.filters[p.2]? = some f ∧
    k ∈ f.lookupKeys

/-- The subscription installed under an id. -/
def installed (am : ActiveMonitors) (connId : Nat) (subId : SubId) : Option Subscription :=
  (am.findMonitor connId subId).bind fun m => am.monitors.find? m

/-- `last` bounds the events processed so far. -/
structure Inv (am : ActiveMonitors) (last : Nat) : Prop where
  found : ∀ c s m, am.findMonitor c s = some m →
    ∃ sub, am.monitors.find? m = some sub ∧ sub.connId = c ∧ sub.subId = s
  listed : ∀ m sub, am.monitors.find? m = some sub → am.findMonitor sub.connId sub.subId = some m
  valid : ∀ m sub, am.monitors.find? m = some sub → ∀ f ∈ sub.filterGroup.filters, f.Valid
  entries : ∀ k p, (am.item k p).isSome = true ↔ Registered am k p
  marker : ∀ k p it, am.item k p = some it → it.mon = p.1 ∧
    ∀ sub, am.monitors.find? p.1 = some sub → it.latestEventId ≤ max sub.latestEventId last

/-- A live monitor is the one installed under its id. -/
theorem Inv.installed_of_live {am : ActiveMonitors} {last m : Nat} (h : Inv am last) {sub : Subscription}
    (hsub : am.monitors.find? m = some sub) : am.installed sub.connId sub.subId = some sub := by
  unfold installed
  rw [h.listed m sub hsub]
  exact hsub

/-- The invariant depends only on lookups. -/
theorem Inv.congr {am am' : ActiveMonitors} {last : Nat} (h : Inv am last)
    (hfind : ∀ c s, am'.findMonitor c s = am.findMonitor c s)
    (hmon : ∀ m, am'.monitors.find? m = am.monitors.find? m)
    (hitem : ∀ k p, am'.item k p = am.item k p) : Inv am' last where
  found c s m hm := by
    rw [hfind] at hm
    simpa [hmon] using h.found c s m hm
  listed m sub hm := by
    rw [hmon] at hm
    rw [hfind]
    exact h.listed m sub hm
  valid m sub hm := by
    rw [hmon] at hm
    exact h.valid m sub hm
  entries k p := by
    rw [hitem, h.entries]
    unfold Registered
    simp [hmon]
  marker k p it hit := by
    rw [hitem] at hit
    simpa [hmon] using h.marker k p it hit

theorem Inv.empty (last : Nat) : Inv {} last where
  found c s m h := by cases h
  listed m sub h := by cases h
  valid m sub h := by cases h
  entries k p := by
    constructor
    · intro h
      cases k <;> cases h
    · rintro ⟨sub, h, -⟩
      cases h
  marker k p it h := by cases k <;> cases h

theorem Inv.mono {am : ActiveMonitors} {last last' : Nat} (h : Inv am last) (hle : last ≤ last') :
    Inv am last' :=
  { h with
    marker := fun k p it hit => by
      obtain ⟨hm, hl⟩ := h.marker k p it hit
      refine ⟨hm, fun sub hs => ?_⟩
      have := hl sub hs
      omega }

end ActiveMonitors

end Strfry
