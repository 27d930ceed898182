import Strfry.ActiveMonitorsInv

/-!
# Adding and removing subscriptions

`addSub`, `removeSub` and `closeConn` keep the invariant and never throw: whatever
`uninstallLookups` takes out with `at` was put there by `installLookups`.  The theorems say
what becomes of `findMonitor`, of the monitors and of the tracker.
-/

namespace Strfry

namespace ActiveMonitors

/-- The places all filters of a subscription are registered at. -/
def keysOf (sub : Subscription) : List LookupKey := sub.filterGroup.filters.flatMap NostrFilter.lookupKeys

def trackAll (tracker : EphemeralSubTracker) (sub : Subscription) : EphemeralSubTracker :=
  (keysOf sub).foldl track tracker

def untrackAll (tracker : EphemeralSubTracker) (sub : Subscription) : EphemeralSubTracker :=
  (keysOf sub).foldl untrack tracker

theorem map_fst_registrations (m : Nat) (sub : Subscription) :
    (registrations m sub.filterGroup.filters).map Prod.fst = keysOf sub := by
  unfold registrations keysOf
  rw [List.map_flatMap]
  simp only [List.map_map]
  have hcomp : ∀ fi : NostrFilter × Nat,
      fi.1.lookupKeys.map (Prod.fst ∘ fun k => (k, (m, fi.2))) = fi.1.lookupKeys := by
    intro fi
    exact List.map_id _
  simp only [hcomp]
  rw [← List.flatMap_map, List.zipIdx_map_fst]

theorem foldl_track (m : Nat) (sub : Subscription) (t : EphemeralSubTracker) :
    (registrations m sub.filterGroup.filters).foldl (fun t r => track t r.1) t = trackAll t sub := by
  unfold trackAll
  rw [← map_fst_registrations m sub, List.foldl_map]

theorem foldl_untrack (m : Nat) (sub : Subscription) (t : EphemeralSubTracker) :
    (registrations m sub.filterGroup.filters).foldl (fun t r => untrack t r.1) t = untrackAll t sub := by
  unfold untrackAll
  rw [← map_fst_registrations m sub, List.foldl_map]

/-! ## Finding monitors -/

theorem findMonitor_eq (am : ActiveMonitors) (c : Nat) (s : SubId) :
    am.findMonitor c s = (am.conns.find? c).bind fun cm => cm.find? s := rfl

theorem findMonitor_eraseMonitor {am : ActiveMonitors} {c : Nat} {s : SubId} {m : Nat}
    (h : am.findMonitor c s = some m) (c' : Nat) (s' : SubId) :
    (am.eraseMonitor c s m).findMonitor c' s' =
      if c' = c ∧ s' = s then none else am.findMonitor c' s' := by
  obtain ⟨cm, hcm, -⟩ := Option.bind_eq_some_iff.mp h
  rw [findMonitor_eq, findMonitor_eq]
  unfold eraseMonitor
  simp only [hcm, Option.getD_some]
  by_cases hc : c' = c
  · subst hc
    by_cases hempty : (cm.erase s).isEmpty = true
    · have hnone := Assoc.find?_of_isEmpty hempty s'
      rw [Assoc.find?_erase] at hnone
      simp only [hempty, if_true, Assoc.find?_erase, Option.bind_none, true_and, hcm, Option.bind_some]
      split
      · rfl
      · rename_i hs
        rw [if_neg hs] at hnone
        exact hnone.symm
    · simp [hempty, Assoc.find?_set, Assoc.find?_erase, hcm]
  · by_cases hempty : (cm.erase s).isEmpty = true
    · simp [hempty, Assoc.find?_erase, hc]
    · simp [hempty, Assoc.find?_set, hc]

theorem findMonitor_tryEmplace (am : ActiveMonitors) (c c' : Nat) (s' : SubId) :
    ({ am with conns := am.conns.tryEmplace c .empty } : ActiveMonitors).findMonitor c' s' =
      am.findMonitor c' s' := by
  rw [findMonitor_eq, findMonitor_eq]
  simp only [Assoc.find?_tryEmplace]
  by_cases hc : c' = c
  · subst hc
    cases am.conns.find? c' with
    | none => simp
    | some cm => simp
  · simp [hc]

theorem findMonitor_insertMonitor {am : ActiveMonitors} {sub : Subscription} {m : Nat}
    (h : am.findMonitor sub.connId sub.subId = none) (c' : Nat) (s' : SubId) :
    (am.insertMonitor sub m).findMonitor c' s' =
      if c' = sub.connId ∧ s' = sub.subId then some m else am.findMonitor c' s' := by
  rw [findMonitor_eq] at h ⊢
  rw [findMonitor_eq]
  unfold insertMonitor
  simp only [Assoc.find?_set, Assoc.find?_tryEmplace, if_true]
  by_cases hc : c' = sub.connId
  · subst hc
    simp only [if_true, true_and, Option.map_some, Option.bind_some, Assoc.find?_tryEmplace]
    cases hcm : am.conns.find? sub.connId with
    | none => simp
    | some cm =>
      rw [hcm, Option.bind_some] at h
      simp [h]
  · simp [hc]

/-! ## `removeSub` -/

section
variable {st : State} {last : Nat}

/-- The monitor at `m` is installed: its entries are those its filters are registered at. -/
structure Installed (am : ActiveMonitors) (m : Nat) (sub : Subscription) : Prop where
  live : am.monitors.find? m = some sub
  valid : ∀ f ∈ sub.filterGroup.filters, f.Valid
  entries : ∀ k p, (k, p) ∈ registrations m sub.filterGroup.filters ↔
    p.1 = m ∧ (am.item k p).isSome = true

theorem Inv.toInstalled {am : ActiveMonitors} (h : Inv am last) {m : Nat} {sub : Subscription}
    (hm : am.monitors.find? m = some sub) : Installed am m sub := by
  refine ⟨hm, h.valid m sub hm, fun k p => ?_⟩
  rw [mem_registrations, h.entries]
  unfold Registered
  constructor
  · rintro ⟨rfl, f, hf, hk⟩
    exact ⟨rfl, sub, hm, f, hf, hk⟩
  · rintro ⟨rfl, sub', hm', f, hf, hk⟩
    rw [hm] at hm'
    cases hm'
    exact ⟨rfl, f, hf, hk⟩

/-- Uninstalling takes out exactly the entries of the monitor. -/
theorem Installed.uninstall {m : Nat} {sub : Subscription} (h : Installed st.1 m sub) : ∃ st',
      uninstallLookups st m sub = .ok st' ∧ SameMonitors st.1 st'.1 ∧
      st'.2 = untrackAll st.2 sub ∧
      ∀ k p, st'.1.item k p = if p.1 = m then none else st.1.item k p := by
  obtain ⟨st', hst', hsame, htrack, hitem⟩ := uninstall_ok (registrations m sub.filterGroup.filters) st
    (fun r hr => check_registrations h.valid hr) (registrations_nodup m h.valid)
    (fun r hr => ((h.entries r.1 r.2).mp hr).2)
  refine ⟨st', hst', hsame, by rw [htrack, foldl_untrack], fun k p => ?_⟩
  rw [hitem]
  by_cases hp : p.1 = m
  · rw [if_pos hp]
    by_cases hin : (st.1.item k p).isSome = true
    · rw [if_pos ((h.entries k p).mpr ⟨hp, hin⟩)]
    · rw [if_neg fun hk => hin ((h.entries k p).mp hk).2]
      simpa using hin
  · rw [if_neg hp, if_neg fun hk => hp ((h.entries k p).mp hk).1]

/-- Dropping the monitors of `D` with their entries keeps the invariant. -/
theorem Inv.drop {am am' : ActiveMonitors} (h : Inv am last) (D : Nat → Prop) [DecidablePred D]
    (hfind : ∀ c s m, am'.findMonitor c s = some m ↔ am.findMonitor c s = some m ∧ ¬ D m)
    (hmon : ∀ m, am'.monitors.find? m = if D m then none else am.monitors.find? m)
    (hitem : ∀ k p, am'.item k p = if D p.1 then none else am.item k p) : Inv am' last := by
  have hlive : ∀ m sub, am'.monitors.find? m = some sub ↔ am.monitors.find? m = some sub ∧ ¬ D m := by
    intro m sub
    rw [hmon]
    by_cases hD : D m
    · simp [hD]
    · simp [hD]
  refine ⟨fun c s m hm => ?_, fun m sub hm => ?_, fun m sub hm => ?_, fun k p => ?_,
    fun k p it hit => ?_⟩
  · obtain ⟨hm, hD⟩ := (hfind c s m).mp hm
    obtain ⟨sub, hsub, hc, hs⟩ := h.found c s m hm
    exact ⟨sub, (hlive m sub).mpr ⟨hsub, hD⟩, hc, hs⟩
  · obtain ⟨hm, hD⟩ := (hlive m sub).mp hm
    exact (hfind _ _ m).mpr ⟨h.listed m sub hm, hD⟩
  · exact h.valid m sub ((hlive m sub).mp hm).1
  · have hent := h.entries k p
    unfold Registered at hent ⊢
    simp only [hitem, hlive]
    by_cases hD : D p.1
    · simp [hD]
    · simpa [hD] using hent
  · rw [hitem] at hit
    by_cases hD : D p.1
    · rw [if_pos hD] at hit
      cases hit
    · rw [if_neg hD] at hit
      obtain ⟨h1, h2⟩ := h.marker k p it hit
      exact ⟨h1, fun sub hsub => h2 sub ((hlive p.1 sub).mp hsub).1⟩

/-- What removing the subscription of an id does. -/
structure Removed (st st' : State) (c : Nat) (s : SubId) : Prop where
  find : ∀ c' s', st'.1.findMonitor c' s' =
    if c' = c ∧ s' = s then none else st.1.findMonitor c' s'
  monitors : ∀ m, st'.1.monitors.find? m =
    if st.1.findMonitor c s = some m then none else st.1.monitors.find? m
  tracker : st'.2 = match st.1.installed c s with
    | none => st.2
    | some sub => untrackAll st.2 sub

theorem Inv.removeSub (h : Inv st.1 last) (c : Nat) (s : SubId) : ∃ st',
    removeSub st c s = .ok st' ∧ Inv st'.1 last ∧ Removed st st' c s := by
  unfold ActiveMonitors.removeSub
  cases hm : st.1.findMonitor c s with
  | none =>
    refine ⟨st, rfl, h, fun c' s' => ?_, fun m => ?_, ?_⟩
    · split
      · rename_i hc
        rw [hc.1, hc.2, hm]
      · rfl
    · simp [hm]
    · simp [installed, hm]
  | some m =>
    obtain ⟨sub, hsub, hsc, hss⟩ := h.found c s m hm
    obtain ⟨st1, hst1, hsame, htrack, hitem⟩ := (h.toInstalled hsub).uninstall
    have hfind1 : st1.1.findMonitor c s = some m := by
      rw [findMonitor_eq, hsame.1]
      exact hm
    have hfind : ∀ c' s', (st1.1.eraseMonitor c s m).findMonitor c' s' =
        if c' = c ∧ s' = s then none else st.1.findMonitor c' s' := by
      intro c' s'
      rw [findMonitor_eraseMonitor hfind1, findMonitor_eq, hsame.1]
      rfl
    have hmon : ∀ m', (st1.1.eraseMonitor c s m).monitors.find? m' =
        if m' = m then none else st.1.monitors.find? m' := by
      intro m'
      show (st1.1.monitors.erase m).find? m' = _
      rw [Assoc.find?_erase, hsame.2]
    refine ⟨(st1.1.eraseMonitor c s m, st1.2), ?_, ?_, hfind, fun m' => ?_, ?_⟩
    · simp only [deref, hsub]
      show (uninstallLookups st m sub >>= fun st => Except.ok (st.1.eraseMonitor c s m, st.2)) = _
      rw [hst1]
      rfl
    · refine h.drop (· = m) (fun c' s' m' => ?_) hmon fun k p => ?_
      · show (st1.1.eraseMonitor c s m).findMonitor c' s' = some m' ↔ _
        rw [hfind]
        by_cases hcs : c' = c ∧ s' = s
        · obtain ⟨rfl, rfl⟩ := hcs
          simp [hm, eq_comm]
        · rw [if_neg hcs]
          refine ⟨fun hm' => ⟨hm', ?_⟩, fun hm' => hm'.1⟩
          rintro rfl
          obtain ⟨sub', hsub', hc', hs'⟩ := h.found c' s' m' hm'
          rw [hsub] at hsub'
          cases hsub'
          exact hcs ⟨hc'.symm.trans hsc, hs'.symm.trans hss⟩
      · rw [← hitem k p]
        cases k <;> rfl
    · show (st1.1.eraseMonitor c s m).monitors.find? m' = _
      rw [hmon, hm]
      simp only [Option.some.injEq, eq_comm]
    · show st1.2 = _
      rw [htrack]
      simp [installed, hm, hsub]

/-! ## `closeConn` -/

/-- The loop of `closeConn`: the entries of these monitors are gone. -/
theorem closeMonitors_ok (l : List (SubId × Nat)) (hnd : (l.map Prod.snd).Nodup)
    (hl : ∀ e ∈ l, ∃ sub, Installed st.1 e.2 sub) : ∃ st',
      closeMonitors l st = .ok st' ∧ SameMonitors st.1 st'.1 ∧
      st'.2 = (l.filterMap fun e => st.1.monitors.find? e.2).foldl untrackAll st.2 ∧
      ∀ k p, st'.1.item k p = if p.1 ∈ l.map Prod.snd then none else st.1.item k p := by
  induction l generalizing st with
  | nil => exact ⟨st, rfl, ⟨rfl, rfl⟩, rfl, fun k p => by simp⟩
  | cons e l ih =>
    obtain ⟨sub, hsub⟩ := hl e List.mem_cons_self
    obtain ⟨st1, hst1, hsame1, htrack1, hitem1⟩ := hsub.uninstall
    obtain ⟨hnotin, hnd'⟩ := List.nodup_cons.mp hnd
    obtain ⟨st', hst', hsame, htrack, hitem⟩ := @ih st1 hnd' (by
      intro e' he'
      obtain ⟨sub', hsub'⟩ := hl e' (List.mem_cons_of_mem _ he')
      refine ⟨sub', by rw [hsame1.2]; exact hsub'.live, hsub'.valid, fun k p => ?_⟩
      rw [hsub'.entries, hitem1]
      constructor
      · rintro ⟨hp, hin⟩
        refine ⟨hp, ?_⟩
        rw [if_neg]
        · exact hin
        · intro hpe
          exact hnotin (List.mem_map.mpr ⟨e', he', hp.symm.trans hpe⟩)
      · rintro ⟨hp, hin⟩
        refine ⟨hp, ?_⟩
        split at hin
        · cases hin
        · exact hin)
    refine ⟨st', ?_, SameMonitors.trans hsame1 hsame, ?_, fun k p => ?_⟩
    · unfold closeMonitors
      simp only [deref, hsub.live]
      show (uninstallLookups st e.2 sub >>= closeMonitors l) = _
      rw [hst1]
      exact hst'
    · rw [htrack, htrack1, hsame1.2, List.filterMap_cons, hsub.live]
      rfl
    · rw [hitem, hitem1]
      by_cases hp : p.1 = e.2
      · simp [hp]
      · simp only [List.map_cons, List.mem_cons, hp, false_or, if_false]

theorem find?_foldl_erase (l : List (SubId × Nat)) (ms : Assoc Nat Subscription) (m : Nat) :
    (l.foldl (fun ms e => ms.erase e.2) ms).find? m =
      if m ∈ l.map Prod.snd then none else ms.find? m := by
  induction l generalizing ms with
  | nil => simp
  | cons e l ih =>
    rw [List.foldl_cons, ih, Assoc.find?_erase]
    by_cases hm : m = e.2
    · simp [hm]
    · simp only [List.map_cons, List.mem_cons, hm, false_or, if_false]

/-- The monitors of a connection, as the hash map lists them. -/
def monitorsOf (am : ActiveMonitors) (c : Nat) : List (SubId × Nat) :=
  ((am.conns.find? c).getD .empty).entries

theorem mem_monitorsOf (am : ActiveMonitors) (c : Nat) (s : SubId) (m : Nat) :
    (s, m) ∈ monitorsOf am c ↔ am.findMonitor c s = some m := by
  unfold monitorsOf
  rw [findMonitor_eq, ← Assoc.find?_eq_some_iff]
  cases am.conns.find? c with
  | none => simp
  | some cm => simp

theorem Inv.found_monitorsOf {am : ActiveMonitors} (h : Inv am last) {c : Nat} {e : SubId × Nat}
    (he : e ∈ monitorsOf am c) : ∃ sub, am.monitors.find? e.2 = some sub ∧ sub.connId = c ∧
      sub.subId = e.1 :=
  h.found c e.1 e.2 ((mem_monitorsOf am c e.1 e.2).mp he)

theorem Inv.monitorsOf_nodup {am : ActiveMonitors} (h : Inv am last) (c : Nat) :
    ((monitorsOf am c).map Prod.snd).Nodup := by
  refine List.Nodup.map_on (fun e he e' he' hee => ?_) (Assoc.entries_nodup _)
  -- two ids with one monitor are one id
  obtain ⟨sub, hsub, -, hs⟩ := h.found_monitorsOf he
  obtain ⟨sub', hsub', -, hs'⟩ := h.found_monitorsOf he'
  rw [← hee, hsub] at hsub'
  cases hsub'
  exact Prod.ext (hs.symm.trans hs') hee

/-- What closing a connection does. -/
structure Closed (st st' : State) (c : Nat) : Prop where
  find : ∀ c' s', st'.1.findMonitor c' s' = if c' = c then none else st.1.findMonitor c' s'
  monitors : ∀ m, st'.1.monitors.find? m =
    if m ∈ (monitorsOf st.1 c).map Prod.snd then none else st.1.monitors.find? m
  tracker : st'.2 =
    ((monitorsOf st.1 c).filterMap fun e => st.1.monitors.find? e.2).foldl untrackAll st.2

theorem Inv.closeConn (h : Inv st.1 last) (c : Nat) : ∃ st',
    closeConn st c = .ok st' ∧ Inv st'.1 last ∧ Closed st st' c := by
  unfold ActiveMonitors.closeConn
  have hmem := mem_monitorsOf st.1 c
  cases hcm : st.1.conns.find? c with
  | none =>
    have hnil : monitorsOf st.1 c = [] := by
      unfold monitorsOf
      rw [hcm]
      rfl
    refine ⟨st, rfl, h, fun c' s' => ?_, fun m => by simp [hnil], by rw [hnil]; rfl⟩
    split
    · rename_i hc
      rw [findMonitor_eq, hc, hcm]
      rfl
    · rfl
  | some cm =>
    have hent : monitorsOf st.1 c = cm.entries := by
      unfold monitorsOf
      rw [hcm]
      rfl
    have hfound : ∀ e ∈ cm.entries, ∃ sub, st.1.monitors.find? e.2 = some sub ∧
        sub.connId = c ∧ sub.subId = e.1 := fun e he => h.found_monitorsOf (hent ▸ he)
    have hnd : (cm.entries.map Prod.snd).Nodup := hent ▸ h.monitorsOf_nodup c
    rw [hent] at hmem
    obtain ⟨st1, hst1, hsame, htrack, hitem⟩ := closeMonitors_ok cm.entries hnd fun e he => by
      obtain ⟨sub, hsub, -⟩ := hfound e he
      exact ⟨sub, h.toInstalled hsub⟩
    let am' : ActiveMonitors := { st1.1 with
      conns := st1.1.conns.erase c
      monitors := cm.entries.foldl (fun ms e => ms.erase e.2) st1.1.monitors }
    have hfind : ∀ c' s', am'.findMonitor c' s' = if c' = c then none else st.1.findMonitor c' s' := by
      intro c' s'
      rw [findMonitor_eq, findMonitor_eq]
      show ((st1.1.conns.erase c).find? c').bind _ = _
      rw [Assoc.find?_erase, hsame.1]
      split
      · rfl
      · rfl
    have hmon : ∀ m, am'.monitors.find? m =
        if m ∈ cm.entries.map Prod.snd then none else st.1.monitors.find? m := by
      intro m
      show (cm.entries.foldl (fun ms e => ms.erase e.2) st1.1.monitors).find? m = _
      rw [find?_foldl_erase, hsame.2]
    refine ⟨(am', st1.2), ?_, ?_, hfind, ?_, ?_⟩
    · show (closeMonitors cm.entries st >>= _) = _
      rw [hst1]
      rfl
    · refine h.drop (· ∈ cm.entries.map Prod.snd) (fun c' s' m => ?_) hmon fun k p => ?_
      · show am'.findMonitor c' s' = some m ↔ _
        rw [hfind]
        by_cases hc : c' = c
        · subst hc
          rw [if_pos rfl]
          simp only [reduceCtorEq, false_iff, not_and, not_not]
          intro hm
          exact List.mem_map.mpr ⟨(s', m), (hmem s' m).mpr hm, rfl⟩
        · rw [if_neg hc]
          refine ⟨fun hm => ⟨hm, fun hin => ?_⟩, fun hm => hm.1⟩
          obtain ⟨e, he, rfl⟩ := List.mem_map.mp hin
          obtain ⟨sub, hsub, hsc, -⟩ := hfound e he
          obtain ⟨sub', hsub', hsc', -⟩ := h.found c' s' e.2 hm
          rw [hsub] at hsub'
          cases hsub'
          exact hc (hsc'.symm.trans hsc)
      · rw [← hitem k p]
        cases k <;> rfl
    · rw [hent]
      exact hmon
    · rw [hent]
      exact htrack

/-! ## `addSub` -/

/-- At a free address nothing is registered. -/
theorem Inv.item_none {am : ActiveMonitors} (h : Inv am last) {m : Nat} (hm : am.monitors.find? m = none) :
    ∀ k p, p.1 = m → am.item k p = none := by
  rintro k p rfl
  by_contra hne
  obtain ⟨sub', hsub', -⟩ := (h.entries k p).mp (Option.isSome_iff_ne_none.mpr hne)
  rw [hm] at hsub'
  cases hsub'

/-- **One more monitor**, whose filters are registered where they should be. -/
theorem Inv.insert {am am' : ActiveMonitors} (h : Inv am last) {sub : Subscription} {m : Nat}
    (hv : ∀ f ∈ sub.filterGroup.filters, f.Valid) (hm : am.monitors.find? m = none)
    (hnew : am.findMonitor sub.connId sub.subId = none)
    (hfind : ∀ c s, am'.findMonitor c s = if c = sub.connId ∧ s = sub.subId then some m else am.findMonitor c s)
    (hmon : ∀ m', am'.monitors.find? m' = if m' = m then some sub else am.monitors.find? m')
    (hitem : ∀ k p, am'.item k p = if (k, p) ∈ registrations m sub.filterGroup.filters then
      some ⟨m, sub.latestEventId⟩ else am.item k p) : Inv am' last := by
  have hnone := h.item_none hm
  refine ⟨fun c s m' hm' => ?_, fun m' sub' hm' => ?_, fun m' sub' hm' => ?_, fun k p => ?_,
    fun k p it hit => ?_⟩
  · rw [hfind] at hm'
    split at hm'
    · rename_i hcs
      cases hm'
      exact ⟨sub, by rw [hmon, if_pos rfl], hcs.1.symm, hcs.2.symm⟩
    · obtain ⟨sub', hsub', hc', hs'⟩ := h.found c s m' hm'
      refine ⟨sub', ?_, hc', hs'⟩
      rw [hmon, if_neg]
      · exact hsub'
      · rintro rfl
        rw [hm] at hsub'
        cases hsub'
  · rw [hmon] at hm'
    rw [hfind]
    split at hm'
    · rename_i hmm
      cases hm'
      rw [if_pos ⟨rfl, rfl⟩, hmm]
    · have hl := h.listed m' sub' hm'
      rw [if_neg]
      · exact hl
      · rintro ⟨hc, hs⟩
        rw [hc, hs, hnew] at hl
        cases hl
  · rw [hmon] at hm'
    split at hm'
    · cases hm'
      exact hv
    · exact h.valid m' sub' hm'
  · have hent := h.entries k p
    unfold Registered at hent ⊢
    rw [hitem, hmon]
    by_cases hp : p.1 = m
    · rw [if_pos hp]
      simp only [Option.some.injEq, exists_eq_left', mem_registrations]
      split
      · rename_i hr
        simp only [Option.isSome_some, true_iff]
        exact hr.2
      · rename_i hr
        rw [hnone k p hp]
        simp only [Option.isSome_none, Bool.false_eq_true, false_iff]
        exact fun hf => hr ⟨hp, hf⟩
    · rw [if_neg hp, if_neg fun hr => hp ((mem_registrations _ _ _ _).mp hr).1]
      exact hent
  · rw [hitem] at hit
    rw [hmon]
    split at hit
    · rename_i hr
      have hp := ((mem_registrations _ _ _ _).mp hr).1
      cases hit
      refine ⟨hp.symm, fun sub' hs' => ?_⟩
      rw [if_pos hp] at hs'
      cases hs'
      exact Nat.le_max_left _ _
    · obtain ⟨h1, h2⟩ := h.marker k p it hit
      refine ⟨h1, fun sub' hs' => ?_⟩
      by_cases hp : p.1 = m
      · rw [hnone k p hp] at hit
        cases hit
      · rw [if_neg hp] at hs'
        exact h2 sub' hs'

/-- What installing a new monitor at `m` does. -/
structure Added (st st' : State) (sub : Subscription) (m : Nat) : Prop where
  find : ∀ c' s', st'.1.findMonitor c' s' =
    if c' = sub.connId ∧ s' = sub.subId then some m else st.1.findMonitor c' s'
  monitors : ∀ m', st'.1.monitors.find? m' = if m' = m then some sub else st.1.monitors.find? m'
  tracker : st'.2 = trackAll st.2 sub

theorem Inv.addNew (cfg : Cfg) (h : Inv st.1 last) (sub : Subscription) (m : Nat)
    (hv : ∀ f ∈ sub.filterGroup.filters, f.Valid) (hm : st.1.monitors.find? m = none)
    (hnew : st.1.findMonitor sub.connId sub.subId = none) : ∃ added st',
      addNew cfg st sub sub.latestEventId m = .ok (added, st') ∧ Inv st'.1 last ∧
      (added = true → Added st st' sub m) ∧
      (added = false → (∀ c s, st'.1.findMonitor c s = st.1.findMonitor c s) ∧
        st'.1.monitors = st.1.monitors ∧ st'.2 = st.2) := by
  unfold ActiveMonitors.addNew
  let am : ActiveMonitors := { st.1 with conns := st.1.conns.tryEmplace sub.connId .empty }
  have hfind : ∀ c s, am.findMonitor c s = st.1.findMonitor c s := findMonitor_tryEmplace st.1 sub.connId
  have hitem : ∀ k p, am.item k p = st.1.item k p := fun k p => by cases k <;> rfl
  simp only []
  split
  · exact ⟨false, _, rfl, h.congr hfind (fun _ => rfl) hitem, by simp, fun _ => ⟨hfind, rfl, rfl⟩⟩
  · let am1 := am.insertMonitor sub m
    have hfind1 : ∀ c s, am1.findMonitor c s =
        if c = sub.connId ∧ s = sub.subId then some m else st.1.findMonitor c s := by
      intro c s
      rw [findMonitor_insertMonitor (by rw [hfind]; exact hnew), hfind]
    have hmon1 : ∀ m', am1.monitors.find? m' = if m' = m then some sub else st.1.monitors.find? m' := by
      intro m'
      show (st.1.monitors.tryEmplace m sub).find? m' = _
      rw [Assoc.find?_tryEmplace, hm]
      rfl
    obtain ⟨st', hst', hsame, htrack, hitem'⟩ := install_ok m sub.latestEventId
      (registrations m sub.filterGroup.filters) (am1, st.2) fun r hr => check_registrations hv hr
    have hnone := h.item_none hm
    have hitem1 : ∀ k p, st'.1.item k p = if (k, p) ∈ registrations m sub.filterGroup.filters then
        some ⟨m, sub.latestEventId⟩ else st.1.item k p := by
      intro k p
      have ham1 : am1.item k p = st.1.item k p := by cases k <;> rfl
      rw [hitem']
      show (if _ then some ((am1.item k p).getD _) else am1.item k p) = _
      rw [ham1]
      split
      · rename_i hr
        rw [hnone k p ((mem_registrations _ _ _ _).mp hr).1]
        rfl
      · rfl
    have hmon' : ∀ m', st'.1.monitors.find? m' = if m' = m then some sub else st.1.monitors.find? m' := by
      intro m'
      rw [hsame.2]
      exact hmon1 m'
    have hfind' : ∀ c s, st'.1.findMonitor c s =
        if c = sub.connId ∧ s = sub.subId then some m else st.1.findMonitor c s := by
      intro c s
      rw [findMonitor_eq, hsame.1]
      exact hfind1 c s
    refine ⟨true, st', ?_, ?_, fun _ => ⟨hfind', hmon', by rw [htrack, foldl_track]⟩, by simp⟩
    · show (installLookups (am1, st.2) m sub sub.latestEventId >>= _) = _
      unfold installLookups
      rw [hst']
      rfl
    · exact h.insert hv hm hnew hfind' hmon' hitem1

end

end ActiveMonitors

end Strfry
