import Strfry.ActiveMonitorsOps

/-!
# Recipients of an event

`process` goes through the entries of the places an event is looked up under (`probes`).
`Pass` is what holds between two visits of one call: a subscription is on the list at most
once and only when the event is for it, and an entry whose marker has reached the event has
been dealt with.  Since every filter that can match is registered under one of the probes
(`exists_probe`), at the end the list is complete.
-/

namespace Strfry

namespace ActiveMonitors

/-- A matching filter is registered under something the event is looked up under. -/
theorem exists_probe {f : NostrFilter} {ev : PackedEventView} (hm : f.doesMatch ev = true) :
    ∃ k ∈ probes ev, k ∈ f.lookupKeys := by
  have hm := (f.doesMatch_iff ev).mp hm
  unfold probes NostrFilter.lookupKeys
  cases hids : f.ids with
  | some ids =>
    exact ⟨.id ev.id, by simp, List.mem_map_of_mem (hm.ids ids hids)⟩
  | none =>
    cases ha : f.authors with
    | some authors =>
      exact ⟨.author ev.pubkey, by simp, List.mem_map_of_mem (hm.authors authors ha)⟩
    | none =>
      cases ht : f.tags with
      | cons t ts =>
        obtain ⟨u, hu, hname, hval⟩ := hm.tags t (by rw [ht]; exact List.mem_cons_self)
        refine ⟨.tag (getTagSpec u.1 u.2), ?_, ?_⟩
        · exact List.mem_append_left _ (List.mem_append_right _ (List.mem_map_of_mem hu))
        · refine List.mem_flatMap.mpr ⟨t, List.mem_cons_self, List.mem_map.mpr ⟨u.2, hval, ?_⟩⟩
          rw [hname]
      | nil =>
        cases hk : f.kinds with
        | some kinds =>
          exact ⟨.kind ev.kind, by simp, List.mem_map_of_mem (hm.kinds kinds hk)⟩
        | none => exact ⟨.other, by simp, by simp⟩

/-- One call of `process` on `am0`, between two visits. -/
structure Pass (am0 : ActiveMonitors) (levId : Nat) (ev : PackedEventView)
    (st : ActiveMonitors × RecipientList) : Prop where
  conns : st.1.conns = am0.conns
  monitors : ∀ m, st.1.monitors.find? m = (am0.monitors.find? m).map fun sub =>
    if (sub.connId, sub.subId) ∈ st.2 then { sub with latestEventId := levId } else sub
  absent : ∀ k p, am0.item k p = none → st.1.item k p = none
  items : ∀ k p it, am0.item k p = some it → ∃ it', st.1.item k p = some it' ∧ it'.mon = it.mon ∧
    (it' = it ∨ it'.latestEventId = levId)
  seen : ∀ k p it, st.1.item k p = some it → levId ≤ it.latestEventId →
    ∀ sub f, am0.monitors.find? p.1 = some sub → sub.filterGroup.filters[p.2]? = some f →
      sub.latestEventId < levId → f.doesMatch ev = true → (sub.connId, sub.subId) ∈ st.2
  nodup : st.2.Nodup
  sound : ∀ r ∈ st.2, ∃ sub, am0.installed r.1 r.2 = some sub ∧ sub.latestEventId < levId ∧
    sub.filterGroup.doesMatch ev = true

section
variable {am0 : ActiveMonitors} {last levId : Nat} {ev : PackedEventView}

theorem Pass.start (h : Inv am0 last) (hlev : last < levId) : Pass am0 levId ev (am0, []) where
  conns := rfl
  monitors m := by simp
  absent k p hn := hn
  items k p it hit := ⟨it, hit, rfl, Or.inl rfl⟩
  seen k p it hit hle sub f hsub _ hlt _ := by
    have := (h.marker k p it hit).2 sub hsub
    omega
  nodup := .nil
  sound r hr := by simp at hr

/-- An entry points to its live monitor and to one of its filters. -/
theorem Inv.entry (h : Inv am0 last) {k : LookupKey} {p : FilterPtr} {it : MonitorItem}
    (hit : am0.item k p = some it) : it.mon = p.1 ∧ ∃ sub f, am0.monitors.find? p.1 = some sub ∧
      sub.filterGroup.filters[p.2]? = some f ∧ am0.installed sub.connId sub.subId = some sub := by
  obtain ⟨sub, hsub, f, hf, -⟩ := (h.entries k p).mp (by rw [hit]; rfl)
  exact ⟨(h.marker k p it hit).1, sub, f, hsub, hf, h.installed_of_live hsub⟩

/-- What a visit of the entry of `p` at `k` leaves. -/
structure Visited (am0 : ActiveMonitors) (levId : Nat) (ev : PackedEventView) (k : LookupKey)
    (p : FilterPtr) (st st' : ActiveMonitors × RecipientList) : Prop where
  pass : Pass am0 levId ev st'
  others : ∀ k' p', ¬ (k' = k ∧ p' = p) → st'.1.item k' p' = st.1.item k' p'
  keeps : ∀ r ∈ st.2, r ∈ st'.2
  done : ∀ sub f, am0.monitors.find? p.1 = some sub → sub.filterGroup.filters[p.2]? = some f →
    sub.latestEventId < levId → f.doesMatch ev = true → (sub.connId, sub.subId) ∈ st'.2

/-- Marking an entry, when the subscription it is for is on the list or the event is not for its
filter. -/
theorem Pass.mark {st : ActiveMonitors × RecipientList} (hp : Pass am0 levId ev st) {k : LookupKey}
    {p : FilterPtr} {it : MonitorItem} (hit : st.1.item k p = some it) {am' : ActiveMonitors}
    {rs : RecipientList}
    (hconns : am'.conns = st.1.conns)
    (hitem : ∀ k' p', am'.item k' p' =
      if k' = k ∧ p' = p then some { it with latestEventId := levId } else st.1.item k' p')
    (hmon : ∀ m, am'.monitors.find? m = (am0.monitors.find? m).map fun sub =>
      if (sub.connId, sub.subId) ∈ rs then { sub with latestEventId := levId } else sub)
    (hnodup : rs.Nodup) (hkeeps : ∀ r ∈ st.2, r ∈ rs)
    (hsound : ∀ r ∈ rs, r ∉ st.2 → ∃ sub, am0.installed r.1 r.2 = some sub ∧
      sub.latestEventId < levId ∧ sub.filterGroup.doesMatch ev = true)
    (hdone : ∀ sub f, am0.monitors.find? p.1 = some sub → sub.filterGroup.filters[p.2]? = some f →
      sub.latestEventId < levId → f.doesMatch ev = true → (sub.connId, sub.subId) ∈ rs) :
    Visited am0 levId ev k p st (am', rs) := by
  refine ⟨⟨hconns.trans hp.conns, hmon, fun k' p' hn => ?_, fun k' p' it' hit' => ?_,
    fun k' p' it' hit' hle sub f hsub hf hlt hm => ?_, hnodup, fun r hr => ?_⟩,
    fun k' p' hne => by rw [hitem, if_neg hne], hkeeps, hdone⟩
  · have hne : ¬ (k' = k ∧ p' = p) := by
      rintro ⟨rfl, rfl⟩
      rw [hp.absent k' p' hn] at hit
      cases hit
    show am'.item k' p' = none
    rw [hitem, if_neg hne]
    exact hp.absent k' p' hn
  · show ∃ it'', am'.item k' p' = some it'' ∧ _
    rw [hitem]
    by_cases hkp : k' = k ∧ p' = p
    · obtain ⟨rfl, rfl⟩ := hkp
      obtain ⟨it'', hit'', hmon'', -⟩ := hp.items k' p' it' hit'
      rw [hit] at hit''
      cases hit''
      exact ⟨_, if_pos ⟨rfl, rfl⟩, hmon'', Or.inr rfl⟩
    · rw [if_neg hkp]
      exact hp.items k' p' it' hit'
  · have hit' : am'.item k' p' = some it' := hit'
    rw [hitem] at hit'
    by_cases hkp : k' = k ∧ p' = p
    · obtain ⟨rfl, rfl⟩ := hkp
      exact hdone sub f hsub hf hlt hm
    · rw [if_neg hkp] at hit'
      exact hkeeps _ (hp.seen k' p' it' hit' hle sub f hsub hf hlt hm)
  · by_cases hin : r ∈ st.2
    · exact hp.sound r hin
    · exact hsound r hr hin

theorem Pass.visit (h : Inv am0 last) {st : ActiveMonitors × RecipientList}
    (hp : Pass am0 levId ev st) {k : LookupKey} {p : FilterPtr} {it : MonitorItem}
    (hit : st.1.item k p = some it) : ∃ st', visit levId ev k st (p, it) = .ok st' ∧
      Visited am0 levId ev k p st st' := by
  obtain ⟨it0, hit0⟩ : ∃ it0, am0.item k p = some it0 := by
    cases hn : am0.item k p with
    | none => rw [hp.absent k p hn] at hit; cases hit
    | some it0 => exact ⟨it0, rfl⟩
  obtain ⟨hmon0, sub, f, hsub, hf, hinst⟩ := h.entry hit0
  obtain ⟨it', hit', hmon', hcase⟩ := hp.items k p it0 hit0
  rw [hit] at hit'
  cases hit'
  have hmon : it.mon = p.1 := hmon'.trans hmon0
  unfold ActiveMonitors.visit
  simp only []
  by_cases hle : it.latestEventId ≥ levId
  · rw [if_pos hle]
    refine ⟨st, rfl, hp, fun _ _ _ => rfl, fun r hr => hr, fun sub' f' hs' hf' hlt hm => ?_⟩
    exact hp.seen k p it hit hle sub' f' hs' hf' hlt hm
  · rw [if_neg hle]
    have hm1 := hp.monitors p.1
    rw [hsub, Option.map_some] at hm1
    have hderef : ∀ m, m = p.1 → st.1.deref m = .ok
        (if (sub.connId, sub.subId) ∈ st.2 then { sub with latestEventId := levId } else sub) := by
      rintro m rfl
      unfold deref
      rw [hm1]
    rw [hderef it.mon hmon, hderef p.1 rfl]
    by_cases hin : (sub.connId, sub.subId) ∈ st.2
    · -- already on the list: the marker of the subscription has reached the event
      rw [if_pos hin]
      refine ⟨st, by simp [bind, Except.bind, pure, Except.pure], hp, fun _ _ _ => rfl,
        fun r hr => hr, fun sub' f' hs' _ _ _ => ?_⟩
      rw [hsub] at hs'
      cases hs'
      exact hin
    · rw [if_neg hin]
      by_cases hsle : sub.latestEventId ≥ levId
      · refine ⟨st, by simp [bind, Except.bind, pure, Except.pure, hsle], hp, fun _ _ _ => rfl,
          fun r hr => hr, fun sub' f' hs' _ hlt _ => ?_⟩
        rw [hsub] at hs'
        cases hs'
        omega
      · have hframe := setItem_frame st.1 k p { it with latestEventId := levId }
        have hitem := item_setItem hit { it with latestEventId := levId }
        have hunique : ∀ sub' f', am0.monitors.find? p.1 = some sub' →
            sub'.filterGroup.filters[p.2]? = some f' → sub' = sub ∧ f' = f := by
          intro sub' f' hs' hf'
          rw [hsub] at hs'
          cases hs'
          rw [hf] at hf'
          cases hf'
          exact ⟨rfl, rfl⟩
        by_cases hmatch : f.doesMatch ev = true
        · refine ⟨_, by simp [bind, Except.bind, pure, Except.pure, hsle, hf, hmatch]; rfl, ?_⟩
          refine hp.mark hit hframe.1 (fun k' p' => ?_) (fun m => ?_) ?_ ?_ ?_ ?_
          · rw [← hitem k' p']
            cases k' <;> rfl
          · show (Assoc.set _ _ _).find? m = _
            rw [Assoc.find?_set, hframe.2, hmon]
            by_cases hmp : m = p.1
            · subst hmp
              rw [if_pos rfl, hm1, hsub]
              simp
            · rw [if_neg hmp, hp.monitors]
              cases hsub' : am0.monitors.find? m with
              | none => rfl
              | some sub' =>
                -- another monitor is for another id
                have hne : (sub'.connId, sub'.subId) ≠ (sub.connId, sub.subId) := by
                  intro heq
                  have h1 := h.listed m sub' hsub'
                  rw [(Prod.mk.inj heq).1, (Prod.mk.inj heq).2, h.listed p.1 sub hsub] at h1
                  exact hmp (Option.some.inj h1).symm
                simp only [Option.map_some, List.mem_append, List.mem_singleton, hne, or_false]
          · refine List.nodup_append.mpr ⟨hp.nodup, by simp, fun a ha b hb => ?_⟩
            rw [List.mem_singleton.mp hb]
            exact fun hab => hin (hab ▸ ha)
          · exact fun r hr => List.mem_append_left _ hr
          · intro r hr hnot
            rcases List.mem_append.mp hr with hr | hr
            · exact absurd hr hnot
            · rw [List.mem_singleton.mp hr]
              exact ⟨sub, hinst, by omega,
                (sub.filterGroup.doesMatch_iff ev).mpr ⟨f, List.mem_of_getElem? hf, hmatch⟩⟩
          · intro sub' f' hs' hf' _ _
            obtain ⟨rfl, -⟩ := hunique sub' f' hs' hf'
            simp
        · refine ⟨_, by simp [bind, Except.bind, pure, Except.pure, hsle, hf, hmatch]; rfl, ?_⟩
          refine hp.mark hit hframe.1 hitem (fun m => ?_) hp.nodup (fun r hr => hr)
            (fun r hr hnot => absurd hr hnot) fun sub' f' hs' hf' _ hm' => ?_
          · rw [hframe.2]
            exact hp.monitors m
          · obtain ⟨-, rfl⟩ := hunique sub' f' hs' hf'
            exact absurd hm' hmatch

/-- `(k, p)` has been dealt with: a subscription whose filter `p` matches is on the list. -/
def Done (am0 : ActiveMonitors) (levId : Nat) (ev : PackedEventView) (p : FilterPtr)
    (rs : RecipientList) : Prop :=
  ∀ sub f, am0.monitors.find? p.1 = some sub → sub.filterGroup.filters[p.2]? = some f →
    sub.latestEventId < levId → f.doesMatch ev = true → (sub.connId, sub.subId) ∈ rs

theorem Done.mono {p : FilterPtr} {rs rs' : RecipientList} (h : Done am0 levId ev p rs)
    (hsub : ∀ r ∈ rs, r ∈ rs') : Done am0 levId ev p rs' :=
  fun sub f hs hf hlt hm => hsub _ (h sub f hs hf hlt hm)

/-- The loop of `processMonitorSet`. -/
theorem Pass.entries (h : Inv am0 last) (k : LookupKey) (l : List (FilterPtr × MonitorItem))
    (hnd : (l.map Prod.fst).Nodup) {st : ActiveMonitors × RecipientList}
    (hp : Pass am0 levId ev st) (hl : ∀ e ∈ l, st.1.item k e.1 = some e.2) : ∃ st',
      l.foldlM (ActiveMonitors.visit levId ev k) st = .ok st' ∧ Pass am0 levId ev st' ∧
      (∀ r ∈ st.2, r ∈ st'.2) ∧ ∀ e ∈ l, Done am0 levId ev e.1 st'.2 := by
  induction l generalizing st with
  | nil => exact ⟨st, rfl, hp, fun r hr => hr, by simp⟩
  | cons e l ih =>
    obtain ⟨hnotin, hnd'⟩ := List.nodup_cons.mp hnd
    obtain ⟨st1, hst1, hv⟩ := hp.visit h (hl e List.mem_cons_self)
    obtain ⟨st', hst', hp', hkeeps, hdone⟩ := ih hnd' hv.pass (by
      intro e' he'
      rw [hv.others]
      · exact hl e' (List.mem_cons_of_mem _ he')
      · rintro ⟨-, hpe⟩
        exact hnotin (List.mem_map.mpr ⟨e', he', hpe⟩))
    refine ⟨st', ?_, hp', fun r hr => hkeeps r (hv.keeps r hr), fun e' he' => ?_⟩
    · rw [List.foldlM_cons, hst1]
      exact hst'
    · rcases List.mem_cons.mp he' with rfl | he'
      · exact Done.mono hv.done hkeeps
      · exact hdone e' he'

theorem Pass.monitorSet (h : Inv am0 last) {st : ActiveMonitors × RecipientList}
    (hp : Pass am0 levId ev st) (k : LookupKey) : ∃ st',
      processMonitorSet levId ev k st ((st.1.setAt k).getD .empty) = .ok st' ∧ Pass am0 levId ev st' ∧
      (∀ r ∈ st.2, r ∈ st'.2) ∧ ∀ p, (am0.item k p).isSome = true → Done am0 levId ev p st'.2 := by
  have hget : ∀ p, ((st.1.setAt k).getD .empty).find? p = st.1.item k p := by
    intro p
    unfold item
    cases st.1.setAt k with
    | none => rfl
    | some ms => rfl
  obtain ⟨st', hst', hp', hkeeps, hdone⟩ := hp.entries h k ((st.1.setAt k).getD .empty).entries
    (Assoc.nodup _) fun e he => by
      rw [← hget e.1]
      exact (Assoc.find?_eq_some_iff _ e.1 e.2).mpr he
  refine ⟨st', hst', hp', hkeeps, fun p hin => ?_⟩
  obtain ⟨it, hit⟩ := Option.isSome_iff_exists.mp hin
  obtain ⟨it', hit', -⟩ := hp.items k p it hit
  rw [← hget p] at hit'
  exact hdone (p, it') ((Assoc.find?_eq_some_iff _ p it').mp hit')

/-- A place that `exact` leaves out holds nothing. -/
theorem mem_exact_of_item {am : ActiveMonitors} {k : LookupKey} {p : FilterPtr}
    (h : (am.item k p).isSome = true) : k ∈ am.exact k := by
  have hsome : ∀ {κ : Type} [DecidableEq κ] (m : Assoc κ MonitorSet) (key : κ),
      ((m.find? key).bind fun ms => ms.find? p).isSome = true → key ∈ m.keys := by
    intro κ _ m key hm
    cases hf : m.find? key with
    | none => rw [hf] at hm; cases hm
    | some ms => exact (m.mem_keys key).mpr ⟨ms, hf⟩
  cases k with
  | id b => exact List.mem_map_of_mem ((Assoc.mem_exact _ _ _).mpr ⟨rfl, hsome _ _ h⟩)
  | author b => exact List.mem_map_of_mem ((Assoc.mem_exact _ _ _).mpr ⟨rfl, hsome _ _ h⟩)
  | tag b => exact List.mem_map_of_mem ((Assoc.mem_exact _ _ _).mpr ⟨rfl, hsome _ _ h⟩)
  | kind n => exact List.mem_map_of_mem ((Assoc.mem_exact _ _ _).mpr ⟨rfl, hsome _ _ h⟩)
  | other => exact List.mem_singleton.mpr rfl

/-- A list of places, one after the other. -/
theorem Pass.places (h : Inv am0 last) (l : List LookupKey) {st : ActiveMonitors × RecipientList}
    (hp : Pass am0 levId ev st) : ∃ st', l.foldlM (fun st k =>
        processMonitorSet levId ev k st ((st.1.setAt k).getD .empty)) st = .ok st' ∧
      Pass am0 levId ev st' ∧ (∀ r ∈ st.2, r ∈ st'.2) ∧
      ∀ k ∈ l, ∀ p, (am0.item k p).isSome = true → Done am0 levId ev p st'.2 := by
  induction l generalizing st with
  | nil => exact ⟨st, rfl, hp, fun r hr => hr, by simp⟩
  | cons k l ih =>
    obtain ⟨st1, hst1, hp1, hkeeps1, hdone1⟩ := hp.monitorSet h k
    obtain ⟨st', hst', hp', hkeeps, hdone⟩ := ih hp1
    refine ⟨st', ?_, hp', fun r hr => hkeeps r (hkeeps1 r hr), fun k' hk' p hin => ?_⟩
    · rw [List.foldlM_cons, hst1]
      exact hst'
    · rcases List.mem_cons.mp hk' with rfl | hk'
      · exact (hdone1 p hin).mono hkeeps
      · exact hdone k' hk' p hin

/-- The probes of an event, one after the other. -/
theorem Pass.probes (h : Inv am0 last) (l : List LookupKey) {st : ActiveMonitors × RecipientList}
    (hp : Pass am0 levId ev st) : ∃ st', l.foldlM (processKey levId ev) st = .ok st' ∧
      Pass am0 levId ev st' ∧ (∀ r ∈ st.2, r ∈ st'.2) ∧
      ∀ k ∈ l, ∀ p, (am0.item k p).isSome = true → Done am0 levId ev p st'.2 := by
  induction l generalizing st with
  | nil => exact ⟨st, rfl, hp, fun r hr => hr, by simp⟩
  | cons k l ih =>
    obtain ⟨st1, hst1, hp1, hkeeps1, hdone1⟩ := hp.places h (st.1.exact k)
    obtain ⟨st', hst', hp', hkeeps, hdone⟩ := ih hp1
    refine ⟨st', ?_, hp', fun r hr => hkeeps r (hkeeps1 r hr), fun k' hk' p hin => ?_⟩
    · rw [List.foldlM_cons]
      show (processKey levId ev st k >>= _) = _
      unfold processKey
      rw [hst1]
      exact hst'
    · rcases List.mem_cons.mp hk' with rfl | hk'
      · obtain ⟨it, hit⟩ := Option.isSome_iff_exists.mp hin
        obtain ⟨it', hit', -⟩ := hp.items k' p it hit
        exact (hdone1 k' (mem_exact_of_item (by rw [hit']; rfl)) p hin).mono hkeeps
      · exact hdone k' hk' p hin

/-- After a call the invariant holds again, up to the event processed. -/
theorem Pass.inv (h : Inv am0 last) (hlev : last < levId) {st : ActiveMonitors × RecipientList}
    (hp : Pass am0 levId ev st) : Inv st.1 levId := by
  have hfind : ∀ c s, st.1.findMonitor c s = am0.findMonitor c s := by
    intro c s
    rw [findMonitor_eq, hp.conns]
    rfl
  have hmon : ∀ m sub, st.1.monitors.find? m = some sub → ∃ sub0, am0.monitors.find? m = some sub0 ∧
      sub.connId = sub0.connId ∧ sub.subId = sub0.subId ∧ sub.filterGroup = sub0.filterGroup ∧
      (sub = sub0 ∨ (sub.latestEventId = levId ∧ sub0.latestEventId < levId)) := by
    intro m sub hsub
    rw [hp.monitors] at hsub
    obtain ⟨sub0, hsub0, rfl⟩ := Option.map_eq_some_iff.mp hsub
    refine ⟨sub0, hsub0, ?_⟩
    split
    · rename_i hin
      obtain ⟨sub1, hinst, hlt, -⟩ := hp.sound _ hin
      rw [h.installed_of_live hsub0] at hinst
      cases hinst
      exact ⟨rfl, rfl, rfl, Or.inr ⟨rfl, hlt⟩⟩
    · exact ⟨rfl, rfl, rfl, Or.inl rfl⟩
  have hmon' : ∀ m sub0, am0.monitors.find? m = some sub0 → ∃ sub, st.1.monitors.find? m = some sub ∧
      sub.connId = sub0.connId ∧ sub.subId = sub0.subId ∧ sub.filterGroup = sub0.filterGroup := by
    intro m sub0 hsub0
    rw [hp.monitors, hsub0]
    by_cases hin : (sub0.connId, sub0.subId) ∈ st.2
    · exact ⟨{ sub0 with latestEventId := levId }, by simp [hin], rfl, rfl, rfl⟩
    · exact ⟨sub0, by simp [hin], rfl, rfl, rfl⟩
  have hback : ∀ k p it, st.1.item k p = some it → ∃ it0, am0.item k p = some it0 ∧
      it.mon = it0.mon ∧ (it = it0 ∨ it.latestEventId = levId) := by
    intro k p it hit
    cases hit0 : am0.item k p with
    | none => rw [hp.absent k p hit0] at hit; cases hit
    | some it0 =>
      obtain ⟨it', hit', hm, hc⟩ := hp.items k p it0 hit0
      rw [hit] at hit'
      cases hit'
      exact ⟨it0, rfl, hm, hc⟩
  refine ⟨fun c s m hm => ?_, fun m sub hm => ?_, fun m sub hm => ?_, fun k p => ?_,
    fun k p it hit => ?_⟩
  · rw [hfind] at hm
    obtain ⟨sub0, hsub0, hc, hs⟩ := h.found c s m hm
    obtain ⟨sub, hsub, hc', hs', -⟩ := hmon' m sub0 hsub0
    exact ⟨sub, hsub, hc'.trans hc, hs'.trans hs⟩
  · obtain ⟨sub0, hsub0, hc, hs, -⟩ := hmon m sub hm
    rw [hfind, hc, hs]
    exact h.listed m sub0 hsub0
  · obtain ⟨sub0, hsub0, -, -, hf, -⟩ := hmon m sub hm
    rw [hf]
    exact h.valid m sub0 hsub0
  · have hent := h.entries k p
    constructor
    · intro hin
      obtain ⟨it, hit⟩ := Option.isSome_iff_exists.mp hin
      obtain ⟨it0, hit0, -⟩ := hback k p it hit
      obtain ⟨sub0, hsub0, f, hf, hk⟩ := hent.mp (by rw [hit0]; rfl)
      obtain ⟨sub, hsub, -, -, hfg⟩ := hmon' p.1 sub0 hsub0
      exact ⟨sub, hsub, f, hfg ▸ hf, hk⟩
    · rintro ⟨sub, hsub, f, hf, hk⟩
      obtain ⟨sub0, hsub0, -, -, hfg, -⟩ := hmon p.1 sub hsub
      obtain ⟨it0, hit0⟩ := Option.isSome_iff_exists.mp (hent.mpr ⟨sub0, hsub0, f, hfg ▸ hf, hk⟩)
      obtain ⟨it, hit, -⟩ := hp.items k p it0 hit0
      rw [hit]
      rfl
  · obtain ⟨it0, hit0, hm, hc⟩ := hback k p it hit
    obtain ⟨h1, h2⟩ := h.marker k p it0 hit0
    refine ⟨hm.trans h1, fun sub hsub => ?_⟩
    obtain ⟨sub0, hsub0, -, -, -, hl⟩ := hmon p.1 sub hsub
    have := h2 sub0 hsub0
    rcases hc with rfl | hc
    · rcases hl with rfl | ⟨hl, hlt⟩
      · omega
      · omega
    · omega

/-- **One event.**  `process` comes back with the installed subscriptions that have not seen the
event and that it matches, each once. -/
theorem Inv.process (h : Inv am0 last) (hlev : last < levId) (ev : PackedEventView) : ∃ am' rs,
    process am0 levId ev = .ok (am', rs) ∧ Pass am0 levId ev (am', rs) ∧ Inv am' levId ∧
    ∀ c s, (c, s) ∈ rs ↔ ∃ sub, am0.installed c s = some sub ∧ sub.latestEventId < levId ∧
      sub.filterGroup.doesMatch ev = true := by
  obtain ⟨st', hst', hp', -, hdone⟩ := (Pass.start h hlev).probes h (ActiveMonitors.probes ev)
  refine ⟨st'.1, st'.2, hst', hp', hp'.inv h hlev, fun c s => ⟨fun hr => hp'.sound (c, s) hr, ?_⟩⟩
  rintro ⟨sub, hinst, hlt, hm⟩
  obtain ⟨m, hfind, hsub⟩ := Option.bind_eq_some_iff.mp hinst
  obtain ⟨sub', hsub', hc, hs⟩ := h.found c s m hfind
  rw [hsub] at hsub'
  cases hsub'
  obtain ⟨f, hf, hfm⟩ := (sub.filterGroup.doesMatch_iff ev).mp hm
  obtain ⟨i, hi, rfl⟩ := List.getElem_of_mem hf
  obtain ⟨k, hk, hkf⟩ := exists_probe hfm
  have hget := List.getElem?_eq_getElem hi
  have := hdone k hk (m, i) ((h.entries k (m, i)).mpr ⟨sub, hsub, _, hget, hkf⟩) sub _ hsub hget hlt hfm
  rwa [hc, hs] at this

end

end ActiveMonitors

end Strfry
