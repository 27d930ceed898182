import Strfry.ActiveMonitorsProcess
import Strfry.DBQuerySpec

/-!
# Runs of the live subscriptions

Any sequence of `addSub`, `removeSub`, `closeConn` and `process` calls, the events being
processed in the order of their levIds (`Reachable`).  The invariant holds all along, so in
every state

    (c, s) is a recipient of ev  ↔  a subscription (c, s) is installed, it has not seen ev
                                    and its filters match ev           (recipients_eq_bruteForce)

The hash maps are iterated in an order of their own, which any insertion may change: a step
of a run may also reorder them (`Rehashed`).
-/

namespace Strfry

namespace ActiveMonitors

/-- The address a new monitor is put at is not in use, once the subscription it replaces is gone. -/
def Fresh (st : State) (sub : Subscription) (m : Nat) : Prop :=
  ∀ st', removeSub st sub.connId sub.subId = .ok st' → st'.1.monitors.find? m = none

/-- The same structures, iterated in another order. -/
structure Rehashed (am am' : ActiveMonitors) : Prop where
  conns : ∀ c, Option.Rel Assoc.Same (am.conns.find? c) (am'.conns.find? c)
  monitors : am'.monitors.Same am.monitors
  sets : ∀ k, Option.Rel Assoc.Same (am.setAt k) (am'.setAt k)

/-- One call.  `P` is what is known of the subscriptions added; the number is the last event
processed. -/
inductive Step (cfg : Cfg) (P : Subscription → Prop) : State × Nat → State × Nat → Prop where
  | addSub {st st' : State} {last : Nat} (sub : Subscription) (currEventId m : Nat) (added : Bool)
      (hP : P sub) (hm : Fresh st sub m) (h : addSub cfg st sub currEventId m = .ok (added, st')) :
      Step cfg P (st, last) (st', last)
  | removeSub {st st' : State} {last : Nat} (connId : Nat) (subId : SubId)
      (h : removeSub st connId subId = .ok st') : Step cfg P (st, last) (st', last)
  | closeConn {st st' : State} {last : Nat} (connId : Nat) (h : closeConn st connId = .ok st') :
      Step cfg P (st, last) (st', last)
  | process {am am' : ActiveMonitors} {tracker : EphemeralSubTracker} {last : Nat} (levId : Nat)
      (ev : PackedEventView) (rs : RecipientList) (hlev : last < levId)
      (h : process am levId ev = .ok (am', rs)) :
      Step cfg P ((am, tracker), last) ((am', tracker), levId)
  | rehash {am am' : ActiveMonitors} {tracker : EphemeralSubTracker} {last : Nat}
      (h : Rehashed am am') : Step cfg P ((am, tracker), last) ((am', tracker), last)

inductive Reachable (cfg : Cfg) (P : Subscription → Prop) : State → Nat → Prop where
  | init (tracker : EphemeralSubTracker) : Reachable cfg P ({}, tracker) 0
  | step {st st' : State} {last last' : Nat} (h : Reachable cfg P st last)
      (hs : Step cfg P (st, last) (st', last')) : Reachable cfg P st' last'

theorem optionRel_find? {κ β : Type} [DecidableEq κ] {o o' : Option (Assoc κ β)}
    (h : Option.Rel Assoc.Same o o') (k : κ) :
    (o'.bind fun m => m.find? k) = o.bind fun m => m.find? k := by
  cases h with
  | none => rfl
  | some h => exact (h k).symm

theorem Inv.rehash {am am' : ActiveMonitors} {last : Nat} (h : Inv am last) (hr : Rehashed am am') :
    Inv am' last :=
  h.congr (fun c s => optionRel_find? (hr.conns c) s) hr.monitors fun k p => optionRel_find? (hr.sets k) p

/-- What `addSub` does: the subscription of that id goes, the new one comes unless the connection
is full. -/
theorem Inv.addSub (cfg : Cfg) {st : State} {last : Nat} (h : Inv st.1 last) (sub : Subscription)
    (m : Nat) (hv : ∀ f ∈ sub.filterGroup.filters, f.Valid) (hm : Fresh st sub m) :
    ∃ st1 added st', addSub cfg st sub sub.latestEventId m = .ok (added, st') ∧ Inv st'.1 last ∧
      Removed st st1 sub.connId sub.subId ∧ st1.1.monitors.find? m = none ∧
      (added = true → Added st1 st' sub m) ∧
      (added = false → st'.1.monitors = st1.1.monitors ∧ st'.2 = st1.2) := by
  obtain ⟨st1, hst1, hinv1, hrem⟩ := h.removeSub sub.connId sub.subId
  have hnew : st1.1.findMonitor sub.connId sub.subId = none := by
    rw [hrem.find]
    simp
  obtain ⟨added, st', hst', hinv', hadd, hrej⟩ := hinv1.addNew cfg sub m hv (hm st1 hst1) hnew
  refine ⟨st1, added, st', ?_, hinv', hrem, hm st1 hst1, hadd, fun hf => (hrej hf).2⟩
  have hup : throwIf (sub.latestEventId ≠ sub.latestEventId) (.herr "sub not up to date") = .ok () :=
    throwIf_eq_ok.mpr (by simp)
  unfold ActiveMonitors.addSub
  rw [hup, hst1]
  exact hst'

/-- A subscription that is added is up to date. -/
theorem addSub_upToDate {cfg : Cfg} {st : State} {sub : Subscription} {currEventId m : Nat}
    {r : Bool × State} (h : addSub cfg st sub currEventId m = .ok r) :
    currEventId = sub.latestEventId := by
  unfold addSub at h
  obtain ⟨_, hc, -⟩ := bind_eq_ok.mp h
  exact (not_not.mp (throwIf_eq_ok.mp hc)).symm

theorem Inv.step {cfg : Cfg} {P : Subscription → Prop}
    (hP : ∀ sub, P sub → ∀ f ∈ sub.filterGroup.filters, f.Valid) {s s' : State × Nat}
    (h : Inv s.1.1 s.2) (hs : Step cfg P s s') : Inv s'.1.1 s'.2 := by
  cases hs with
  | addSub sub currEventId m added hsub hm hadd =>
    obtain rfl := addSub_upToDate hadd
    obtain ⟨_, _, st', hst', hinv', -⟩ := h.addSub cfg sub m (hP sub hsub) hm
    rw [hst'] at hadd
    cases hadd
    exact hinv'
  | removeSub connId subId hr =>
    obtain ⟨st', hst', hinv', -⟩ := h.removeSub connId subId
    rw [hst'] at hr
    cases hr
    exact hinv'
  | closeConn connId hc =>
    obtain ⟨st', hst', hinv', -⟩ := h.closeConn connId
    rw [hst'] at hc
    cases hc
    exact hinv'
  | process levId ev rs hlev hp =>
    obtain ⟨am', rs', hpr, -, hinv', -⟩ := h.process hlev ev
    rw [hpr] at hp
    cases hp
    exact hinv'
  | rehash hr => exact h.rehash hr

theorem Reachable.inv {cfg : Cfg} {P : Subscription → Prop}
    (hP : ∀ sub, P sub → ∀ f ∈ sub.filterGroup.filters, f.Valid) {st : State} {last : Nat}
    (h : Reachable cfg P st last) : Inv st.1 last := by
  induction h with
  | init tracker => exact Inv.empty 0
  | step _ hs ih => exact Inv.step hP ih hs

/-! ## What is installed -/

theorem installed_eq (am : ActiveMonitors) (c : Nat) (s : SubId) :
    am.installed c s = (am.findMonitor c s).bind fun m => am.monitors.find? m := rfl

theorem Rehashed.installed {am am' : ActiveMonitors} (h : Rehashed am am') (c : Nat) (s : SubId) :
    am'.installed c s = am.installed c s := by
  have hfind : am'.findMonitor c s = am.findMonitor c s := optionRel_find? (h.conns c) s
  rw [installed_eq, installed_eq, hfind]
  cases am.findMonitor c s with
  | none => rfl
  | some m => exact h.monitors m

section
variable {st st' : State} {last : Nat}

theorem Removed.installed (hinv : Inv st.1 last) {c : Nat} {s : SubId} (h : Removed st st' c s)
    (c' : Nat) (s' : SubId) :
    st'.1.installed c' s' = if c' = c ∧ s' = s then none else st.1.installed c' s' := by
  rw [installed_eq, installed_eq, h.find]
  by_cases hcs : c' = c ∧ s' = s
  · rw [if_pos hcs, if_pos hcs]
    rfl
  · rw [if_neg hcs, if_neg hcs]
    cases hm : st.1.findMonitor c' s' with
    | none => rfl
    | some m =>
      rw [Option.bind_some, Option.bind_some, h.monitors, if_neg]
      intro hm'
      obtain ⟨sub, hsub, hc, hs⟩ := hinv.found c' s' m hm
      obtain ⟨sub', hsub', hc', hs'⟩ := hinv.found c s m hm'
      rw [hsub] at hsub'
      cases hsub'
      exact hcs ⟨hc.symm.trans hc', hs.symm.trans hs'⟩

theorem Closed.installed (hinv : Inv st.1 last) {c : Nat} (h : Closed st st' c) (c' : Nat) (s' : SubId) :
    st'.1.installed c' s' = if c' = c then none else st.1.installed c' s' := by
  rw [installed_eq, installed_eq, h.find]
  by_cases hc : c' = c
  · rw [if_pos hc, if_pos hc]
    rfl
  · rw [if_neg hc, if_neg hc]
    cases hm : st.1.findMonitor c' s' with
    | none => rfl
    | some m =>
      rw [Option.bind_some, Option.bind_some, h.monitors, if_neg]
      intro hin
      obtain ⟨e, he, hem⟩ := List.mem_map.mp hin
      obtain ⟨sub, hsub, hc', -⟩ := hinv.found c' s' m hm
      obtain ⟨sub', hsub', hc'', -⟩ := hinv.found_monitorsOf he
      rw [hem, hsub] at hsub'
      cases hsub'
      exact hc (hc'.symm.trans hc'')

theorem Added.installed (hinv : Inv st.1 last) {sub : Subscription} {m : Nat}
    (hm : st.1.monitors.find? m = none) (h : Added st st' sub m) (c' : Nat) (s' : SubId) :
    st'.1.installed c' s' =
      if c' = sub.connId ∧ s' = sub.subId then some sub else st.1.installed c' s' := by
  rw [installed_eq, installed_eq, h.find]
  by_cases hcs : c' = sub.connId ∧ s' = sub.subId
  · rw [if_pos hcs, if_pos hcs, Option.bind_some, h.monitors, if_pos rfl]
  · rw [if_neg hcs, if_neg hcs]
    cases hm' : st.1.findMonitor c' s' with
    | none => rfl
    | some m' =>
      rw [Option.bind_some, Option.bind_some, h.monitors, if_neg]
      rintro rfl
      obtain ⟨sub', hsub', -⟩ := hinv.found c' s' m' hm'
      rw [hm] at hsub'
      cases hsub'

/-- The recipients of an event have seen it. -/
theorem Pass.installed {am am' : ActiveMonitors} (hinv : Inv am last) {levId : Nat} {ev : PackedEventView}
    {rs : RecipientList} (h : Pass am levId ev (am', rs)) (c : Nat) (s : SubId) :
    am'.installed c s = (am.installed c s).map fun sub =>
      if (c, s) ∈ rs then { sub with latestEventId := levId } else sub := by
  have hfind : am'.findMonitor c s = am.findMonitor c s :=
    congrArg (fun conns => conns.find? c >>= fun f1 => f1.find? s) h.conns
  rw [installed_eq, installed_eq, hfind]
  cases hm : am.findMonitor c s with
  | none => rfl
  | some m =>
    obtain ⟨sub, hsub, rfl, rfl⟩ := hinv.found c s m hm
    rw [Option.bind_some, Option.bind_some, h.monitors, hsub]
    rfl

/-- A connection has that many subscriptions installed, apart from one id. -/
def Full (am : ActiveMonitors) (c : Nat) (s : SubId) (n : Nat) : Prop :=
  ∃ ids : Finset SubId, n ≤ ids.card ∧ ∀ s' ∈ ids, s' ≠ s ∧ (am.installed c s').isSome

/-- `addSub` turns a subscription down only when its connection is full. -/
theorem addNew_full {cfg : Cfg} (h : Inv st.1 last) {sub : Subscription} {currEventId m : Nat}
    (hnew : st.1.findMonitor sub.connId sub.subId = none)
    (ha : addNew cfg st sub currEventId m = .ok (false, st')) :
    Full st.1 sub.connId sub.subId cfg.relayMaxSubsPerConnection := by
  let row : Assoc SubId Nat := ((st.1.conns.tryEmplace sub.connId .empty).find? sub.connId).getD .empty
  have hrow : ∀ s, row.find? s = st.1.findMonitor sub.connId s := by
    intro s
    rw [← findMonitor_tryEmplace st.1 sub.connId sub.connId s]
    show row.find? s = ((st.1.conns.tryEmplace sub.connId .empty).find? sub.connId).bind fun cm => cm.find? s
    unfold row
    rw [Assoc.find?_tryEmplace, if_pos rfl]
    rfl
  unfold addNew at ha
  simp only [] at ha
  split at ha
  · rename_i hsize
    refine ⟨row.keys.toFinset, ?_, fun s hs => ?_⟩
    · have hcard : row.keys.toFinset.card = row.size := by
        rw [List.toFinset_card_of_nodup (l := row.keys) row.nodup]
        exact List.length_map _
      rw [hcard]
      exact hsize
    · obtain ⟨m', hm'⟩ := (row.mem_keys s).mp (List.mem_toFinset.mp hs)
      rw [hrow] at hm'
      obtain ⟨sub', hsub', -⟩ := h.found _ _ _ hm'
      refine ⟨?_, ?_⟩
      · rintro rfl
        rw [hnew] at hm'
        cases hm'
      · rw [installed_eq, hm', Option.bind_some, hsub']
        rfl
  · obtain ⟨st1, -, ha⟩ := bind_eq_ok.mp ha
    cases ha

/-- `addSub`, by what is installed. -/
theorem Inv.addSub_installed (cfg : Cfg) (h : Inv st.1 last) {sub : Subscription} {currEventId m : Nat}
    (hv : ∀ f ∈ sub.filterGroup.filters, f.Valid) (hm : Fresh st sub m) {added : Bool}
    (ha : ActiveMonitors.addSub cfg st sub currEventId m = .ok (added, st')) : Inv st'.1 last ∧
      (∀ c s, st'.1.installed c s = if c = sub.connId ∧ s = sub.subId then
        (if added then some sub else none) else st.1.installed c s) ∧
      (added = false → Full st.1 sub.connId sub.subId cfg.relayMaxSubsPerConnection) := by
  obtain rfl := addSub_upToDate ha
  obtain ⟨st1, hst1, hinv1, hrem⟩ := h.removeSub sub.connId sub.subId
  have hinst1 := hrem.installed h
  have hnew : st1.1.findMonitor sub.connId sub.subId = none := by
    rw [hrem.find]
    simp
  obtain ⟨added', st'', hst'', hinv'', hadd, hrej⟩ := hinv1.addNew cfg sub m hv (hm st1 hst1) hnew
  have ha' : ActiveMonitors.addNew cfg st1 sub sub.latestEventId m = .ok (added, st') := by
    unfold ActiveMonitors.addSub at ha
    obtain ⟨_, -, ha⟩ := bind_eq_ok.mp ha
    rw [hst1] at ha
    exact ha
  rw [ha'] at hst''
  cases hst''
  refine ⟨hinv'', fun c s => ?_, fun hf => ?_⟩
  · cases hb : added with
    | true =>
      rw [(hadd hb).installed hinv1 (hm st1 hst1), hinst1]
      by_cases hcs : c = sub.connId ∧ s = sub.subId
      · simp only [if_pos hcs, if_true]
      · simp only [if_neg hcs]
    | false =>
      obtain ⟨hfind, hmon, -⟩ := hrej hb
      rw [installed_eq, hfind, hmon, ← installed_eq, hinst1]
      by_cases hcs : c = sub.connId ∧ s = sub.subId
      · simp only [if_pos hcs, Bool.false_eq_true, if_false]
      · simp only [if_neg hcs]
  · obtain ⟨ids, hcard, hids⟩ := addNew_full hinv1 hnew (hf ▸ ha')
    refine ⟨ids, hcard, fun s hs => ⟨(hids s hs).1, ?_⟩⟩
    have hsome := (hids s hs).2
    rw [hinst1, if_neg fun hcs => (hids s hs).1 hcs.2] at hsome
    exact hsome

end

/-- **The index equals brute force.**  In every state of a run the next event is for exactly the
installed subscriptions that have not seen it and match it, each once; an entry of the lookup
structures belongs to a filter of an installed subscription; and no call throws. -/
theorem recipients_eq_bruteForce [Golpe] (cfg : Cfg) (st : State) (last : Nat)
    (h : Reachable cfg (fun sub => sub.filterGroup.Built) st last) :
    (∀ levId ev, last < levId → ∃ am' rs, process st.1 levId ev = .ok (am', rs) ∧ rs.Nodup ∧
      ∀ c s, (c, s) ∈ rs ↔ ∃ sub, st.1.installed c s = some sub ∧ sub.latestEventId < levId ∧
        sub.filterGroup.doesMatch ev = true) ∧
    (∀ k p it, st.1.item k p = some it → ∃ sub f,
      st.1.findMonitor sub.connId sub.subId = some p.1 ∧
      st.1.installed sub.connId sub.subId = some sub ∧
      sub.filterGroup.filters[p.2]? = some f ∧ k ∈ f.lookupKeys) ∧
    (∀ c s, ∃ st', removeSub st c s = .ok st') ∧
    (∀ c, ∃ st', closeConn st c = .ok st') ∧
    ∀ sub m, sub.filterGroup.Built → Fresh st sub m →
      ∃ r, addSub cfg st sub sub.latestEventId m = .ok r := by
  have hinv := h.inv fun sub hb f hf => (hb.valid f hf).1
  refine ⟨fun levId ev hlev => ?_, fun k p it hit => ?_, fun c s => ?_, fun c => ?_,
    fun sub m hb hm => ?_⟩
  · obtain ⟨am', rs, hp, hpass, -, hmem⟩ := hinv.process hlev ev
    exact ⟨am', rs, hp, hpass.nodup, hmem⟩
  · obtain ⟨sub, hsub, f, hf, hk⟩ := (hinv.entries k p).mp (by rw [hit]; rfl)
    exact ⟨sub, f, hinv.listed p.1 sub hsub, hinv.installed_of_live hsub, hf, hk⟩
  · obtain ⟨st', hst', -⟩ := hinv.removeSub c s
    exact ⟨st', hst'⟩
  · obtain ⟨st', hst', -⟩ := hinv.closeConn c
    exact ⟨st', hst'⟩
  · obtain ⟨_, added, st', hst', -⟩ := hinv.addSub cfg sub m (fun f hf => (hb.valid f hf).1) hm
    exact ⟨(added, st'), hst'⟩

/-- A subscription of kind 1 on connection 1, up to date with an empty database. -/
def kind1Sub : Subscription := { DBQuery.subOf [DBQuery.kind1Filter] with latestEventId := 0 }

theorem recipients_eq_bruteForce_kind1 : ∃ (st : State) (am' : ActiveMonitors) (rs : RecipientList),
    addSub {} ({}, {}) kind1Sub 0 7 = .ok (true, st) ∧
    process st.1 1 (sampleEvent 1 9 100 1 []) = .ok (am', rs) ∧
    (kind1Sub.connId, kind1Sub.subId) ∈ rs := by
  let _ : Golpe := Golpe.plain
  have hreq : NostrFilterGroup.ofReq DBQuery.newestOfKind1 500 = .ok ⟨[DBQuery.kind1Filter]⟩ := rfl
  have hbuilt : kind1Sub.filterGroup.Built := .of_ofReq hreq
  have hfresh : Fresh ({}, {}) kind1Sub 7 := by
    intro st' h
    cases h
    rfl
  obtain ⟨st, hst, hinst⟩ : ∃ st : State, addSub {} ({}, {}) kind1Sub 0 7 = .ok (true, st) ∧
      st.1.installed kind1Sub.connId kind1Sub.subId = some kind1Sub := ⟨_, rfl, rfl⟩
  have hreach : Reachable {} (fun sub => sub.filterGroup.Built) st 0 :=
    .step (.init {}) (.addSub kind1Sub 0 7 true hbuilt hfresh hst)
  obtain ⟨am', rs, hp, -, hmem⟩ :=
    (recipients_eq_bruteForce {} st 0 hreach).1 1 (sampleEvent 1 9 100 1 []) (by decide)
  exact ⟨st, am', rs, hst, hp, (hmem _ _).mpr ⟨kind1Sub, hinst, by decide, by decide⟩⟩

end ActiveMonitors

end Strfry
