import Strfry.ActiveMonitorsRun
import Strfry.Ingester
import Mathlib.Algebra.BigOperators.Fin
import Mathlib.Algebra.Order.BigOperators.Group.Finset

/-!
# Subscribers of ephemeral kinds

Every `ActiveMonitors` of a relay reports to one `EphemeralSubTracker`.  The tracker counts
exactly how often the installed filters are registered under each ephemeral kind and under
no field at all (`Counts`, and `refcounts_exact` over any run of any number of them).  Filters that are registered
under ids, authors or tags are not reported, whatever kinds they accept: an ephemeral event
that only such a filter matches is dropped (`authorsOnly_dropped`).  Without such filters no
event with a subscriber is (`hasSubscribersForKind_of_match`).
-/

namespace Strfry

namespace ActiveMonitors

/-! ## The counts -/

/-- The tracker holds the counts `c`. -/
structure Counts (t : EphemeralSubTracker) (c : LookupKey → Nat) : Prop where
  kinds : ∀ k, t.kindRefcounts.find? k =
    if isEphemeralKind k = false ∨ c (.kind k) = 0 then none else some (c (.kind k))
  catchAll : t.catchAllCount = c .other

theorem Counts.congr {t : EphemeralSubTracker} {c c' : LookupKey → Nat} (h : Counts t c)
    (hc : ∀ k, c' k = c k) : Counts t c' := by
  rwa [funext hc]

theorem Counts.track {t : EphemeralSubTracker} {c : LookupKey → Nat} (h : Counts t c)
    (key : LookupKey) : Counts (track t key) fun k => c k + if key = k then 1 else 0 := by
  unfold ActiveMonitors.track
  split
  · rename_i n
    split
    · rename_i hn
      refine ⟨fun k => ?_, h.catchAll⟩
      simp only [EphemeralSubTracker.addKind, Assoc.find?_set, Assoc.find?_tryEmplace, if_true]
      by_cases hk : k = n
      · subst hk
        simp only [if_true, Option.map_some, Option.getD_some, h.kinds, hn]
        by_cases hc : c (.kind k) = 0
        · simp [hc]
        · simp [hc]
      · have hne : LookupKey.kind n ≠ .kind k := fun he => hk (LookupKey.kind.inj he).symm
        simp [hk, hne, h.kinds]
    · rename_i hn
      refine ⟨fun k => ?_, by simpa using h.catchAll⟩
      rw [h.kinds]
      by_cases hk : n = k
      · subst hk
        simp [hn]
      · simp [hk]
  · refine ⟨h.kinds, ?_⟩
    show t.catchAllCount + 1 = _
    simp [h.catchAll]
  · rename_i hkind hother
    have hne : ∀ k, key ≠ .kind k := fun k => hkind k
    have hno : key ≠ .other := fun he => hother he
    exact ⟨fun k => by simpa [hne] using h.kinds k, by simpa [hno] using h.catchAll⟩

theorem Counts.untrack {t : EphemeralSubTracker} {c : LookupKey → Nat} {key : LookupKey}
    (h : Counts t fun k => c k + if key = k then 1 else 0) : Counts (untrack t key) c := by
  unfold ActiveMonitors.untrack
  split
  · rename_i n
    have hcatch : t.catchAllCount = c .other := by simpa using h.catchAll
    have hothers : ∀ k, k ≠ n → t.kindRefcounts.find? k =
        if isEphemeralKind k = false ∨ c (.kind k) = 0 then none else some (c (.kind k)) := by
      intro k hk
      have hne : LookupKey.kind n ≠ .kind k := fun he => hk (LookupKey.kind.inj he).symm
      simpa [hne] using h.kinds k
    split
    · rename_i hn
      have hcount : t.kindRefcounts.find? n = some (c (.kind n) + 1) := by simpa [hn] using h.kinds n
      unfold EphemeralSubTracker.removeKind
      simp only [hcount, Nat.add_sub_cancel]
      split
      · rename_i hz
        refine ⟨fun k => ?_, hcatch⟩
        rw [Assoc.find?_erase]
        by_cases hk : k = n
        · subst hk
          simp [hz]
        · rw [if_neg hk]
          exact hothers k hk
      · rename_i hz
        refine ⟨fun k => ?_, hcatch⟩
        rw [Assoc.find?_set]
        by_cases hk : k = n
        · subst hk
          simp [hz, hn, hcount]
        · rw [if_neg hk]
          exact hothers k hk
    · rename_i hn
      refine ⟨fun k => ?_, hcatch⟩
      by_cases hk : k = n
      · subst hk
        simpa [hn] using h.kinds k
      · exact hothers k hk
  · have hcatch : t.catchAllCount = c .other + 1 := by simpa using h.catchAll
    unfold EphemeralSubTracker.removeCatchAll
    rw [if_pos (by omega)]
    refine ⟨fun k => by simpa using h.kinds k, ?_⟩
    show t.catchAllCount - 1 = _
    omega
  · rename_i hkind hother
    have hne : ∀ k, key ≠ .kind k := fun k => hkind k
    have hno : key ≠ .other := fun he => hother he
    exact ⟨fun k => by simpa [hne] using h.kinds k, by simpa [hno] using h.catchAll⟩

theorem Counts.foldl_track {t : EphemeralSubTracker} {c : LookupKey → Nat} (h : Counts t c)
    (l : List LookupKey) : Counts (l.foldl ActiveMonitors.track t) fun k => c k + l.count k := by
  induction l generalizing t c with
  | nil => exact h.congr fun k => by simp
  | cons key l ih =>
    refine (ih (h.track key)).congr fun k => ?_
    rw [List.count_cons]
    simp only [beq_iff_eq]
    omega

theorem Counts.foldl_untrack {t : EphemeralSubTracker} {c : LookupKey → Nat} (l : List LookupKey)
    (h : Counts t fun k => c k + l.count k) : Counts (l.foldl ActiveMonitors.untrack t) c := by
  induction l generalizing t with
  | nil => exact h.congr fun k => by simp
  | cons key l ih =>
    have hcons : Counts t fun k => c k + l.count k + if key = k then 1 else 0 := by
      refine h.congr fun k => ?_
      rw [List.count_cons]
      simp only [beq_iff_eq]
      omega
    exact ih hcons.untrack

/-- How often the installed filters are registered at a place. -/
def weight (am : ActiveMonitors) (k : LookupKey) : Nat :=
  am.monitors.total fun sub => (keysOf sub).count k

theorem Counts.foldl_untrackAll {t : EphemeralSubTracker} {c : LookupKey → Nat}
    (subs : List Subscription)
    (h : Counts t fun k => c k + (subs.map fun sub => (keysOf sub).count k).sum) :
    Counts (subs.foldl untrackAll t) c := by
  induction subs generalizing t with
  | nil => exact h.congr fun k => by simp
  | cons sub subs ih =>
    refine ih (Counts.foldl_untrack (keysOf sub) (h.congr fun k => ?_))
    rw [List.map_cons, List.sum_cons]
    omega

/-- What the monitors at these addresses weigh, and what the others do. -/
theorem total_foldl_erase (l : List (SubId × Nat)) (ms : Assoc Nat Subscription)
    (hnd : (l.map Prod.snd).Nodup) (hl : ∀ e ∈ l, ∃ sub, ms.find? e.2 = some sub)
    (g : Subscription → Nat) :
    ms.total g = ((l.filterMap fun e => ms.find? e.2).map g).sum +
      (l.foldl (fun ms e => ms.erase e.2) ms).total g := by
  induction l generalizing ms with
  | nil => simp
  | cons e l ih =>
    obtain ⟨sub, hsub⟩ := hl e List.mem_cons_self
    obtain ⟨hnotin, hnd'⟩ := List.nodup_cons.mp hnd
    have hkeep : ∀ e' ∈ l, (ms.erase e.2).find? e'.2 = ms.find? e'.2 := by
      intro e' he'
      rw [Assoc.find?_erase, if_neg]
      intro hee
      exact hnotin (List.mem_map.mpr ⟨e', he', hee⟩)
    have hrest := ih (ms.erase e.2) hnd' fun e' he' => by
      rw [hkeep e' he']
      exact hl e' (List.mem_cons_of_mem _ he')
    have hmap : (l.filterMap fun e' => (ms.erase e.2).find? e'.2) = l.filterMap fun e' => ms.find? e'.2 :=
      List.filterMap_congr hkeep
    rw [List.filterMap_cons, hsub, List.map_cons, List.sum_cons, List.foldl_cons,
      Assoc.total_erase hsub g, hrest, hmap, Nat.add_assoc]

section
variable {cfg : Cfg} {P : Subscription → Prop} {st st' : State} {last : Nat} {b : LookupKey → Nat}

theorem Counts.removed (hinv : Inv st.1 last) {c : Nat} {s : SubId} (hr : Removed st st' c s)
    (h : Counts st.2 fun k => b k + weight st.1 k) : Counts st'.2 fun k => b k + weight st'.1 k := by
  rw [hr.tracker]
  cases hm : st.1.findMonitor c s with
  | none =>
    have hsame : ∀ k, weight st'.1 k = weight st.1 k := fun k =>
      Assoc.total_congr fun m => by rw [hr.monitors, hm]; simp
    simpa [installed, hm, hsame] using h
  | some m =>
    obtain ⟨sub, hsub, -⟩ := hinv.found c s m hm
    have hweight : ∀ k, weight st.1 k = (keysOf sub).count k + weight st'.1 k := by
      intro k
      unfold weight
      rw [Assoc.total_erase hsub]
      congr 1
      refine Assoc.total_congr fun m' => ?_
      rw [hr.monitors, hm, Assoc.find?_erase]
      simp only [Option.some.injEq, eq_comm]
    simp only [installed, hm, Option.bind_some, hsub]
    refine Counts.foldl_untrack (keysOf sub) (h.congr fun k => ?_)
    rw [hweight k]
    omega

theorem Counts.added {sub : Subscription} {m : Nat} (ha : Added st st' sub m)
    (hm : st.1.monitors.find? m = none) (h : Counts st.2 fun k => b k + weight st.1 k) :
    Counts st'.2 fun k => b k + weight st'.1 k := by
  rw [ha.tracker]
  refine (Counts.foldl_track h (keysOf sub)).congr fun k => ?_
  have hweight : weight st'.1 k = (keysOf sub).count k + weight st.1 k := by
    unfold weight
    rw [← Assoc.total_tryEmplace hm sub fun sub => (keysOf sub).count k]
    refine Assoc.total_congr fun m' => ?_
    rw [ha.monitors, Assoc.find?_tryEmplace, hm]
    rfl
  rw [hweight]
  omega

theorem Counts.rejected (hmon : st'.1.monitors = st.1.monitors) (htr : st'.2 = st.2)
    (h : Counts st.2 fun k => b k + weight st.1 k) : Counts st'.2 fun k => b k + weight st'.1 k := by
  unfold weight at h ⊢
  rwa [htr, hmon]

theorem Counts.closed (hinv : Inv st.1 last) {c : Nat} (hc : Closed st st' c)
    (h : Counts st.2 fun k => b k + weight st.1 k) : Counts st'.2 fun k => b k + weight st'.1 k := by
  rw [hc.tracker]
  refine Counts.foldl_untrackAll _ (h.congr fun k => ?_)
  have hweight : weight st'.1 k =
      ((monitorsOf st.1 c).foldl (fun ms e => ms.erase e.2) st.1.monitors).total
        fun sub => (keysOf sub).count k :=
    Assoc.total_congr fun m => by rw [hc.monitors, find?_foldl_erase]
  have htotal := total_foldl_erase (monitorsOf st.1 c) st.1.monitors (hinv.monitorsOf_nodup c)
    (fun e he => by
      obtain ⟨sub, hsub, -⟩ := hinv.found_monitorsOf he
      exact ⟨sub, hsub⟩) fun sub => (keysOf sub).count k
  rw [hweight]
  unfold weight
  omega

/-- A call on one of the structures keeps the counts, whatever the others (`b`) weigh. -/
theorem Counts.step {s s' : State × Nat}
    (hP : ∀ sub, P sub → ∀ f ∈ sub.filterGroup.filters, f.Valid) (hinv : Inv s.1.1 s.2)
    (hs : Step cfg P s s') (h : Counts s.1.2 fun k => b k + weight s.1.1 k) :
    Counts s'.1.2 fun k => b k + weight s'.1.1 k := by
  cases hs with
  | addSub sub currEventId m added hsub hm hadd =>
    obtain rfl := addSub_upToDate hadd
    obtain ⟨st1, added', st', hst', -, hrem, hfree, hyes, hno⟩ :=
      hinv.addSub cfg sub m (hP sub hsub) hm
    rw [hst'] at hadd
    cases hadd
    have h1 := Counts.removed hinv hrem h
    cases added with
    | true => exact Counts.added (hyes rfl) hfree h1
    | false => exact Counts.rejected (hno rfl).1 (hno rfl).2 h1
  | removeSub connId subId hr =>
    obtain ⟨st', hst', -, hrem⟩ := hinv.removeSub connId subId
    rw [hst'] at hr
    cases hr
    exact Counts.removed hinv hrem h
  | closeConn connId hc =>
    obtain ⟨st', hst', -, hcl⟩ := hinv.closeConn connId
    rw [hst'] at hc
    cases hc
    exact Counts.closed hinv hcl h
  | process levId ev rs hlev hp =>
    obtain ⟨am', rs', hpr, hpass, -⟩ := hinv.process hlev ev
    rw [hpr] at hp
    cases hp
    refine h.congr fun k => congrArg (b k + ·) (Assoc.total_congr fun m => ?_)
    rw [hpass.monitors, Option.map_map]
    congr 1
    funext sub
    show (keysOf (if _ then _ else _)).count k = _
    split
    · rfl
    · rfl
  | rehash hr =>
    exact h.congr fun k => congrArg (b k + ·) (Assoc.total_congr fun m => by rw [hr.monitors m])

end

/-! ## Any number of structures -/

/-- The `ActiveMonitors` of the ReqMonitor threads, with the last event each has processed, and
the tracker they share. -/
structure Shared (n : Nat) where
  ams : Fin n → ActiveMonitors := fun _ => {}
  last : Fin n → Nat := fun _ => 0
  tracker : EphemeralSubTracker := {}

/-- Any calls on any of the structures. -/
inductive SharedReachable (cfg : Cfg) (P : Subscription → Prop) {n : Nat} : Shared n → Prop where
  | init : SharedReachable cfg P {}
  | step {s : Shared n} (h : SharedReachable cfg P s) (i : Fin n) (am' : ActiveMonitors)
      (tracker' : EphemeralSubTracker) (last' : Nat)
      (hs : Step cfg P ((s.ams i, s.tracker), s.last i) ((am', tracker'), last')) :
      SharedReachable cfg P
        ⟨Function.update s.ams i am', Function.update s.last i last', tracker'⟩

structure SharedInv {n : Nat} (s : Shared n) : Prop where
  inv : ∀ i, Inv (s.ams i) (s.last i)
  counts : Counts s.tracker fun k => ∑ i, weight (s.ams i) k

/-- **The counts are exact** in every state of a run. -/
theorem SharedReachable.inv {cfg : Cfg} {P : Subscription → Prop}
    (hP : ∀ sub, P sub → ∀ f ∈ sub.filterGroup.filters, f.Valid) {n : Nat} {s : Shared n}
    (h : SharedReachable cfg P s) : SharedInv s := by
  induction h with
  | init =>
    have hzero : ∀ k, weight {} k = 0 := fun k => rfl
    exact ⟨fun _ => Inv.empty 0, fun k => by simp [hzero], by simp [hzero]⟩
  | @step s _ i am' tracker' last' hs ih =>
    refine ⟨fun j => ?_, ?_⟩
    · by_cases hj : j = i
      · subst hj
        simpa using Inv.step hP (s := ((s.ams j, s.tracker), s.last j)) (ih.inv j) hs
      · simpa [Function.update_of_ne hj] using ih.inv j
    · have hsplit : ∀ (ams : Fin n → ActiveMonitors) k, ∑ j, weight (ams j) k =
          (∑ j ∈ Finset.univ.erase i, weight (ams j) k) + weight (ams i) k := fun ams k =>
        (Finset.sum_erase_add _ _ (Finset.mem_univ i)).symm
      have hb := Counts.step (b := fun k => ∑ j ∈ Finset.univ.erase i, weight (s.ams j) k) hP
        (s := ((s.ams i, s.tracker), s.last i)) (ih.inv i) hs (ih.counts.congr fun k => (hsplit _ k).symm)
      refine hb.congr fun k => ?_
      rw [hsplit]
      have hself : Function.update s.ams i am' i = am' := Function.update_self ..
      have hrest : ∑ j ∈ Finset.univ.erase i, weight (Function.update s.ams i am' j) k =
          ∑ j ∈ Finset.univ.erase i, weight (s.ams j) k :=
        Finset.sum_congr rfl fun j hj => by rw [Function.update_of_ne (Finset.ne_of_mem_erase hj)]
      simp only [hself, hrest]

/-! ## The refcounts -/

/-- A filter that `installLookups` registers by its kinds, `k` among them. -/
def byKind (k : Nat) (f : NostrFilter) : Bool :=
  f.ids.isNone && f.authors.isNone && f.tags.isEmpty && f.kinds.any fun kinds => k ∈ kinds.items

/-- A filter with no ids, authors, tags or kinds. -/
def catchAll (f : NostrFilter) : Bool :=
  f.ids.isNone && f.authors.isNone && f.tags.isEmpty && f.kinds.isNone

/-- How many of the installed filters are of a sort. -/
def installedFilters (am : ActiveMonitors) (sort : NostrFilter → Bool) : Nat :=
  am.monitors.total fun sub => sub.filterGroup.filters.countP sort

theorem count_map_of_ne {α : Type} (l : List α) (g : α → LookupKey) {key : LookupKey} (hg : ∀ a, g a ≠ key) :
    (l.map g).count key = 0 := by
  refine List.count_eq_zero.mpr fun hin => ?_
  obtain ⟨a, -, ha⟩ := List.mem_map.mp hin
  exact hg a ha

/-- The kinds of a filter are registered once each, and a filter without fields once. -/
theorem count_lookupKeys (f : NostrFilter) :
    (∀ k, f.lookupKeys.count (.kind k) = if byKind k f then 1 else 0) ∧
    f.lookupKeys.count .other = if catchAll f then 1 else 0 := by
  unfold NostrFilter.lookupKeys byKind catchAll
  split
  · rename_i hids
    simp [hids, count_map_of_ne]
  · rename_i hids hauthors
    simp [hauthors, count_map_of_ne]
  · rename_i hids hauthors htags
    have htag : ∀ key, (∀ b, LookupKey.tag b ≠ key) → (f.tags.flatMap fun t =>
        t.2.elems.map fun val => LookupKey.tag (getTagSpec t.1 val)).count key = 0 := by
      intro key hkey
      refine List.count_eq_zero.mpr fun hin => ?_
      obtain ⟨t', -, hin⟩ := List.mem_flatMap.mp hin
      obtain ⟨val, -, hval⟩ := List.mem_map.mp hin
      exact hkey _ hval
    rw [← htags, htag .other (by simp)]
    refine ⟨fun k => ?_, by simp [htags]⟩
    rw [htag (.kind k) (by simp)]
    simp [htags]
  · rename_i kinds hids hauthors htags hkinds
    have hnodup : kinds.items.Nodup := kinds.sorted.imp Nat.ne_of_lt
    refine ⟨fun k => ?_, by simp [hkinds, count_map_of_ne]⟩
    rw [List.count_map_of_injective _ _ fun _ _ => LookupKey.kind.inj]
    by_cases hk : k ∈ kinds.items
    · simp [hids, hauthors, htags, hkinds, hk, List.count_eq_one_of_mem hnodup hk]
    · simp [hkinds, hk, List.count_eq_zero_of_not_mem hk]
  · rename_i hids hauthors htags hkinds
    simp [hids, hauthors, htags, hkinds]

/-- Keys and filters of a sort are as many, if each filter has one key when it is of the sort. -/
theorem weight_eq (am : ActiveMonitors) {key : LookupKey} {sort : NostrFilter → Bool}
    (h : ∀ f : NostrFilter, f.lookupKeys.count key = if sort f then 1 else 0) :
    weight am key = installedFilters am sort := by
  have hsub : ∀ filters : List NostrFilter,
      (filters.flatMap NostrFilter.lookupKeys).count key = filters.countP sort := by
    intro filters
    induction filters with
    | nil => rfl
    | cons f filters ih => rw [List.flatMap_cons, List.count_append, h, ih, List.countP_cons, Nat.add_comm]
  exact congrArg am.monitors.total (funext fun sub => hsub sub.filterGroup.filters)

/-- There is something for `untrack` to count down. -/
def Counted (t : EphemeralSubTracker) : LookupKey → Prop
  | .kind k => isEphemeralKind k = true → ∃ n, t.kindRefcounts.find? k = some n ∧ 0 < n
  | .other => 0 < t.catchAllCount
  | _ => True

theorem Counts.counted {t : EphemeralSubTracker} {c : LookupKey → Nat} (h : Counts t c) {key : LookupKey}
    (hc : 0 < c key) : Counted t key := by
  match key with
  | .kind k =>
    intro hk
    refine ⟨c (.kind k), ?_, hc⟩
    rw [h.kinds, if_neg]
    rw [hk]
    simp only [Bool.true_eq_false, false_or]
    exact Nat.ne_of_gt hc
  | .other =>
    show 0 < t.catchAllCount
    rw [h.catchAll]
    exact hc
  | .id _ => trivial
  | .author _ => trivial
  | .tag _ => trivial

/-- Every turn of uninstalling a monitor counts down what is there. -/
def Balanced (st : State) (m : Nat) (sub : Subscription) : Prop :=
  ∀ done r rest st', registrations m sub.filterGroup.filters = done ++ r :: rest →
    done.foldlM uninstallTurn st = .ok st' → Counted st'.2 r.1

theorem foldlM_uninstallTurn_tracker (l : List (LookupKey × FilterPtr)) {st st' : State}
    (h : l.foldlM uninstallTurn st = .ok st') : st'.2 = (l.map Prod.fst).foldl untrack st.2 := by
  induction l generalizing st with
  | nil =>
    cases h
    rfl
  | cons r l ih =>
    rw [List.foldlM_cons] at h
    obtain ⟨st1, h1, h⟩ := bind_eq_ok.mp h
    unfold uninstallTurn at h1
    obtain ⟨-, -, h1⟩ := bind_eq_ok.mp h1
    obtain ⟨am, -, h1⟩ := bind_eq_ok.mp h1
    cases h1
    exact ih h

theorem Counts.balanced {st : State} {b : LookupKey → Nat} {m : Nat} {sub : Subscription}
    (h : Counts st.2 fun k => b k + (keysOf sub).count k) : Balanced st m sub := by
  intro done r rest st' hsplit hdone
  rw [← map_fst_registrations m sub, hsplit, List.map_append, List.map_cons] at h
  have hrest : Counts st'.2 fun k => b k + (r.1 :: rest.map Prod.fst).count k := by
    rw [foldlM_uninstallTurn_tracker done hdone]
    refine Counts.foldl_untrack (done.map Prod.fst) (h.congr fun k => ?_)
    rw [List.count_append]
    omega
  refine hrest.counted ?_
  rw [List.count_cons_self]
  omega

/-- **The refcounts are exact** after any calls on any number of structures: each kind has an entry
if some installed filter is counted under it, with how many there are; and no turn of removing a
subscription or closing a connection counts down a missing entry or zero. -/
theorem refcounts_exact [Golpe] (cfg : Cfg) (n : Nat) (s : Shared n)
    (h : SharedReachable cfg (fun sub => sub.filterGroup.Built) s) :
    (∀ k, isEphemeralKind k = true → s.tracker.kindRefcounts.find? k =
      if ∑ i, installedFilters (s.ams i) (byKind k) = 0 then none
      else some (∑ i, installedFilters (s.ams i) (byKind k))) ∧
    s.tracker.catchAllCount = ∑ i, installedFilters (s.ams i) catchAll ∧
    (∀ i c subId m sub, (s.ams i).findMonitor c subId = some m → (s.ams i).deref m = .ok sub →
      Balanced (s.ams i, s.tracker) m sub) ∧
    (∀ i c connMonitors done e rest st sub, (s.ams i).conns.find? c = some connMonitors →
      connMonitors.entries = done ++ e :: rest → closeMonitors done (s.ams i, s.tracker) = .ok st →
      st.1.deref e.2 = .ok sub → Balanced st e.2 sub) := by
  have hinv := h.inv fun sub hb f hf => (hb.valid f hf).1
  have hsplit : ∀ i k, ∑ j, weight (s.ams j) k =
      (∑ j ∈ Finset.univ.erase i, weight (s.ams j) k) + weight (s.ams i) k := fun i k =>
    (Finset.sum_erase_add _ _ (Finset.mem_univ i)).symm
  refine ⟨fun k hk => ?_, ?_, fun i c subId m sub hfind hderef => ?_,
    fun i c connMonitors done e rest st sub hconn hentries hdone hderef => ?_⟩
  · rw [hinv.counts.kinds, hk]
    simp only [weight_eq _ fun f => (count_lookupKeys f).1 k, Bool.true_eq_false, false_or]
  · rw [hinv.counts.catchAll]
    simp only [weight_eq _ fun f => (count_lookupKeys f).2]
  · obtain ⟨sub', hsub, -⟩ := (hinv.inv i).found c subId m hfind
    unfold deref at hderef
    rw [hsub] at hderef
    cases hderef
    obtain ⟨others, hothers⟩ : ∃ others : LookupKey → Nat,
        ∀ k, weight (s.ams i) k = (keysOf sub).count k + others k := ⟨_, fun k => Assoc.total_erase hsub _⟩
    refine Counts.balanced (b := fun k => (∑ j ∈ Finset.univ.erase i, weight (s.ams j) k) + others k)
      (hinv.counts.congr fun k => ?_)
    rw [hsplit i k, hothers k]
    omega
  · have hent : monitorsOf (s.ams i) c = done ++ e :: rest := by
      unfold monitorsOf
      rw [hconn]
      exact hentries
    have hfound : ∀ e' ∈ done ++ e :: rest, ∃ sub, (s.ams i).monitors.find? e'.2 = some sub := by
      intro e' he'
      obtain ⟨sub', hsub', -⟩ := (hinv.inv i).found_monitorsOf (hent ▸ he')
      exact ⟨sub', hsub'⟩
    have hnd := (hinv.inv i).monitorsOf_nodup c
    rw [hent] at hnd
    -- the monitors before it, uninstalled
    obtain ⟨st1, hst1, hsame, htrack, -⟩ := @closeMonitors_ok (s.ams i, s.tracker) done
      (by rw [List.map_append] at hnd; exact (List.nodup_append.mp hnd).1) fun e' he' => by
        obtain ⟨sub', hsub'⟩ := hfound e' (List.mem_append_left _ he')
        exact ⟨sub', (hinv.inv i).toInstalled hsub'⟩
    rw [hst1] at hdone
    cases hdone
    have hsub : (s.ams i).monitors.find? e.2 = some sub := by
      unfold deref at hderef
      rw [hsame.2] at hderef
      split at hderef
      · cases hderef
      · rename_i hsub
        cases hderef
        exact hsub
    obtain ⟨others, hothers⟩ : ∃ others : LookupKey → Nat, ∀ k, weight (s.ams i) k =
        ((done.filterMap fun e => (s.ams i).monitors.find? e.2).map fun sub => (keysOf sub).count k).sum +
          ((keysOf sub).count k + others k) := by
      refine ⟨fun k => ((rest.filterMap fun e => (s.ams i).monitors.find? e.2).map
        fun sub => (keysOf sub).count k).sum +
          ((done ++ e :: rest).foldl (fun ms e => ms.erase e.2) (s.ams i).monitors).total
            fun sub => (keysOf sub).count k, fun k => ?_⟩
      unfold weight
      rw [total_foldl_erase (done ++ e :: rest) (s.ams i).monitors hnd hfound, List.filterMap_append,
        List.filterMap_cons, hsub, List.map_append, List.sum_append, List.map_cons, List.sum_cons, Nat.add_assoc,
        Nat.add_assoc]
    refine Counts.balanced (b := fun k => (∑ j ∈ Finset.univ.erase i, weight (s.ams j) k) + others k) ?_
    rw [htrack]
    show Counts ((done.filterMap fun e => (s.ams i).monitors.find? e.2).foldl untrackAll s.tracker) _
    refine Counts.foldl_untrackAll _ (hinv.counts.congr fun k => ?_)
    rw [hsplit i k, hothers k]
    omega

/-- `["REQ", "x", filter]`. -/
def reqOf (filter : List (Bytes × Json)) : Json :=
  .array [.string (ascii "REQ"), .string (ascii "x"), .object filter]

/-- A subscription that is up to date with an empty database. -/
def upToDate (fg : NostrFilterGroup) : Subscription :=
  { connId := 1, subId := .x, filterGroup := fg, latestEventId := 0 }

/-- The state of one structure after its first subscription. -/
theorem SharedReachable.first {cfg : Cfg} {P : Subscription → Prop} {sub : Subscription} (hP : P sub)
    {st : State} (hadd : addSub cfg ({}, {}) sub 0 7 = .ok (true, st)) :
    SharedReachable cfg P (n := 1) ⟨fun _ => st.1, fun _ => 0, st.2⟩ := by
  have hfresh : Fresh ({}, {}) sub 7 := by
    intro st' h
    cases h
    rfl
  have hstep := SharedReachable.step (n := 1) .init 0 st.1 st.2 0
    (.addSub sub 0 7 true hP hfresh hadd)
  have hupd : ∀ {α : Type} (f : Fin 1 → α) (a : α), Function.update f 0 a = fun _ => a := by
    intro α f a
    funext j
    rw [Subsingleton.elim j 0, Function.update_self]
  rwa [hupd, hupd] at hstep

/-- `{"kinds": [20000]}`, and the filter it compiles to. -/
def ephemeralReq : Json := reqOf [(ascii "kinds", .array [.unsigned 20000])]

def ephemeralFilter : NostrFilter :=
  { kinds := some (FilterSetUint.ofList [20000]), limit := 500, indexOnlyScans := true }

theorem refcounts_exact_one : ∃ st : State,
    addSub {} ({}, {}) (upToDate ⟨[ephemeralFilter]⟩) 0 7 = .ok (true, st) ∧
    st.2.kindRefcounts.find? 20000 = some 1 ∧ Balanced st 7 (upToDate ⟨[ephemeralFilter]⟩) := by
  let _ : Golpe := Golpe.plain
  have hreq : NostrFilterGroup.ofReq ephemeralReq 500 = .ok ⟨[ephemeralFilter]⟩ := rfl
  obtain ⟨st, hadd, hcount, hfind, hderef⟩ : ∃ st : State,
      addSub {} ({}, {}) (upToDate ⟨[ephemeralFilter]⟩) 0 7 = .ok (true, st) ∧
      installedFilters st.1 (byKind 20000) = 1 ∧
      st.1.findMonitor 1 (upToDate ⟨[]⟩).subId = some 7 ∧
      st.1.deref 7 = .ok (upToDate ⟨[ephemeralFilter]⟩) := ⟨_, rfl, rfl, rfl, rfl⟩
  have hreach := SharedReachable.first (P := fun sub => sub.filterGroup.Built) (.of_ofReq hreq) hadd
  obtain ⟨hkinds, -, hbalanced, -⟩ := refcounts_exact {} 1 _ hreach
  have hone := hkinds 20000 (by decide)
  simp only [hcount, Finset.univ_unique, Finset.sum_singleton] at hone
  exact ⟨st, hadd, hone, hbalanced 0 1 _ 7 _ hfind hderef⟩

/-! ## Ephemeral events with subscribers -/

/-- A filter the tracker is not told of matches no ephemeral event. -/
def Trackable (f : NostrFilter) : Prop :=
  (f.ids.isSome = true ∨ f.authors.isSome = true ∨ f.tags ≠ []) →
    ∀ ev : PackedEventView, isEphemeralKind ev.kind = true → f.doesMatch ev = false

/-- What holds of the subscriptions added holds of the installed ones, if it is about the filters. -/
theorem live_step {cfg : Cfg} {P : Subscription → Prop} {Q : NostrFilterGroup → Prop}
    (hP : ∀ sub, P sub → ∀ f ∈ sub.filterGroup.filters, f.Valid)
    (hQ : ∀ sub, P sub → Q sub.filterGroup) {s s' : State × Nat} (hinv : Inv s.1.1 s.2)
    (hs : Step cfg P s s') (h : ∀ m sub, s.1.1.monitors.find? m = some sub → Q sub.filterGroup) :
    ∀ m sub, s'.1.1.monitors.find? m = some sub → Q sub.filterGroup := by
  cases hs with
  | addSub sub currEventId m added hsub hm hadd =>
    obtain rfl := addSub_upToDate hadd
    obtain ⟨st1, added', st', hst', -, hrem, -, hyes, hno⟩ := hinv.addSub cfg sub m (hP sub hsub) hm
    rw [hst'] at hadd
    cases hadd
    have h1 : ∀ m sub, st1.1.monitors.find? m = some sub → Q sub.filterGroup := by
      intro m' sub' hs'
      rw [hrem.monitors] at hs'
      split at hs'
      · cases hs'
      · exact h m' sub' hs'
    intro m' sub' hs'
    cases added with
    | true =>
      rw [(hyes rfl).monitors] at hs'
      split at hs'
      · cases hs'
        exact hQ sub hsub
      · exact h1 m' sub' hs'
    | false =>
      rw [(hno rfl).1] at hs'
      exact h1 m' sub' hs'
  | removeSub connId subId hr =>
    obtain ⟨st', hst', -, hrem⟩ := hinv.removeSub connId subId
    rw [hst'] at hr
    cases hr
    intro m' sub' hs'
    rw [hrem.monitors] at hs'
    split at hs'
    · cases hs'
    · exact h m' sub' hs'
  | closeConn connId hc =>
    obtain ⟨st', hst', -, hcl⟩ := hinv.closeConn connId
    rw [hst'] at hc
    cases hc
    intro m' sub' hs'
    rw [hcl.monitors] at hs'
    split at hs'
    · cases hs'
    · exact h m' sub' hs'
  | process levId ev rs hlev hp =>
    obtain ⟨am', rs', hpr, hpass, -⟩ := hinv.process hlev ev
    rw [hpr] at hp
    cases hp
    intro m' sub' hs'
    rw [hpass.monitors] at hs'
    obtain ⟨sub0, hsub0, rfl⟩ := Option.map_eq_some_iff.mp hs'
    split
    · exact h m' sub0 hsub0
    · exact h m' sub0 hsub0
  | rehash hr =>
    intro m' sub' hs'
    rw [hr.monitors m'] at hs'
    exact h m' sub' hs'

theorem SharedReachable.live {cfg : Cfg} {P : Subscription → Prop} {Q : NostrFilterGroup → Prop}
    (hP : ∀ sub, P sub → ∀ f ∈ sub.filterGroup.filters, f.Valid)
    (hQ : ∀ sub, P sub → Q sub.filterGroup) {n : Nat} {s : Shared n} (h : SharedReachable cfg P s) :
    ∀ i m sub, (s.ams i).monitors.find? m = some sub → Q sub.filterGroup := by
  induction h with
  | init =>
    intro i m sub hm
    cases hm
  | @step s hr i am' tracker' last' hs ih =>
    intro j
    by_cases hj : j = i
    · subst hj
      have := live_step hP hQ (s := ((s.ams j, s.tracker), s.last j)) ((hr.inv hP).inv j) hs (ih j)
      simpa using this
    · simpa [Function.update_of_ne hj] using ih j

/-- A matching filter the tracker is told of is counted under the kind or as a catch-all. -/
theorem exists_counted {f : NostrFilter} {ev : PackedEventView} (hf : Trackable f)
    (hk : isEphemeralKind ev.kind = true) (hm : f.doesMatch ev = true) :
    LookupKey.kind ev.kind ∈ f.lookupKeys ∨ LookupKey.other ∈ f.lookupKeys := by
  have hno : ¬ (f.ids.isSome = true ∨ f.authors.isSome = true ∨ f.tags ≠ []) := by
    intro hfield
    rw [hf hfield ev hk] at hm
    cases hm
  simp only [not_or, Option.not_isSome_iff_eq_none, not_not] at hno
  obtain ⟨hids, ha, ht⟩ := hno
  unfold NostrFilter.lookupKeys
  rw [hids, ha, ht]
  cases hkinds : f.kinds with
  | none => exact Or.inr (by simp)
  | some kinds =>
    exact Or.inl (List.mem_map_of_mem (((f.doesMatch_iff ev).mp hm).kinds kinds hkinds))

theorem elim_eq_ok {α : Type} {e : Err} {o : Option α} {a : α} (h : o.elim (.error e) .ok = Except.ok a) :
    o = some a := by
  cases o with
  | none => cases h
  | some b =>
    cases h
    rfl

theorem noSubscribers_false {tracker : EphemeralSubTracker} {origJson : Json} {k : U64}
    (hk : origJson.atKey (ascii "kind") = .ok (.unsigned k))
    (h : tracker.hasSubscribersForKind k.val = true) : noSubscribers tracker origJson = .ok false := by
  have hfind : origJson.find (ascii "kind") = some (.unsigned k) := by
    unfold Json.atKey at hk
    unfold Json.find
    split at hk
    · exact elim_eq_ok hk
    · cases hk
  simp [noSubscribers, hfind, h]

/-- **No ephemeral event with a subscriber is dropped**, when only filters the tracker is told of
can match ephemeral events. -/
theorem hasSubscribersForKind_of_match [Golpe] [TaoJson] [Crypto] (cfg : Cfg) (n : Nat) (s : Shared n)
    (h : SharedReachable cfg
      (fun sub => sub.filterGroup.Built ∧ ∀ f ∈ sub.filterGroup.filters, Trackable f) s)
    (i : Fin n) (c : Nat) (subId : SubId) (sub : Subscription)
    (hsub : (s.ams i).installed c subId = some sub) (ev : PackedEventView)
    (hk : isEphemeralKind ev.kind = true) (hm : sub.filterGroup.doesMatch ev = true) :
    s.tracker.hasSubscribersForKind ev.kind = true ∧
    ∀ txn now origJson, nostrJsonToPackedEvent cfg origJson = .ok ev.buf →
      ingesterProcessEvent cfg txn s.tracker now origJson = ingesterVerifyEvent cfg txn now origJson := by
  have hinv := h.inv fun sub hb f hf => (hb.1.valid f hf).1
  have hlive := h.live (Q := fun fg => ∀ f ∈ fg.filters, Trackable f)
    (fun sub hb f hf => (hb.1.valid f hf).1) fun sub hb => hb.2
  obtain ⟨m, -, hmon⟩ := Option.bind_eq_some_iff.mp hsub
  obtain ⟨f, hf, hfm⟩ := (sub.filterGroup.doesMatch_iff ev).mp hm
  have hcount : ∀ key ∈ f.lookupKeys, 0 < ∑ j, weight (s.ams j) key := by
    intro key hkey
    have hmem : key ∈ keysOf sub := List.mem_flatMap.mpr ⟨f, hf, hkey⟩
    calc 0 < (keysOf sub).count key := List.count_pos_iff.mpr hmem
      _ ≤ weight (s.ams i) key := Assoc.le_total hmon fun sub => (keysOf sub).count key
      _ ≤ ∑ j, weight (s.ams j) key :=
        Finset.single_le_sum (f := fun j => weight (s.ams j) key) (fun _ _ => Nat.zero_le _)
          (Finset.mem_univ i)
  have hsubs : s.tracker.hasSubscribersForKind ev.kind = true := by
    unfold EphemeralSubTracker.hasSubscribersForKind
    rcases exists_counted (hlive i m sub hmon f hf) hk hfm with hkey | hkey
    · have hpos := hcount _ hkey
      rw [hinv.counts.kinds, if_neg (by simp only [hk, Bool.true_eq_false, false_or]; omega)]
      simp
    · have hpos := hcount _ hkey
      have hcatch := hinv.counts.catchAll
      have : s.tracker.catchAllCount > 0 := by rw [hcatch]; exact hpos
      simp [this]
  refine ⟨hsubs, fun txn now origJson hparse => ?_⟩
  obtain ⟨view, hview, -, -, k, hjson, hkind⟩ := nostrJsonToPackedEvent_spec cfg hparse
  rw [PackedEventView.ofBytes_self] at hview
  cases hview
  unfold ingesterProcessEvent
  rw [noSubscribers_false hjson (hkind ▸ hsubs)]
  rfl

theorem hasSubscribersForKind_of_match_kind : ∃ st : State,
    addSub {} ({}, {}) (upToDate ⟨[ephemeralFilter]⟩) 0 7 = .ok (true, st) ∧
    st.2.hasSubscribersForKind 20000 = true := by
  let _ : Golpe := Golpe.plain
  let _ : TaoJson := ⟨fun _ => none, fun _ => []⟩
  let _ : Crypto := ⟨fun _ => [], fun _ => false, fun _ _ _ => false⟩
  have hreq : NostrFilterGroup.ofReq ephemeralReq 500 = .ok ⟨[ephemeralFilter]⟩ := rfl
  obtain ⟨st, hadd, hinst⟩ : ∃ st : State,
      addSub {} ({}, {}) (upToDate ⟨[ephemeralFilter]⟩) 0 7 = .ok (true, st) ∧
      st.1.installed 1 (upToDate ⟨[]⟩).subId = some (upToDate ⟨[ephemeralFilter]⟩) := ⟨_, rfl, rfl⟩
  have htrack : ∀ f ∈ [ephemeralFilter], Trackable f := by
    intro f hf hfield
    rw [List.mem_singleton.mp hf] at hfield
    simp [ephemeralFilter] at hfield
  have hreach := SharedReachable.first (P := fun sub => sub.filterGroup.Built ∧
    ∀ f ∈ sub.filterGroup.filters, Trackable f) ⟨.of_ofReq hreq, htrack⟩ hadd
  have hkind : (sampleEvent 1 9 100 20000 []).kind = 20000 := by decide
  have h := (hasSubscribersForKind_of_match {} 1 _ hreach 0 1 _ _ hinst
    (sampleEvent 1 9 100 20000 []) (by decide) (by decide)).1
  rw [hkind] at h
  exact ⟨st, hadd, h⟩

/-- `{"authors": ["0909…09"]}`, and the filter it compiles to. -/
def authorReq : Json :=
  reqOf [(ascii "authors", .array [.string (toHex (List.replicate 32 9))])]

def authorFilter : NostrFilter where
  authors := some {
    items := FilterSetBytes.layout 0 [List.replicate 32 9]
    buf := List.replicate 32 9
    bounds := by decide
    first := by decide
    sorted := by decide }
  limit := 500
  indexOnlyScans := true

theorem authorsOnly_dropped : ∃ st : State,
    @SharedReachable {} (fun sub => @NostrFilterGroup.Built Golpe.plain sub.filterGroup) 1
      ⟨fun _ => st.1, fun _ => 0, st.2⟩ ∧
    st.1.installed 1 (upToDate ⟨[]⟩).subId = some (upToDate ⟨[authorFilter]⟩) ∧
    (upToDate ⟨[authorFilter]⟩).filterGroup.doesMatch (sampleEvent 1 9 100 20000 []) = true ∧
    isEphemeralKind (sampleEvent 1 9 100 20000 []).kind = true ∧
    st.2.hasSubscribersForKind (sampleEvent 1 9 100 20000 []).kind = false := by
  let _ : Golpe := Golpe.plain
  have hreq : NostrFilterGroup.ofReq authorReq 500 = .ok ⟨[authorFilter]⟩ := rfl
  obtain ⟨st, hadd, hinst, hno⟩ : ∃ st : State,
      addSub {} ({}, {}) (upToDate ⟨[authorFilter]⟩) 0 7 = .ok (true, st) ∧
      st.1.installed 1 (upToDate ⟨[]⟩).subId = some (upToDate ⟨[authorFilter]⟩) ∧
      st.2.hasSubscribersForKind 20000 = false := ⟨_, rfl, rfl, rfl⟩
  have hkind : (sampleEvent 1 9 100 20000 []).kind = 20000 := by decide
  exact ⟨st, .first (NostrFilterGroup.Built.of_ofReq hreq) hadd, hinst, by decide, by decide,
    by rw [hkind]; exact hno⟩

end ActiveMonitors

end Strfry
