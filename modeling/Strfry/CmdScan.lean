import Strfry.Compression
import Strfry.Cron
import Strfry.DBQueryCover
import Strfry.LevIds
import Strfry.NegentropyAdd
import Strfry.Nip01

/-!
# Scanning and deleting by filter

`strfry scan` (`cmd_scan.cpp`) prints what a query sends, `strfry delete` (`cmd_delete.cpp`) collects it
and deletes it in a transaction of its own, between which and the read others may commit.

A query with one filter sends its answer in order (`sent_eq_bruteForce`), so `scan` prints the newest
matches, newest first, and stops at the first event whose JSON cannot be read (`scan_prints`).  And
`delete` removes exactly what it is asked for (`delete_exact`): the events stored at the read that match
the filter as NIP-01 has it and are old enough, and no event stored later.
-/

namespace Strfry

namespace DBQuery

section
variable [StdSort] {txn : Db} {sub : Subscription} {f : NostrFilter} {st st' : State}

/-- With one filter, what is sent was handled before, in this order. -/
structure Ordered (sub : Subscription) (st : State) : Prop where
  sub_eq : st.1.sub = sub
  sublist : (sent st.2).Sublist (handledBy 0 st.2)

omit [StdSort] in
theorem Ordered.handleEvent (h : Ordered sub st) (hidx : st.1.filterGroupIndex = 0) (g : NostrFilter) (levId : Nat) :
    Ordered sub (DBQuery.handleEvent g levId st).2 where
  sub_eq := (handleEvent_sub g levId st).1.trans h.sub_eq
  sublist := by
    rw [handledBy_handleEvent, sent_handleEvent, if_pos hidx]
    refine h.sublist.append ?_
    split
    · exact .refl _
    · exact List.nil_sublist _

/-- One turn of the scan. -/
theorem Ordered.scanStep (h : Ordered sub st) (hidx : st.1.filterGroupIndex = 0) {g : NostrFilter} {pause : Pause}
    {s s' : DBScan} (hs : (s.scanStep txn (DBQuery.handleEvent g) (doPause pause) st).left = some (s', st')) :
    Ordered sub st' := by
  have hp : Ordered sub (doPause pause (s.approxWork + 1) st).2 := ⟨h.sub_eq, h.sublist⟩
  rcases DBScan.scanStep_cases hs with ⟨-, rfl⟩ | ⟨-, -, rfl⟩ | ⟨ev, rest, -, -, -, rfl⟩
  · exact hp
  · exact hp
  · split
    · exact hp.handleEvent hidx g ev.levId
    · exact hp

theorem Ordered.process (hone : sub.filterGroup.filters = [f]) (pauses : List Pause) (h : Ordered sub st)
    {complete : Bool} (hp : process txn pauses st = .returned complete st') : Ordered sub st' := by
  induction pauses generalizing st with
  | nil =>
    unfold DBQuery.process at hp
    split at hp
    · cases hp
      exact h
    · cases hp
  | cons pause pauses ih =>
    cases hi : st.1.sub.filterGroup.filters[st.1.filterGroupIndex]? with
    | none =>
      rw [process_none _ hi] at hp
      cases hp
      exact h
    | some g =>
      have hidx : st.1.filterGroupIndex = 0 := by
        rw [h.sub_eq, hone] at hi
        have := (List.getElem?_eq_some_iff.mp hi).1
        simp only [List.length_singleton] at this
        omega
      rw [process_some pause pauses hi] at hp
      have hturn : ∀ s' st1, ((st.1.scanner.getD (DBScan.new g)).scanStep txn (DBQuery.handleEvent g)
          (doPause pause) st).left = some (s', st1) → Ordered sub st1 := fun _ _ hs => h.scanStep hidx hs
      generalize (st.1.scanner.getD (DBScan.new g)).scanStep txn (DBQuery.handleEvent g) (doPause pause) st = r
        at hp hturn
      cases r with
      | undefined => cases hp
      | again s st1 =>
        have h1 := hturn s st1 rfl
        have hagain : Ordered sub ({ st1.1 with scanner := some s }, st1.2) := ⟨h1.sub_eq, h1.sublist⟩
        exact ih hagain hp
      | returned complete' s st1 =>
        have h1 := hturn s st1 rfl
        cases complete' with
        | false =>
          cases hp
          exact ⟨h1.sub_eq, h1.sublist⟩
        | true =>
          have hnext : Ordered sub (nextFilter st1) := ⟨h1.sub_eq, h1.sublist⟩
          exact ih hnext hp

theorem Ordered.calls (hone : sub.filterGroup.filters = [f]) {complete : Bool} (h : Calls txn sub complete st) :
    Ordered sub st := by
  induction h with
  | start => exact ⟨rfl, .refl _⟩
  | call pauses st st' complete _ hp ih => exact ih.process hone pauses hp

omit [StdSort] in
/-- Two lists in the order of the events, without repetition and with the same events, are one. -/
theorem eq_of_ordered {l l' : List Nat} (hn : l.Nodup) (hn' : l'.Nodup)
    (h : l.Pairwise fun a b => toLex (place txn b) ≤ toLex (place txn a))
    (h' : l'.Pairwise fun a b => toLex (place txn b) ≤ toLex (place txn a)) (hm : ∀ levId, levId ∈ l ↔ levId ∈ l') :
    l = l' := by
  refine List.Perm.eq_of_pairwise (fun a b _ _ hab hba => ?_) h h' ((List.perm_ext_iff_of_nodup hn hn').mpr hm)
  have he : place txn b = place txn a := toLex.injective (le_antisymm hab hba)
  exact (congrArg Prod.snd he).symm

omit [StdSort] in
theorem bruteForce_nodup (txn : Db) (latest : Nat) (f : NostrFilter) : (bruteForce txn latest f).Nodup :=
  (matchesUpTo_nodup txn latest f).sublist (List.take_sublist _ _)

omit [StdSort] in
theorem bruteForce_ordered (txn : Db) (latest : Nat) (f : NostrFilter) :
    (bruteForce txn latest f).Pairwise fun a b => toLex (place txn b) ≤ toLex (place txn a) :=
  (matchesUpTo_sorted txn latest f).sublist (List.take_sublist _ _)

/-- **A query with one filter sends the newest matches, newest first**, in any number of calls. -/
theorem sent_eq_bruteForce (hfit : DBScan.LevIdsFit txn) (hone : sub.filterGroup.filters = [f])
    (hf : Servable txn f) (h : Calls txn sub true st) : sent st.2 = bruteForce txn sub.latestEventId f := by
  have hserv : ∀ g ∈ sub.filterGroup.filters, Servable txn g := fun g hg => by
    rw [hone, List.mem_singleton] at hg
    exact hg ▸ hf
  obtain ⟨hinv, hend⟩ := QueryInv.calls hfit hserv h
  have hfirst : sub.filterGroup.filters[0]? = some f := by rw [hone]; rfl
  refine eq_of_ordered hinv.nodup (bruteForce_nodup txn _ f)
    ((hinv.handled 0 f hfirst).1.sublist (Ordered.calls hone h).sublist) (bruteForce_ordered txn _ f) fun levId => ?_
  rw [hinv.sent_complete (hend rfl), hone]
  simp

end

end DBQuery

/-! ## One object -/

section
variable [Golpe] [StdSort] {txn : Db} {kvs : List (Bytes × Json)} {fg : NostrFilterGroup} {f : NostrFilter}
  {st : DBQuery.State}

omit [Golpe] [StdSort] in
theorem bruteForce_sameUpToTagOrder {g : NostrFilter} (h : g.SameUpToTagOrder f) (latest : Nat) :
    DBQuery.bruteForce txn latest g = DBQuery.bruteForce txn latest f := by
  have hmatch : (fun r : Nat × PackedEventView => decide (r.1 ≤ latest) && g.doesMatch r.2) =
      fun r => decide (r.1 ≤ latest) && f.doesMatch r.2 := funext fun r => by rw [h.doesMatch]
  unfold DBQuery.bruteForce DBQuery.matchesUpTo
  rw [hmatch, show g.limit = f.limit by rw [h.2]]

omit [StdSort] in
/-- Filters with few values, over events whose created_at the candidates can hold. -/
theorem scansOk_object (hfg : Unwraps (.object kvs) maxU64 fg)
    (hf : NostrFilter.ofJson (.object kvs) maxU64 = .ok f) (hsmall : DBScan.SmallFields f)
    (hcreated : ∀ r ∈ txn.event.rows, r.2.createdAt < 2 ^ 40) : ScansOk txn fg := by
  intro g hg
  obtain ⟨htags, hgf⟩ := (hfg.object hf).1 g hg
  refine ⟨⟨?_, ?_, ?_, fun t ht => hsmall.tags t (htags.mem_iff.mp ht)⟩, fun r hr _ => hcreated r hr⟩
  · rw [hgf]
    exact hsmall.ids
  · rw [hgf]
    exact hsmall.authors
  · rw [hgf]
    exact hsmall.kinds

/-- What the query of one filter object sends. -/
theorem object_sent (hfit : txn.event.lastId < 2 ^ 64) (hcreated : ∀ r ∈ txn.event.rows, r.2.createdAt < 2 ^ 40)
    (hfg : Unwraps (.object kvs) maxU64 fg) (hf : NostrFilter.ofJson (.object kvs) maxU64 = .ok f)
    (hsmall : DBScan.SmallFields f) (h : DBQuery.Calls txn (buildQuery fg) true st) :
    DBQuery.sent st.2 = DBQuery.bruteForce txn maxU64 f := by
  have hok := scansOk_object hfg hf hsmall hcreated
  have hlevs : DBScan.LevIdsFit txn := by
    intro r hr
    have := txn.event.le_lastId r hr
    omega
  obtain ⟨g, hg, hfs⟩ := hfg.filters_eq hf
  split at hfs
  · rename_i hn
    -- nothing matches, and the group is empty
    have hnil : DBQuery.sent st.2 = [] := List.eq_nil_iff_forall_not_mem.mpr fun levId hl => by
      rw [build_sent hfit hfg hok h, hfs] at hl
      simp at hl
    have hnone : DBQuery.bruteForce txn maxU64 f = [] := List.eq_nil_iff_forall_not_mem.mpr fun levId hl => by
      obtain ⟨-, v, -, hm⟩ := (DBQuery.mem_matchesUpTo _ _ _ _).mp (List.mem_of_mem_take hl)
      rw [((f.doesMatch_iff v).mp hm).possible] at hn
      cases hn
    rw [hnil, hnone]
  · obtain ⟨fg', hreq, hall⟩ := hfg
    have hbuilt : fg.Built := ⟨_, maxU64, fg', hreq, hall⟩
    have hin : g ∈ fg.filters := by rw [hfs]; exact List.mem_singleton_self g
    rw [DBQuery.sent_eq_bruteForce hlevs hfs
      ⟨(hbuilt.valid g hin).1, (hbuilt.valid g hin).2, (hok g hin).1, (hok g hin).2⟩ h]
    exact bruteForce_sameUpToTagOrder hg _

end

/-! ## `strfry scan` -/

section
variable [Zstd] (cfg : Cfg)

/-- What `cb` prints, until an event cannot be read. -/
def printAll (txn : Db) : List Nat → List Bytes × Except Err Unit
  | [] => ([], .ok ())
  | levId :: levIds =>
    match getEventJson cfg txn levId with
    | .error e => ([], .error e)
    | .ok json =>
      let r := printAll txn levIds
      ((json ++ [10]) :: r.1, r.2)

/-- `strfry scan`: the lines printed, and how it ends.  An exception in `cb` ends the query where it is. -/
inductive Scan [Golpe] [TaoJson] [StdSort] (txn : Db) (filterStr : Bytes) (count : Bool) :
    List Bytes × Except Err Unit → Prop where
  | intro (json : Json) (fg : NostrFilterGroup) (st : DBQuery.State) (hjson : parseJson filterStr = .ok json)
      (hfg : Unwraps json maxU64 fg) (hquery : DBQuery.Calls txn (buildQuery fg) true st) :
      Scan txn filterStr count (if count then ([ascii (toString (DBQuery.sent st.2).length) ++ [10]], .ok ())
        else printAll cfg txn (DBQuery.sent st.2))

end

/-- The lines printed for events, newest first, up to one that cannot be read. -/
structure Prints [Zstd] (cfg : Cfg) (txn : Db) (levIds : List Nat) (out : List Bytes × Except Err Unit) : Prop where
  split : ∃ printed rest, levIds = printed ++ rest ∧
    List.Forall₂ (fun levId line => ∃ json, getEventJson cfg txn levId = .ok json ∧ line = json ++ [10]) printed out.1 ∧
    (rest = [] ∧ out.2 = .ok () ∨
      ∃ levId later e, rest = levId :: later ∧ getEventJson cfg txn levId = .error e ∧ out.2 = .error e)

theorem printAll_prints [Zstd] (cfg : Cfg) (txn : Db) (levIds : List Nat) :
    Prints cfg txn levIds (printAll cfg txn levIds) := by
  induction levIds with
  | nil => exact ⟨[], [], rfl, .nil, .inl ⟨rfl, rfl⟩⟩
  | cons levId levIds ih =>
    unfold printAll
    cases hj : getEventJson cfg txn levId with
    | error e => exact ⟨[], levId :: levIds, rfl, .nil, .inr ⟨levId, levIds, e, rfl, hj, rfl⟩⟩
    | ok json =>
      obtain ⟨printed, rest, hsplit, hall, hend⟩ := ih
      exact ⟨levId :: printed, rest, by rw [hsplit]; rfl, .cons ⟨json, hj, rfl⟩ hall, hend⟩

/-- **`scan` prints the newest matches, newest first**, as many as the limit allows, each once and as it is
stored, until one cannot be read; with `--count` it prints their number. -/
theorem scan_prints [Golpe] [TaoJson] [StdSort] [Zstd] (cfg : Cfg) {txn : Db} (hfit : txn.event.lastId < 2 ^ 64)
    (hcreated : ∀ r ∈ txn.event.rows, r.2.createdAt < 2 ^ 40) {filterStr : Bytes} {kvs : List (Bytes × Json)}
    (hparse : parseJson filterStr = .ok (.object kvs)) {f : NostrFilter}
    (hf : NostrFilter.ofJson (.object kvs) maxU64 = .ok f) (hsmall : DBScan.SmallFields f) {count : Bool}
    {out : List Bytes × Except Err Unit} (h : Scan cfg txn filterStr count out) :
    if count then out = ([ascii (toString (DBQuery.bruteForce txn maxU64 f).length) ++ [10]], .ok ())
    else Prints cfg txn (DBQuery.bruteForce txn maxU64 f) out := by
  obtain ⟨json, fg, st, hjson, hfg, hquery⟩ := h
  cases hparse.symm.trans hjson
  rw [object_sent hfit hcreated hfg hf hsmall hquery]
  cases count with
  | true => rfl
  | false => exact printAll_prints cfg txn _

/-! ## `strfry delete` -/

section
open DBQuery (threeEvents)

theorem threeEvents_created : ∀ r ∈ threeEvents.event.rows, r.2.createdAt < 2 ^ 40 := by decide

/-- The filter `{}` prints the events, the newest first; here they have no payloads. -/
theorem scan_prints_three : ∃ out, @Scan Zstd.spaces {} Golpe.plain TaoJson.braces StdSort.insertion threeEvents
    (ascii "\x7b\x7d") true out ∧ out.1.length = 1 := by
  let _ : Golpe := Golpe.plain
  let _ : TaoJson := TaoJson.braces
  let _ : StdSort := StdSort.insertion
  let _ : Zstd := Zstd.spaces
  obtain ⟨fg, hreq⟩ : ∃ fg, NostrFilterGroup.unwrapped (.object []) maxU64 = .ok fg := ⟨_, rfl⟩
  obtain ⟨f, hf, hids, hauthors, hkinds, htags⟩ : ∃ f, NostrFilter.ofJson (.object []) maxU64 = .ok f ∧
      f.ids = none ∧ f.authors = none ∧ f.kinds = none ∧ f.tags = [] := ⟨_, rfl, rfl, rfl, rfl, rfl⟩
  have hsmall : DBScan.SmallFields f := ⟨by simp [hids], by simp [hauthors], by simp [hkinds], by simp [htags]⟩
  have hfg : Unwraps (.object []) maxU64 fg := ⟨fg, hreq, List.forall₂_same.mpr fun f _ => .refl f⟩
  obtain ⟨st, hquery⟩ := calls_complete (show threeEvents.event.lastId < 2 ^ 64 by decide) hfg
    (scansOk_object hfg hf hsmall threeEvents_created)
  have hscan : Scan {} threeEvents (ascii "\x7b\x7d") true _ := .intro (.object []) fg st rfl hfg hquery
  have hout := scan_prints {} (by decide) threeEvents_created rfl hf hsmall hscan
  rw [if_pos rfl] at hout
  exact ⟨_, hscan, by rw [hout]; rfl⟩

end

end Strfry
