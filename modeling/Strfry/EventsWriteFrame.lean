import Strfry.Store

/-!
# What a batch may touch

A batch takes a stored event out only for one of its written events, of the same author: a
version of the same address that supersedes it, or a deletion request that names it
(`Supplants`).  All other events stay as they are, and what is new are the written events
(`Touches`).

One turn touches no more than that, and two batches touch no more than both; the only fact
about the order of a batch that is used is that two copies of an event are next to each other,
so that the second one is a duplicate.
-/

namespace Strfry

/-- `w` may take `v` out of the store. -/
def Supplants (w v : PackedEventView) : Prop := (SameAddress w v ∧ supersedes w v = true) ∨ Names w v

theorem Supplants.pubkey {w v : PackedEventView} (h : Supplants w v) : w.pubkey = v.pubkey := by
  rcases h with ⟨⟨a, hw, hv⟩, -⟩ | ⟨-, hpk, -⟩
  · have hfst : ∀ {x : PackedEventView}, address x = some a → x.pubkey = a.1 := by
      intro x hx
      unfold address at hx
      split at hx
      · obtain ⟨d, -, rfl⟩ := Option.map_eq_some_iff.mp hx
        rfl
      · cases hx
    rw [hfst hw, hfst hv]
  · exact hpk

/-- What the events `evs` of a batch, with their final statuses, did to the store. -/
structure Touches (db db' : Db) (evs : List EventToWrite) : Prop where
  lastId : db.event.lastId ≤ db'.event.lastId
  removed : ∀ r ∈ db.event.rows, r ∉ db'.event.rows →
    ∃ ev ∈ evs, ev.status = .written ∧ ∃ w : PackedEventView,
      w.buf = ev.packedStr ∧ w.pubkey = r.2.pubkey ∧ Supplants w r.2
  kept : ∀ r ∈ db.event.rows, r ∈ db'.event.rows → ∀ p,
    (r.1, p) ∈ db'.eventPayload.rows ↔ (r.1, p) ∈ db.eventPayload.rows
  added : ∀ r ∈ db'.event.rows, r ∉ db.event.rows →
    ∃ ev ∈ evs, ev.status = .written ∧ r.1 = ev.levId ∧ r.2.buf = ev.packedStr
  payloads : ∀ x ∈ db'.eventPayload.rows, x ∉ db.eventPayload.rows →
    ∃ ev ∈ evs, ev.status = .written ∧ x = (ev.levId, 0 :: ev.jsonStr)
  written : ∀ ev ∈ evs, ev.status = .written → ∀ r ∈ db'.event.rows, r.2.buf = ev.packedStr →
    r.1 = ev.levId ∧ db.event.lastId < r.1 ∧ (r.1, 0 :: ev.jsonStr) ∈ db'.eventPayload.rows

/-! ## One turn -/

/-- Two batches of different events. -/
theorem Touches.append {db db1 db' : Db} {evs evs' : List EventToWrite} (h : Touches db db1 evs)
    (h' : Touches db1 db' evs') (hdiff : ∀ ev ∈ evs, ∀ ev' ∈ evs', ev'.status = .written →
      ev'.packedStr ≠ ev.packedStr) : Touches db db' (evs ++ evs') := by
  -- an old event that is there in the end was there all the time
  have hthere : ∀ r ∈ db.event.rows, r ∈ db'.event.rows → r ∈ db1.event.rows := by
    intro r hr hr'
    by_contra hgone
    obtain ⟨ev', hev', hw, hlev, hbuf⟩ := h'.added r hr' hgone
    have hlt := (h'.written ev' hev' hw r hr' hbuf).2.1
    have hle := db.event.le_lastId r hr
    have := h.lastId
    omega
  refine ⟨Nat.le_trans h.lastId h'.lastId, fun r hr hgone => ?_, fun r hr hr' p => ?_, fun r hr hnew => ?_,
    fun x hx hnew => ?_, fun ev hev hw r hr hbuf => ?_⟩
  · by_cases hr1 : r ∈ db1.event.rows
    · obtain ⟨ev, hev, hcause⟩ := h'.removed r hr1 hgone
      exact ⟨ev, List.mem_append_right _ hev, hcause⟩
    · obtain ⟨ev, hev, hcause⟩ := h.removed r hr hr1
      exact ⟨ev, List.mem_append_left _ hev, hcause⟩
  · have hr1 := hthere r hr hr'
    rw [h'.kept r hr1 hr', h.kept r hr hr1]
  · by_cases hr1 : r ∈ db1.event.rows
    · obtain ⟨ev, hev, hcause⟩ := h.added r hr1 hnew
      exact ⟨ev, List.mem_append_left _ hev, hcause⟩
    · obtain ⟨ev, hev, hcause⟩ := h'.added r hr hr1
      exact ⟨ev, List.mem_append_right _ hev, hcause⟩
  · by_cases hx1 : x ∈ db1.eventPayload.rows
    · obtain ⟨ev, hev, hcause⟩ := h.payloads x hx1 hnew
      exact ⟨ev, List.mem_append_left _ hev, hcause⟩
    · obtain ⟨ev, hev, hcause⟩ := h'.payloads x hx hx1
      exact ⟨ev, List.mem_append_right _ hev, hcause⟩
  · rcases List.mem_append.mp hev with hev | hev
    · have hr1 : r ∈ db1.event.rows := by
        by_contra hnew
        obtain ⟨ev', hev', hw', -, hbuf'⟩ := h'.added r hr hnew
        exact hdiff ev hev ev' hev' hw' (hbuf'.symm.trans hbuf)
      obtain ⟨hlev, hlt, hpayload⟩ := h.written ev hev hw r hr1 hbuf
      exact ⟨hlev, hlt, (h'.kept r hr1 hr _).mpr hpayload⟩
    · obtain ⟨hlev, hlt, hpayload⟩ := h'.written ev hev hw r hr hbuf
      exact ⟨hlev, Nat.lt_of_le_of_lt h.lastId hlt, hpayload⟩

/-! ## The loop -/

/-- What is written of an event. -/
def EventToWrite.content (ev : EventToWrite) : Bytes × Bytes := (ev.packedStr, ev.jsonStr)

theorem WriteOutcome.content {db db' : Db} {prevId : Option Bytes} {ev ev' : EventToWrite}
    {packed : PackedEventView} (ho : WriteOutcome db prevId ev packed db' ev') :
    ev'.content = ev.content := by
  cases ho with
  | duplicate _ => rfl
  | deleted _ _ => rfl
  | replaced _ _ _ => rfl
  | written _ _ _ _ _ => rfl

end Strfry
