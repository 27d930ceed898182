import Strfry.CmdSync
import Mathlib.Data.List.Perm.Basic

/-!
# What a sync transfers

Read off the log of a run of `strfry sync`: the ids reported, requested, uploaded or found
missing, and whether a request is outstanding.

* `Ledger`: in each direction an id seen is either still in its vector or gone from it,
  never twice.
* `Spaced`: a `REQ` is sent only when none is outstanding, with 1 to 50 ids.
* `Flow`: the upload counter is what was uploaded less the `OK`s, as long as each `OK`
  answers an upload (`Answering`).  One that does not makes the counter wrap.
-/

namespace Strfry

namespace CmdSync

/-! ## Reading the log -/

def Item.needs : Item → List Bytes
  | .reconciled _ currNeed => currNeed
  | _ => []

def Item.haves : Item → List Bytes
  | .reconciled currHave _ => currHave
  | _ => []

def Item.requestedIds : Item → List Bytes
  | .requested ids => ids
  | _ => []

def Item.uploadedIds : Item → List Bytes
  | .uploaded id _ => [id]
  | _ => []

/-- The ids taken off `haves`, uploaded or not found. -/
def Item.triedIds : Item → List Bytes
  | .uploaded id _ => [id]
  | .notFound id => [id]
  | _ => []

def Item.isAnswer : Item → Bool
  | .ok => true
  | _ => false

/-- Whether a request is outstanding after the items, when `b` says whether one was before. -/
def awaiting : Bool → List Item → Bool
  | b, [] => b
  | _, .requested _ :: l => awaiting true l
  | _, .eose :: l => awaiting false l
  | b, _ :: l => awaiting b l

/-- Requests are sent when none is outstanding, each for 1 to 50 ids. -/
def Spaced : Bool → List Item → Prop
  | _, [] => True
  | b, .requested ids :: l => b = false ∧ ids ≠ [] ∧ ids.length ≤ batchSizeDown ∧ Spaced true l
  | _, .eose :: l => Spaced false l
  | b, _ :: l => Spaced b l

theorem awaiting_append (l l' : List Item) (b : Bool) :
    awaiting b (l ++ l') = awaiting (awaiting b l) l' := by
  induction l generalizing b with
  | nil => rfl
  | cons i l ih => cases i <;> exact ih _

theorem spaced_append (l l' : List Item) (b : Bool) :
    Spaced b (l ++ l') ↔ Spaced b l ∧ Spaced (awaiting b l) l' := by
  induction l generalizing b with
  | nil => simp [Spaced, awaiting]
  | cons i l ih =>
    cases i with
    | requested ids =>
      simp only [List.cons_append, Spaced, awaiting, ih]
      tauto
    | eose => exact ih false
    | _ => exact ih b

/-- Items that neither request nor end a request. -/
def Item.quiet : Item → Bool
  | .requested _ => false
  | .eose => false
  | _ => true

theorem awaiting_quiet {l : List Item} (h : ∀ i ∈ l, i.quiet = true) (b : Bool) :
    awaiting b l = b ∧ Spaced b l := by
  induction l with
  | nil => exact ⟨rfl, trivial⟩
  | cons i l ih =>
    have hi := h i List.mem_cons_self
    have ih := ih fun j hj => h j (List.mem_cons_of_mem _ hj)
    cases i with
    | requested ids => cases hi
    | eose => cases hi
    | _ => exact ih

/-- Between two requests one ended. -/
theorem Spaced.eose_mem {l m : List Item} {ids : List Bytes} (h : Spaced true (l ++ .requested ids :: m)) :
    .eose ∈ l := by
  induction l with
  | nil => exact absurd h.1 (by decide)
  | cons i l ih =>
    cases i with
    | requested ids' => exact absurd h.1 (by decide)
    | eose => exact List.mem_cons_self
    | _ => exact List.mem_cons_of_mem _ (ih h)

/-! ## The ledger of a direction -/

/-- `left` is still in the vector, `gone` has left it. -/
structure Ledger (seen left gone : List Bytes) : Prop where
  mem : ∀ id, id ∈ seen ↔ id ∈ left ∨ id ∈ gone
  nodup : (left ++ gone).Nodup

/-- What the loop over reported ids adds. -/
theorem pushNew_ok {vec seen ids vec' seen' : List Bytes} (h : pushNew vec seen ids = .ok (vec', seen')) :
    ∃ new, vec' = new ++ vec ∧ seen' = new ++ seen ∧ new.Nodup ∧ (∀ x ∈ new, x ∉ seen) ∧
      ∀ x, x ∈ seen' ↔ x ∈ seen ∨ x ∈ ids := by
  induction ids generalizing vec seen with
  | nil =>
    cases h
    exact ⟨[], rfl, rfl, List.nodup_nil, by simp, by simp⟩
  | cons id ids ih =>
    unfold pushNew at h
    split at h
    · cases h
    · split at h
      · rename_i hid
        obtain ⟨new, hvec, hseen, hnd, hfresh, hmem⟩ := ih h
        refine ⟨new, hvec, hseen, hnd, hfresh, fun x => ?_⟩
        rw [hmem, List.mem_cons]
        constructor
        · rintro (hx | hx)
          · exact Or.inl hx
          · exact Or.inr (Or.inr hx)
        · rintro (hx | rfl | hx)
          · exact Or.inl hx
          · exact Or.inl hid
          · exact Or.inr hx
      · rename_i hid
        obtain ⟨new, rfl, rfl, hnd, hfresh, hmem⟩ := ih h
        refine ⟨new ++ [id], by simp, by simp, ?_, ?_, fun x => ?_⟩
        · refine List.nodup_append.mpr ⟨hnd, by simp, fun a ha b hb => ?_⟩
          rw [List.mem_singleton] at hb
          subst hb
          intro hab
          subst hab
          exact hfresh a ha List.mem_cons_self
        · intro x hx
          rcases List.mem_append.mp hx with hx | hx
          · exact fun hs => hfresh x hx (List.mem_cons_of_mem _ hs)
          · rw [List.mem_singleton] at hx
            rwa [hx]
        · rw [hmem, List.mem_cons, List.mem_cons]
          tauto

namespace Ledger

variable {seen left gone : List Bytes}

theorem push (h : Ledger seen left gone) {ids left' seen' : List Bytes}
    (hp : pushNew left seen ids = .ok (left', seen')) : Ledger seen' left' gone := by
  obtain ⟨new, rfl, rfl, hnd, hfresh, -⟩ := pushNew_ok hp
  constructor
  · intro id
    rw [List.mem_append, List.mem_append, h.mem, or_assoc]
  · rw [List.append_assoc]
    refine List.nodup_append.mpr ⟨hnd, h.nodup, fun a ha b hb => ?_⟩
    rintro rfl
    exact hfresh a ha ((h.mem a).mpr (List.mem_append.mp hb))

/-- Taking ids off the back. -/
theorem take {a b : List Bytes} (h : Ledger seen (a ++ b) gone) : Ledger seen b (gone ++ a) := by
  constructor
  · intro id
    rw [h.mem, List.mem_append, List.mem_append]
    tauto
  · have hperm : (b ++ (gone ++ a)).Perm ((a ++ b) ++ gone) := by
      rw [← List.append_assoc, List.append_assoc a]
      exact List.perm_append_comm
    exact hperm.nodup_iff.mpr h.nodup

end Ledger

/-! ## The uploads -/

/-- The loop takes ids off the front of the list, one item for each, and counts what it sends. -/
theorem uploadLoop_spec (w : World) (haves : List Bytes) (n : Nat) :
    haves = (uploadLoop w haves n).2.2.flatMap Item.triedIds ++ (uploadLoop w haves n).1 ∧
      (uploadLoop w haves n).2.1 = n + ((uploadLoop w haves n).2.2.flatMap Item.uploadedIds).length ∧
      (n ≤ highWaterUp → (uploadLoop w haves n).2.1 ≤ highWaterUp) ∧
      ∀ i ∈ (uploadLoop w haves n).2.2, (∃ id json, i = .uploaded id json) ∨ ∃ id, i = .notFound id := by
  induction haves generalizing n with
  | nil => exact ⟨rfl, rfl, id, by simp [uploadLoop]⟩
  | cons id haves ih =>
    unfold uploadLoop
    by_cases hn : n < highWaterUp
    · rw [if_pos hn]
      cases hl : w.lookupEventById id with
      | none =>
        obtain ⟨hids, hcount, hhigh, hitems⟩ := ih n
        refine ⟨congrArg (id :: ·) hids, hcount, hhigh, fun i hi => ?_⟩
        rcases List.mem_cons.mp hi with rfl | hi
        · exact Or.inr ⟨id, rfl⟩
        · exact hitems i hi
      | some json =>
        obtain ⟨hids, hcount, hhigh, hitems⟩ := ih (n + 1)
        refine ⟨congrArg (id :: ·) hids, ?_, fun _ => hhigh hn, fun i hi => ?_⟩
        · show (uploadLoop w haves (n + 1)).2.1 =
            n + (id :: (uploadLoop w haves (n + 1)).2.2.flatMap Item.uploadedIds).length
          rw [hcount, List.length_cons]
          omega
        · rcases List.mem_cons.mp hi with rfl | hi
          · exact Or.inl ⟨id, json, rfl⟩
          · exact hitems i hi
    · rw [if_neg hn]
      exact ⟨rfl, rfl, fun h => h, by simp⟩

/-! ## The invariant of the transfers -/

structure Inv (p : Params) (s : State) : Prop where
  needs : p.doDown = true → Ledger s.seenNeed s.needs (s.log.flatMap Item.requestedIds)
  haves : p.doUp = true → Ledger s.seenHave s.haves (s.log.flatMap Item.triedIds)
  reported : s.exited ≠ some 1 → (∀ id, id ∈ s.seenNeed ↔ id ∈ s.log.flatMap Item.needs) ∧
    ∀ id, id ∈ s.seenHave ↔ id ∈ s.log.flatMap Item.haves
  spaced : Spaced false s.log
  waiting : awaiting false s.log = s.inFlightDown
  done : s.syncDone = true → .negClose ∈ s.log
  exit : s.exited = some 0 → s.syncDone = true ∧ s.haves = [] ∧ s.needs = []

/-- Items that the ledgers, the spacing and the reports do not see. -/
def Item.unseen : Item → Bool
  | .negMsg _ => true
  | .negClose => true
  | .ok => true
  | .write _ => true
  | .flush => true
  | _ => false

theorem mem_flush {p : Params} {i : Item} (h : i ∈ if p.doDown then [Item.flush] else []) : i = .flush := by
  split at h
  · exact List.mem_singleton.mp h
  · cases h

theorem flatMap_append_nil {f : Item → List Bytes} {log items : List Item} (h : items.flatMap f = []) :
    (log ++ items).flatMap f = log.flatMap f := by
  rw [List.flatMap_append, h, List.append_nil]

theorem unseen_flatMap {f : Item → List Bytes} (hf : ∀ i, i.unseen = true → f i = []) {l : List Item}
    (h : ∀ i ∈ l, i.unseen = true) : l.flatMap f = [] :=
  List.flatMap_eq_nil_iff.mpr fun i hi => hf i (h i hi)

namespace Inv

variable {p : Params} {s : State}

theorem init : Inv p {} where
  needs _ := ⟨by simp, by simp⟩
  haves _ := ⟨by simp, by simp⟩
  reported _ := ⟨by simp, by simp⟩
  spaced := trivial
  waiting := rfl
  done := by simp
  exit := by simp

/-- Noting unseen items changes nothing. -/
theorem note (h : Inv p s) {items : List Item} (hu : ∀ i ∈ items, i.unseen = true) : Inv p (s.note items) := by
  have hq : ∀ i ∈ items, i.quiet = true := by
    intro i hi
    have := hu i hi
    cases i <;> first | rfl | cases this
  have hnil : ∀ f : Item → List Bytes, (∀ i, i.unseen = true → f i = []) →
      (s.log ++ items).flatMap f = s.log.flatMap f :=
    fun f hf => flatMap_append_nil (unseen_flatMap hf hu)
  have hreq := hnil Item.requestedIds (by intro i hi; cases i <;> first | rfl | cases hi)
  have htried := hnil Item.triedIds (by intro i hi; cases i <;> first | rfl | cases hi)
  have hneeds := hnil Item.needs (by intro i hi; cases i <;> first | rfl | cases hi)
  have hhaves := hnil Item.haves (by intro i hi; cases i <;> first | rfl | cases hi)
  obtain ⟨hwait, hspaced⟩ := awaiting_quiet hq (awaiting false s.log)
  constructor
  · intro hd
    show Ledger s.seenNeed s.needs ((s.log ++ items).flatMap Item.requestedIds)
    rw [hreq]
    exact h.needs hd
  · intro hd
    show Ledger s.seenHave s.haves ((s.log ++ items).flatMap Item.triedIds)
    rw [htried]
    exact h.haves hd
  · intro he
    show (∀ id, id ∈ s.seenNeed ↔ id ∈ (s.log ++ items).flatMap Item.needs) ∧
      ∀ id, id ∈ s.seenHave ↔ id ∈ (s.log ++ items).flatMap Item.haves
    rw [hneeds, hhaves]
    exact h.reported he
  · exact (spaced_append _ _ _).mpr ⟨h.spaced, hspaced⟩
  · show awaiting false (s.log ++ items) = s.inFlightDown
    rw [awaiting_append, hwait, h.waiting]
  · intro hd
    exact List.mem_append_left _ (h.done hd)
  · exact h.exit

theorem flush (h : Inv p s) : Inv p (s.note (if p.doDown then [.flush] else [])) := by
  refine h.note fun i hi => ?_
  rw [mem_flush hi]
  rfl

/-- Exiting with an error forgets only what was not taken over. -/
theorem failed (h : Inv p s) {items : List Item} (hi : ∀ i ∈ items, ∃ a b, i = .reconciled a b) :
    Inv p ((s.note items).doExit p 1) := by
  have hq : ∀ i ∈ items, i.quiet = true := by
    intro i hm
    obtain ⟨a, b, rfl⟩ := hi i hm
    rfl
  have hnil : ∀ f : Item → List Bytes, (∀ a b, f (.reconciled a b) = []) → items.flatMap f = [] := by
    intro f hf
    refine List.flatMap_eq_nil_iff.mpr fun i hm => ?_
    obtain ⟨a, b, rfl⟩ := hi i hm
    exact hf a b
  obtain ⟨hwait, hspaced⟩ := awaiting_quiet hq (awaiting false s.log)
  have hmid : Inv p { s.note items with exited := some 1 } := by
    constructor
    · intro hd
      show Ledger s.seenNeed s.needs ((s.log ++ items).flatMap Item.requestedIds)
      rw [flatMap_append_nil (hnil Item.requestedIds fun _ _ => rfl)]
      exact h.needs hd
    · intro hd
      show Ledger s.seenHave s.haves ((s.log ++ items).flatMap Item.triedIds)
      rw [flatMap_append_nil (hnil Item.triedIds fun _ _ => rfl)]
      exact h.haves hd
    · intro he
      exact absurd rfl he
    · exact (spaced_append _ _ _).mpr ⟨h.spaced, hspaced⟩
    · show awaiting false (s.log ++ items) = s.inFlightDown
      rw [awaiting_append, hwait, h.waiting]
    · intro hd
      exact List.mem_append_left _ (h.done hd)
    · intro he
      cases he
  exact hmid.flush

/-- A message keeps the invariant. -/
theorem handled (h : Inv p s) (hlive : s.exited = none) {isOk : Bool} {s' : State} (hs : Handled p s isOk s') :
    Inv p s' := by
  cases hs with
  | ignored => exact h
  | failed items hi => exact h.failed hi
  | ok =>
    have hok : Inv p { s with inFlightUp := subU64 s.inFlightUp 1 } :=
      ⟨h.needs, h.haves, h.reported, h.spaced, h.waiting, h.done, h.exit⟩
    refine hok.note ?_
    intro i hi
    rw [List.mem_singleton] at hi
    rw [hi]
    rfl
  | wrote evJson =>
    refine h.note ?_
    intro i hi
    rw [List.mem_singleton] at hi
    rw [hi]
    rfl
  | eose =>
    constructor
    · intro hd
      show Ledger s.seenNeed s.needs ((s.log ++ [Item.eose]).flatMap Item.requestedIds)
      rw [flatMap_append_nil rfl]
      exact h.needs hd
    · intro hd
      show Ledger s.seenHave s.haves ((s.log ++ [Item.eose]).flatMap Item.triedIds)
      rw [flatMap_append_nil rfl]
      exact h.haves hd
    · intro he
      show (∀ id, id ∈ s.seenNeed ↔ id ∈ (s.log ++ [Item.eose]).flatMap Item.needs) ∧
        ∀ id, id ∈ s.seenHave ↔ id ∈ (s.log ++ [Item.eose]).flatMap Item.haves
      rw [flatMap_append_nil rfl, flatMap_append_nil rfl]
      exact h.reported he
    · exact (spaced_append _ _ _).mpr ⟨h.spaced, trivial⟩
    · show awaiting false (s.log ++ [Item.eose]) = false
      rw [awaiting_append]
      rfl
    · intro hd
      exact List.mem_append_left _ (h.done hd)
    · exact h.exit
  | reconciled currHave currNeed haves seenHave needs seenNeed neMsg hhave hneed =>
    have hq : ∀ i ∈ [Item.reconciled currHave currNeed, neMsg.elim .negClose .negMsg], i.quiet = true := by
      cases neMsg <;> simp [Item.quiet]
    obtain ⟨hwait, hspaced⟩ := awaiting_quiet hq (awaiting false s.log)
    have htail : ∀ f : Item → List Bytes, (∀ i, i.unseen = true → f i = []) →
        (s.log ++ [Item.reconciled currHave currNeed, neMsg.elim Item.negClose Item.negMsg]).flatMap f =
          s.log.flatMap f ++ f (.reconciled currHave currNeed) := by
      intro f hf
      have hlast : f (neMsg.elim .negClose .negMsg) = [] := hf _ (by cases neMsg <;> rfl)
      simp [hlast]
    constructor
    · intro hd
      show Ledger seenNeed (if p.doDown then needs else []) (List.flatMap Item.requestedIds _)
      rw [htail Item.requestedIds (by intro i hi; cases i <;> first | rfl | cases hi), if_pos hd]
      exact (List.append_nil _).symm ▸ (h.needs hd).push hneed
    · intro hu
      show Ledger seenHave (if p.doUp then haves else []) (List.flatMap Item.triedIds _)
      rw [htail Item.triedIds (by intro i hi; cases i <;> first | rfl | cases hi), if_pos hu]
      exact (List.append_nil _).symm ▸ (h.haves hu).push hhave
    · intro he
      obtain ⟨hrn, hrh⟩ := h.reported he
      obtain ⟨-, -, -, -, -, hn⟩ := pushNew_ok hneed
      obtain ⟨-, -, -, -, -, hh⟩ := pushNew_ok hhave
      refine ⟨fun id => ?_, fun id => ?_⟩
      · show id ∈ seenNeed ↔ id ∈ List.flatMap Item.needs _
        rw [htail Item.needs (by intro i hi; cases i <;> first | rfl | cases hi), hn, hrn, List.mem_append]
        rfl
      · show id ∈ seenHave ↔ id ∈ List.flatMap Item.haves _
        rw [htail Item.haves (by intro i hi; cases i <;> first | rfl | cases hi), hh, hrh, List.mem_append]
        rfl
    · exact (spaced_append _ _ _).mpr ⟨h.spaced, hspaced⟩
    · show awaiting false (s.log ++ _) = s.inFlightDown
      rw [awaiting_append, hwait, h.waiting]
    · intro hd
      rcases Bool.or_eq_true_iff.mp hd with hd | hd
      · exact List.mem_append_left _ (h.done hd)
      · obtain rfl := Option.isNone_iff_eq_none.mp hd
        exact List.mem_append_right _ (by simp)
    · intro he
      exact absurd (hlive.symm.trans he) (by simp)

theorem upload (h : Inv p s) (w : World) (hlive : s.exited = none) :
    Inv p (upload p w s) ∧ (CmdSync.upload p w s).exited = none := by
  unfold CmdSync.upload
  split
  · obtain ⟨hids, -, -, hitems⟩ := uploadLoop_spec w s.haves s.inFlightUp
    generalize uploadLoop w s.haves s.inFlightUp = r at hids hitems
    have hq : ∀ i ∈ r.2.2, i.quiet = true := by
      intro i hi
      rcases hitems i hi with ⟨id, json, rfl⟩ | ⟨id, rfl⟩ <;> rfl
    have hnil : ∀ f : Item → List Bytes, (∀ id json, f (.uploaded id json) = []) → (∀ id, f (.notFound id) = []) →
        r.2.2.flatMap f = [] := by
      intro f h1 h2
      refine List.flatMap_eq_nil_iff.mpr fun i hi => ?_
      rcases hitems i hi with ⟨id, json, rfl⟩ | ⟨id, rfl⟩
      · exact h1 id json
      · exact h2 id
    obtain ⟨hwait, hspaced⟩ := awaiting_quiet hq (awaiting false s.log)
    refine ⟨?_, hlive⟩
    constructor
    · intro hd
      show Ledger s.seenNeed s.needs ((s.log ++ r.2.2).flatMap Item.requestedIds)
      rw [flatMap_append_nil (hnil Item.requestedIds (fun _ _ => rfl) fun _ => rfl)]
      exact h.needs hd
    · intro hd
      show Ledger s.seenHave r.1 ((s.log ++ r.2.2).flatMap Item.triedIds)
      rw [List.flatMap_append]
      have hl := h.haves hd
      rw [hids] at hl
      exact hl.take
    · intro he
      show (∀ id, id ∈ s.seenNeed ↔ id ∈ (s.log ++ r.2.2).flatMap Item.needs) ∧
        ∀ id, id ∈ s.seenHave ↔ id ∈ (s.log ++ r.2.2).flatMap Item.haves
      rw [flatMap_append_nil (hnil Item.needs (fun _ _ => rfl) fun _ => rfl),
        flatMap_append_nil (hnil Item.haves (fun _ _ => rfl) fun _ => rfl)]
      exact h.reported he
    · exact (spaced_append _ _ _).mpr ⟨h.spaced, hspaced⟩
    · show awaiting false (s.log ++ r.2.2) = s.inFlightDown
      rw [awaiting_append, hwait, h.waiting]
    · intro hd
      exact List.mem_append_left _ (h.done hd)
    · intro he
      exact absurd (hlive.symm.trans he) (by simp)
  · exact ⟨h, hlive⟩

theorem download (h : Inv p s) (hlive : s.exited = none) :
    Inv p (download p s) ∧ (CmdSync.download p s).exited = none := by
  unfold CmdSync.download
  split
  · rename_i hc
    obtain ⟨-, hne, hidle⟩ := hc
    refine ⟨?_, hlive⟩
    constructor
    · intro hd
      show Ledger s.seenNeed (s.needs.drop batchSizeDown)
        ((s.log ++ [Item.requested (s.needs.take batchSizeDown)]).flatMap Item.requestedIds)
      rw [List.flatMap_append, List.flatMap_singleton]
      have hl := h.needs hd
      rw [← List.take_append_drop batchSizeDown s.needs] at hl
      exact hl.take
    · intro hd
      show Ledger s.seenHave s.haves
        ((s.log ++ [Item.requested (s.needs.take batchSizeDown)]).flatMap Item.triedIds)
      rw [flatMap_append_nil rfl]
      exact h.haves hd
    · intro he
      show (∀ id, id ∈ s.seenNeed ↔
          id ∈ (s.log ++ [Item.requested (s.needs.take batchSizeDown)]).flatMap Item.needs) ∧
        ∀ id, id ∈ s.seenHave ↔ id ∈ (s.log ++ [Item.requested (s.needs.take batchSizeDown)]).flatMap Item.haves
      rw [flatMap_append_nil rfl, flatMap_append_nil rfl]
      exact h.reported he
    · refine (spaced_append _ _ _).mpr ⟨h.spaced, h.waiting.trans hidle, ?_, List.length_take_le _ _, trivial⟩
      intro hnil
      rcases List.take_eq_nil_iff.mp hnil with h0 | h0
      · cases h0
      · exact hne h0
    · show awaiting false (s.log ++ [Item.requested (s.needs.take batchSizeDown)]) = true
      rw [awaiting_append]
      rfl
    · intro hd
      exact List.mem_append_left _ (h.done hd)
    · intro he
      exact absurd (hlive.symm.trans he) (by simp)
  · exact ⟨h, hlive⟩

theorem exitTest (h : Inv p s) (hlive : s.exited = none) : Inv p (exitTest p s) := by
  unfold CmdSync.exitTest
  split
  · rename_i hc
    obtain ⟨hdone, hhaves, hneeds, -, -⟩ := hc
    have hreported := h.reported (by rw [hlive]; simp)
    have hexit : Inv p { s with exited := some 0 } :=
      ⟨h.needs, h.haves, fun _ => hreported, h.spaced, h.waiting, h.done, fun _ => ⟨hdone, hhaves, hneeds⟩⟩
    exact hexit.flush
  · exact h

variable [Golpe] [TaoJson]

/-- One callback. -/
theorem step (h : Inv p s) (i : Input) : Inv p (step p s i) := by
  unfold CmdSync.step
  split
  · exact h
  · rename_i hlive
    rw [Option.not_isSome_iff_eq_none] at hlive
    match i with
    | .disconnect =>
      have hnone : ∀ i ∈ ([] : List Item), ∃ a b, i = .reconciled a b := by simp
      have hfail := h.failed hnone
      simpa [State.note] using hfail
    | .message w msgStr =>
      have h1 := h.handled hlive (handleMsg_handled p w s msgStr)
      show Inv p (onMessage p w s msgStr)
      unfold onMessage
      dsimp only
      split
      · exact h1
      · rename_i hlive1
        rw [Option.not_isSome_iff_eq_none] at hlive1
        obtain ⟨h2, hlive2⟩ := h1.upload w hlive1
        obtain ⟨h3, hlive3⟩ := h2.download hlive2
        exact h3.exitTest hlive3

/-- A whole run. -/
theorem run (inputs : List Input) : Inv p (run p inputs) := by
  have hfold : ∀ s, Inv p s → Inv p (inputs.foldl (CmdSync.step p) s) := by
    induction inputs with
    | nil => exact fun s h => h
    | cons i inputs ih => exact fun s h => ih _ (h.step i)
  exact hfold _ init

end Inv

theorem mem_triedIds {log : List Item} {id : Bytes} (h : id ∈ log.flatMap Item.triedIds) :
    id ∈ log.flatMap Item.uploadedIds ∨ .notFound id ∈ log := by
  obtain ⟨i, hi, hid⟩ := List.mem_flatMap.mp h
  cases i with
  | uploaded id' json =>
    exact Or.inl (List.mem_flatMap.mpr ⟨_, hi, hid⟩)
  | notFound id' =>
    obtain rfl := List.mem_singleton.mp hid
    exact Or.inr hi
  | _ => cases hid

theorem uploadedIds_sublist (log : List Item) :
    (log.flatMap Item.uploadedIds).Sublist (log.flatMap Item.triedIds) := by
  induction log with
  | nil => exact .slnil
  | cons i log ih =>
    rw [List.flatMap_cons, List.flatMap_cons]
    refine List.Sublist.append ?_ ih
    cases i <;> first | exact List.Sublist.refl _ | exact List.nil_sublist _

/-- **Each id once, and an exit only when done.**  After every sequence of inputs: downloading, the
ids reported as needed are those still to be requested and those requested, disjointly and each
once; an `EOSE` was heard between two requests, and a request is for 1 to 50 ids; uploading, no id
is uploaded twice; and at an exit with status 0 reconciliation is over and nothing is left out. -/
theorem sync_transfers [Golpe] [TaoJson] (p : Params) (inputs : List Input) :
    let s := run p inputs
    (p.doDown = true →
      (s.exited ≠ some 1 → ∀ id, id ∈ s.log.flatMap Item.needs ↔
        id ∈ s.needs ∨ id ∈ s.log.flatMap Item.requestedIds) ∧
      (s.needs ++ s.log.flatMap Item.requestedIds).Nodup ∧
      (∀ a ids b ids' c, s.log = a ++ .requested ids :: (b ++ .requested ids' :: c) → .eose ∈ b) ∧
      ∀ ids, .requested ids ∈ s.log → 1 ≤ ids.length ∧ ids.length ≤ 50) ∧
    (p.doUp = true → (s.log.flatMap Item.uploadedIds).Nodup) ∧
    (s.exited = some 0 → s.syncDone = true ∧ .negClose ∈ s.log ∧
      (p.doDown = true → ∀ id ∈ s.log.flatMap Item.needs, id ∈ s.log.flatMap Item.requestedIds) ∧
      (p.doUp = true → ∀ id ∈ s.log.flatMap Item.haves,
        id ∈ s.log.flatMap Item.uploadedIds ∨ .notFound id ∈ s.log)) := by
  intro s
  have h : Inv p s := Inv.run inputs
  refine ⟨fun hd => ⟨fun he id => ?_, (h.needs hd).nodup, fun a ids b ids' c hlog => ?_, fun ids hids => ?_⟩,
    fun hu => ?_, fun he => ?_⟩
  · rw [← (h.reported he).1, (h.needs hd).mem]
  · have hsp := h.spaced
    rw [hlog] at hsp
    exact ((spaced_append _ _ _).mp hsp).2.2.2.2.eose_mem
  · obtain ⟨a, b, hlog⟩ := List.append_of_mem hids
    have hsp := h.spaced
    rw [hlog] at hsp
    obtain ⟨-, hne, hle, -⟩ := ((spaced_append _ _ _).mp hsp).2
    exact ⟨List.length_pos_iff.mpr hne, hle⟩
  · exact (List.nodup_append.mp (h.haves hu).nodup).2.1.sublist (uploadedIds_sublist _)
  · obtain ⟨hdone, hhaves, hneeds⟩ := h.exit he
    have hrep := h.reported (by rw [he]; simp)
    refine ⟨hdone, h.done hdone, fun hd id hid => ?_, fun hu id hid => ?_⟩
    · rcases ((h.needs hd).mem id).mp ((hrep.1 id).mpr hid) with hleft | hgone
      · rw [hneeds] at hleft
        cases hleft
      · exact hgone
    · rcases ((h.haves hu).mem id).mp ((hrep.2 id).mpr hid) with hleft | hgone
      · rw [hhaves] at hleft
        cases hleft
      · exact mem_triedIds hgone

/-- A library that answers once, and the texts of the relay's messages. -/
def sampleWorld : World where
  reconcile _ := .ok (none, [List.replicate 32 1], [List.replicate 32 2])
  lookupEventById id := some id
  acceptEvent _ := .ok true

@[reducible] def sampleTexts : TaoJson := TaoJson.ofTexts
  [("[\"NEG-MSG\",\"N\",\"00\"]", .array [.string (ascii "NEG-MSG"), .string (ascii "N"), .string (ascii "00")]),
    ("[\"OK\",\"\",true,\"\"]", .array [.string (ascii "OK"), .string [], .bool true, .string []]),
    ("[\"EOSE\",\"R\"]", .array [.string (ascii "EOSE"), .string (ascii "R")])]

/-- A sync that uploads one event, requests one and ends. -/
def sampleSync : List Input :=
  [.message sampleWorld (ascii "[\"NEG-MSG\",\"N\",\"00\"]"), .message sampleWorld (ascii "[\"EOSE\",\"R\"]"),
    .message sampleWorld (ascii "[\"OK\",\"\",true,\"\"]")]

theorem sync_transfers_both : let _ : Golpe := Golpe.plain
    let _ : TaoJson := sampleTexts
    let s := run ⟨true, true⟩ sampleSync
    s.exited = some 0 ∧ List.replicate 32 2 ∈ s.log.flatMap Item.requestedIds ∧
      (List.replicate 32 1 ∈ s.log.flatMap Item.uploadedIds ∨ .notFound (List.replicate 32 1) ∈ s.log) := by
  intro _ _ s
  have hexit : s.exited = some 0 := by decide +kernel
  obtain ⟨-, -, hdone⟩ := sync_transfers ⟨true, true⟩ sampleSync
  obtain ⟨-, -, hdown, hup⟩ := hdone hexit
  have hneed : List.replicate 32 2 ∈ s.log.flatMap Item.needs := by decide +kernel
  have hhave : List.replicate 32 1 ∈ s.log.flatMap Item.haves := by decide +kernel
  exact ⟨hexit, hdown rfl _ hneed, hup rfl _ hhave⟩

/-! ## The upload counter -/

/-- The events uploaded so far. -/
def uploads (log : List Item) : Nat := (log.flatMap Item.uploadedIds).length

def answered (log : List Item) : Nat := log.countP Item.isAnswer

theorem uploads_append (l l' : List Item) : uploads (l ++ l') = uploads l + uploads l' := by
  unfold uploads
  rw [List.flatMap_append, List.length_append]

theorem answered_append (l l' : List Item) : answered (l ++ l') = answered l + answered l' := by
  unfold answered
  rw [List.countP_append]

/-- The counter is what was uploaded and not answered. -/
structure Flow (s : State) : Prop where
  count : s.inFlightUp + answered s.log = uploads s.log
  high : s.inFlightUp ≤ highWaterUp

/-- Items that are neither an upload nor an answer. -/
def Item.still (i : Item) : Prop := i.uploadedIds = [] ∧ i.isAnswer = false

theorem count_still {items : List Item} (h : ∀ i ∈ items, i.still) (log : List Item) :
    uploads (log ++ items) = uploads log ∧ answered (log ++ items) = answered log := by
  rw [uploads_append, answered_append]
  have hu : uploads items = 0 := by
    unfold uploads
    rw [List.flatMap_eq_nil_iff.mpr fun i hi => (h i hi).1]
    rfl
  have ha : answered items = 0 := List.countP_eq_zero.mpr fun i hi => by simp [(h i hi).2]
  omega

namespace Flow

variable {p : Params} {s : State}

/-- Another state with the same counter and only still items more. -/
theorem congr (h : Flow s) {s' : State} {items : List Item} (hn : s'.inFlightUp = s.inFlightUp)
    (hlog : s'.log = s.log ++ items) (hi : ∀ i ∈ items, i.still) : Flow s' := by
  obtain ⟨hu, ha⟩ := count_still hi s.log
  constructor
  · rw [hn, hlog, hu, ha]
    exact h.count
  · rw [hn]
    exact h.high

theorem doExit (h : Flow s) (status : Nat) : Flow (s.doExit p status) := by
  refine h.congr rfl rfl fun i hi => ?_
  rw [mem_flush hi]
  exact ⟨rfl, rfl⟩

/-- An `OK` that answers an upload, or any other message. -/
theorem handled (h : Flow s) {isOk : Bool} {s' : State} (hs : Handled p s isOk s')
    (hok : isOk = true → s.inFlightUp ≠ 0) : Flow s' := by
  cases hs with
  | ignored => exact h
  | failed items hi =>
    have hnote : Flow (s.note items) := by
      refine h.congr rfl rfl fun i hm => ?_
      obtain ⟨a, b, rfl⟩ := hi i hm
      exact ⟨rfl, rfl⟩
    exact hnote.doExit 1
  | reconciled currHave currNeed haves seenHave needs seenNeed neMsg =>
    refine h.congr rfl rfl ?_
    intro i hi
    rcases List.mem_cons.mp hi with rfl | hi
    · exact ⟨rfl, rfl⟩
    · rw [List.mem_singleton] at hi
      rw [hi]
      cases neMsg <;> exact ⟨rfl, rfl⟩
  | ok hisOk =>
    have hpos := hok hisOk
    have hhigh : s.inFlightUp ≤ 100 := h.high
    have hcount := h.count
    have hsub : subU64 s.inFlightUp 1 = s.inFlightUp - 1 := by
      unfold subU64
      omega
    constructor
    · show subU64 s.inFlightUp 1 + answered (s.log ++ [.ok]) = uploads (s.log ++ [.ok])
      rw [hsub, uploads_append, answered_append]
      show s.inFlightUp - 1 + (answered s.log + 1) = uploads s.log + 0
      omega
    · show subU64 s.inFlightUp 1 ≤ 100
      omega
  | wrote evJson =>
    refine h.congr rfl rfl fun i hi => ?_
    rw [List.mem_singleton] at hi
    rw [hi]
    exact ⟨rfl, rfl⟩
  | eose =>
    refine h.congr rfl rfl fun i hi => ?_
    rw [List.mem_singleton] at hi
    rw [hi]
    exact ⟨rfl, rfl⟩

theorem upload (h : Flow s) (w : World) : Flow (upload p w s) := by
  unfold CmdSync.upload
  split
  · obtain ⟨-, hcount, hhigh, hitems⟩ := uploadLoop_spec w s.haves s.inFlightUp
    generalize uploadLoop w s.haves s.inFlightUp = r at hcount hhigh hitems
    have hok : answered r.2.2 = 0 := by
      refine List.countP_eq_zero.mpr fun i hi => ?_
      rcases hitems i hi with ⟨id, json, rfl⟩ | ⟨id, rfl⟩ <;> exact Bool.false_ne_true
    constructor
    · show r.2.1 + answered (s.log ++ r.2.2) = uploads (s.log ++ r.2.2)
      rw [uploads_append, answered_append, hok, hcount]
      have := h.count
      unfold uploads at this ⊢
      omega
    · exact hhigh h.high
  · exact h

theorem download (h : Flow s) : Flow (download p s) := by
  unfold CmdSync.download
  split
  · refine h.congr rfl rfl fun i hi => ?_
    rw [List.mem_singleton] at hi
    rw [hi]
    exact ⟨rfl, rfl⟩
  · exact h

theorem exitTest (h : Flow s) : Flow (exitTest p s) := by
  unfold CmdSync.exitTest
  split
  · exact h.doExit 0
  · exact h

variable [Golpe] [TaoJson]

/-- One callback, when an `OK` finds an upload to answer. -/
theorem step (h : Flow s) (i : Input) (hok : s.exited = none → i.isOk = true → s.inFlightUp ≠ 0) :
    Flow (step p s i) := by
  unfold CmdSync.step
  split
  · exact h
  · rename_i hlive
    rw [Option.not_isSome_iff_eq_none] at hlive
    match i, hok with
    | .disconnect, _ => exact h.doExit 1
    | .message w msgStr, hok =>
      have h1 := h.handled (handleMsg_handled p w s msgStr) (hok hlive)
      show Flow (onMessage p w s msgStr)
      unfold onMessage
      dsimp only
      split
      · exact h1
      · exact ((h1.upload w).download).exitTest

end Flow

/-- What the claim on the counter asks of a state. -/
def Bounded (s : State) : Prop := s.inFlightUp ≤ uploads s.log ∧ s.inFlightUp ≤ highWaterUp

theorem Flow.bounded {s : State} (h : Flow s) : Bounded s := ⟨by have := h.count; omega, h.high⟩

section
variable [Golpe] [TaoJson] (p : Params)

/-- Every `OK` is handled while an upload is counted as unanswered. -/
def Answering : State → List Input → Prop
  | _, [] => True
  | s, i :: inputs => (s.exited = none → i.isOk = true → s.inFlightUp ≠ 0) ∧ Answering (step p s i) inputs

theorem handleMsg_ok (w : World) (s : State) {msgStr : Bytes} (h : (Input.message w msgStr).isOk = true) :
    handleMsg p w s msgStr = onOk s := by
  unfold Input.isOk at h
  unfold handleMsg
  dsimp only at h
  cases hmsg : TaoJson.fromString msgStr with
  | none =>
    rw [hmsg] at h
    cases h
  | some msg =>
    rw [hmsg] at h
    dsimp only at h ⊢
    cases hcmd : msg.atIdx 0 with
    | error e =>
      rw [hcmd] at h
      cases h
    | ok cmd =>
      rw [hcmd] at h
      dsimp only at h ⊢
      have hneg : cmd.isString "NEG-MSG" = false := by
        cases cmd with
        | string t =>
          have ht : t = ascii "OK" := beq_iff_eq.mp h
          rw [ht]
          rfl
        | _ => cases h
      rw [hneg, if_neg Bool.false_ne_true, if_pos h]

omit [Golpe] [TaoJson] in
theorem download_inFlightUp (s : State) : (download p s).inFlightUp = s.inFlightUp := by
  unfold download
  split <;> rfl

omit [Golpe] [TaoJson] in
theorem exitTest_inFlightUp (s : State) : (exitTest p s).inFlightUp = s.inFlightUp := by
  unfold exitTest
  split <;> rfl

/-- An `OK` that answers nothing: the counter wraps. -/
theorem step_stray {s : State} {i : Input} (hlive : s.exited = none) (hok : i.isOk = true)
    (h0 : s.inFlightUp = 0) : ¬ Bounded (step p s i) := by
  intro hb
  have hwrap : (step p s i).inFlightUp = 2 ^ 64 - 1 := by
    unfold step
    rw [hlive]
    match i, hok with
    | .message w msgStr, hok =>
      show (onMessage p w s msgStr).inFlightUp = 2 ^ 64 - 1
      unfold onMessage
      rw [handleMsg_ok p w s hok]
      have hn : (onOk s).inFlightUp = 2 ^ 64 - 1 := by
        simp only [onOk, State.note, h0]
        rfl
      have he : (onOk s).exited = none := by simp only [onOk, State.note, hlive]
      have hup : upload p w (onOk s) = onOk s := by
        unfold upload
        refine if_neg fun hc => ?_
        have hlow : (onOk s).inFlightUp ≤ 50 := hc.2.2
        omega
      simp only [he, hup, Option.isSome_none, Bool.false_eq_true, if_false]
      rw [exitTest_inFlightUp, download_inFlightUp, hn]
  have hhigh : (step p s i).inFlightUp ≤ 100 := hb.2
  omega

theorem answering_iff {s : State} (h : Flow s) (inputs : List Input) :
    Answering p s inputs ↔ ∀ n, Bounded ((inputs.take n).foldl (step p) s) := by
  induction inputs generalizing s with
  | nil =>
    constructor
    · intro _ n
      rw [List.take_nil]
      exact h.bounded
    · exact fun _ => trivial
  | cons i inputs ih =>
    constructor
    · rintro ⟨hok, hrest⟩ n
      cases n with
      | zero => exact h.bounded
      | succ n => exact (ih (h.step i hok)).mp hrest n
    · intro hb
      have hok : s.exited = none → i.isOk = true → s.inFlightUp ≠ 0 :=
        fun hlive hisOk h0 => step_stray p hlive hisOk h0 (hb 1)
      exact ⟨hok, (ih (h.step i hok)).mpr fun n => hb (n + 1)⟩

/-- **The counter is bounded in every state of a run exactly when each `OK` answers an upload.** -/
theorem sync_flow (inputs : List Input) : Answering p {} inputs ↔
    ∀ n, (run p (inputs.take n)).inFlightUp ≤ uploads (run p (inputs.take n)).log ∧
      (run p (inputs.take n)).inFlightUp ≤ highWaterUp :=
  answering_iff p ⟨rfl, by decide⟩ inputs

end

/-- An `OK` before any upload, then a reconciliation that has an id to upload: the counter has wrapped
and the id stays. -/
theorem sync_flow_wraps : let _ : Golpe := Golpe.plain
    let _ : TaoJson := sampleTexts
    let inputs := [Input.message sampleWorld (ascii "[\"OK\",\"\",true,\"\"]"),
      .message sampleWorld (ascii "[\"NEG-MSG\",\"N\",\"00\"]")]
    (run ⟨true, true⟩ inputs).inFlightUp = 2 ^ 64 - 1 ∧ uploads (run ⟨true, true⟩ inputs).log = 0 ∧
      (run ⟨true, true⟩ inputs).haves ≠ [] ∧
      ¬ ∀ (p : Params) (inputs : List Input),
        (run p inputs).inFlightUp ≤ uploads (run p inputs).log ∧ (run p inputs).inFlightUp ≤ highWaterUp := by
  intro _ _ inputs
  have hn : (run ⟨true, true⟩ inputs).inFlightUp = 2 ^ 64 - 1 := by decide +kernel
  refine ⟨hn, by decide +kernel, by decide +kernel, fun h => ?_⟩
  have hhigh : (run ⟨true, true⟩ inputs).inFlightUp ≤ 100 := (h ⟨true, true⟩ inputs).2
  omega

end CmdSync

end Strfry
