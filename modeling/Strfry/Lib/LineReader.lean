import Mathlib.Data.List.Basic

/-!
# Lines from a buffered stream

A reader has what it fetched and did not yet serve (`buf`), and the pieces the next fetches
will get (`fetches`); `closed` says whether the stream ends after them.  `getLine` serves up
to the end of a line, or `max` elements, and fetches only while it has neither.

`ready` looks at the stream alone, not at the buffer: it is whether another fetch would get
something or find the end.

    buf ++ fetches = line ++ nl :: rest  →  getLine serves line ++ [nl]      (getLine_spec)

and of what it fetches for that, all but the last piece ends inside the line.
-/

namespace Strfry

structure Reader (α : Type) where
  buf : List α
  fetches : List (List α)
  closed : Bool

inductive Got (α : Type) where
  | line (text : List α)
  /-- the end of the stream, nothing left to serve -/
  | eof
  /-- waiting for more, for ever -/
  | blocked
deriving DecidableEq

namespace Reader

variable {α : Type}

/-- What is still to be served. -/
def content (r : Reader α) : List α := r.buf ++ r.fetches.flatten

def ready (r : Reader α) : Bool := !r.fetches.isEmpty || r.closed

variable [DecidableEq α] (nl : α) (max : Nat) (closed : Bool)

/-- Whether a line, or `max` elements, can be served from `buf`: how many. -/
def lineEnd (buf : List α) : Option Nat :=
  match (buf.take max).findIdx? (· == nl) with
  | some i => some (i + 1)
  | none => if max ≤ buf.length then some max else none

def getLineFrom : List α → List (List α) → Got α × Reader α
  | buf, fetches =>
    match lineEnd nl max buf with
    | some n => (.line (buf.take n), ⟨buf.drop n, fetches, closed⟩)
    | none =>
      match fetches with
      | f :: fs => getLineFrom (buf ++ f) fs
      | [] =>
        if closed then
          if buf = [] then (.eof, ⟨[], [], closed⟩) else (.line buf, ⟨[], [], closed⟩)
        else (.blocked, ⟨buf, [], closed⟩)
termination_by structural _ fetches => fetches

def getLine (r : Reader α) : Got α × Reader α := getLineFrom nl max r.closed r.buf r.fetches

variable {nl max closed}

/-- A buffer that has the whole line. -/
theorem lineEnd_of_mem {line rest : List α} (hnl : nl ∉ line) (hmax : line.length < max) :
    lineEnd nl max (line ++ nl :: rest) = some (line.length + 1) := by
  have htake : (line ++ nl :: rest).take max = line ++ nl :: rest.take (max - line.length - 1) := by
    rw [List.take_append, List.take_of_length_le (by omega)]
    obtain ⟨k, hk⟩ : ∃ k, max - line.length = k + 1 := ⟨max - line.length - 1, by omega⟩
    rw [hk, List.take_succ_cons, Nat.add_sub_cancel]
  have hidx : (line ++ nl :: rest.take (max - line.length - 1)).findIdx? (· == nl) = some line.length := by
    rw [List.findIdx?_append, List.findIdx?_eq_none_iff.mpr fun x hx => by
      rw [beq_eq_false_iff_ne]
      rintro rfl
      exact hnl hx]
    simp [List.findIdx?_cons]
  unfold lineEnd
  rw [htake, hidx]

/-- A line in the buffer is served from there. -/
theorem getLineFrom_of_mem {line rest : List α} (hnl : nl ∉ line) (hmax : line.length < max)
    (fetches : List (List α)) : getLineFrom nl max closed (line ++ nl :: rest) fetches =
      (.line (line ++ [nl]), ⟨rest, fetches, closed⟩) := by
  have happ : line ++ nl :: rest = (line ++ [nl]) ++ rest := by simp
  unfold getLineFrom
  rw [lineEnd_of_mem hnl hmax]
  simp only
  rw [happ, List.take_left' (by simp), List.drop_left' (by simp)]

/-- A buffer that ends inside the line. -/
theorem lineEnd_of_prefix {buf : List α} (hnl : nl ∉ buf) (hmax : buf.length < max) :
    lineEnd nl max buf = none := by
  unfold lineEnd
  rw [List.take_of_length_le (by omega), List.findIdx?_eq_none_iff.mpr fun x hx => by
    rw [beq_eq_false_iff_ne]
    rintro rfl
    exact hnl hx]
  simp only
  rw [if_neg (by omega)]

theorem getLineFrom_spec {line rest : List α} (hnl : nl ∉ line) (hmax : line.length < max) (fetches : List (List α))
    (buf : List α) (h : buf ++ fetches.flatten = line ++ nl :: rest) :
    ∃ used left buf', getLineFrom nl max closed buf fetches = (.line (line ++ [nl]), ⟨buf', left, closed⟩) ∧
      fetches = used ++ left ∧ buf ++ used.flatten = line ++ nl :: buf' ∧ buf' ++ left.flatten = rest ∧
      (used ≠ [] → (buf ++ used.dropLast.flatten).length ≤ line.length) := by
  induction fetches generalizing buf with
  | nil =>
    rw [List.flatten_nil, List.append_nil] at h
    subst h
    exact ⟨[], [], rest, getLineFrom_of_mem hnl hmax [], rfl, by simp, by simp, fun h => absurd rfl h⟩
  | cons f fs ih =>
    by_cases hlen : line.length < buf.length
    · -- the line is in the buffer
      obtain ⟨buf', rfl⟩ : ∃ buf', buf = line ++ nl :: buf' := by
        have hline : line ++ [nl] <+: line ++ nl :: rest := ⟨rest, by simp⟩
        have hbuf : buf <+: line ++ nl :: rest := ⟨(f :: fs).flatten, h⟩
        have hpre := List.prefix_of_prefix_length_le hline hbuf (by rw [List.length_append]; exact hlen)
        obtain ⟨t, ht⟩ := hpre
        exact ⟨t, by rw [← ht]; simp⟩
      refine ⟨[], f :: fs, buf', getLineFrom_of_mem hnl hmax _, rfl, by simp, ?_, fun h => absurd rfl h⟩
      rw [List.append_assoc, List.cons_append] at h
      exact (List.cons.inj (List.append_cancel_left h)).2
    · -- fetch
      have hbuf : buf <+: line ++ nl :: rest := ⟨(f :: fs).flatten, h⟩
      have hpre := List.prefix_of_prefix_length_le hbuf (List.prefix_append line _) (by omega)
      have hnone : lineEnd nl max buf = none :=
        lineEnd_of_prefix (fun hm => hnl (hpre.subset hm)) (by omega)
      have h' : (buf ++ f) ++ fs.flatten = line ++ nl :: rest := by
        rw [← h, List.flatten_cons, List.append_assoc]
      obtain ⟨used, left, buf', hget, hfs, hused, hrest, hlast⟩ := ih (buf ++ f) h'
      refine ⟨f :: used, left, buf', ?_, by rw [hfs]; rfl, ?_, hrest, fun _ => ?_⟩
      · unfold getLineFrom
        rw [hnone]
        exact hget
      · rw [List.flatten_cons, ← List.append_assoc]
        exact hused
      · by_cases hu : used = []
        · subst hu
          simp only [List.dropLast_singleton, List.flatten_nil, List.append_nil]
          omega
        · rw [List.dropLast_cons_of_ne_nil hu, List.flatten_cons, ← List.append_assoc]
          exact hlast hu

/-- **One line.**  It is served whole; the fetches made for it are a first part of those to come, and
none of them was made once the line was there. -/
theorem getLine_spec {r : Reader α} {line rest : List α} (hnl : nl ∉ line) (hmax : line.length < max)
    (h : r.content = line ++ nl :: rest) :
    ∃ used r', getLine nl max r = (.line (line ++ [nl]), r') ∧ r'.closed = r.closed ∧
      r.fetches = used ++ r'.fetches ∧ r.buf ++ used.flatten = line ++ nl :: r'.buf ∧ r'.content = rest ∧
      (used ≠ [] → (r.buf ++ used.dropLast.flatten).length ≤ line.length) := by
  obtain ⟨used, left, buf', hget, hfetches, hused, hrest, hlast⟩ :=
    @getLineFrom_spec _ _ nl max r.closed line rest hnl hmax r.fetches r.buf h
  exact ⟨used, ⟨buf', left, r.closed⟩, hget, rfl, hfetches, hused, hrest, hlast⟩

end Reader

end Strfry
