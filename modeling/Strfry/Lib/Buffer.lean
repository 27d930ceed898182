import Mathlib.Data.List.Basic

/-!
# Writing into a buffer

A buffer is a list; `write` is `memcpy` into it and `read` is the stretch of `n` elements
from an offset.  Both are `none` when they would leave the buffer.  A write inside a
buffer that is known in parts changes one part (`write_append`).
-/

namespace Strfry

namespace Buffer

variable {α : Type}

def write (buf : List α) (off : Nat) (src : List α) : Option (List α) :=
  if off + src.length ≤ buf.length then some (buf.take off ++ src ++ buf.drop (off + src.length)) else none

def read (buf : List α) (off n : Nat) : Option (List α) :=
  if off + n ≤ buf.length then some ((buf.drop off).take n) else none

/-- `n` elements: the first of `buf`, then copies of `fill`. -/
def resize (buf : List α) (n : Nat) (fill : α) : List α := buf.take n ++ List.replicate (n - buf.length) fill

@[simp] theorem length_resize (buf : List α) (n : Nat) (fill : α) : (resize buf n fill).length = n := by
  simp only [resize, List.length_append, List.length_take, List.length_replicate]
  omega

/-- Overwriting the middle part. -/
theorem write_append {a b c src : List α} {off : Nat} (ha : a.length = off) (hb : b.length = src.length) :
    write (a ++ (b ++ c)) off src = some (a ++ (src ++ c)) := by
  unfold write
  rw [if_pos (by simp only [List.length_append]; omega), List.take_left' ha, ← List.drop_drop, List.drop_left' ha,
    List.drop_left' hb, List.append_assoc]

/-- Reading the middle part. -/
theorem read_append {a b c : List α} {off n : Nat} (ha : a.length = off) (hb : b.length = n) :
    read (a ++ (b ++ c)) off n = some b := by
  unfold read
  rw [if_pos (by simp only [List.length_append]; omega), List.drop_left' ha, List.take_left' hb]

/-- A list of `m + n` elements is `m` elements and `n` elements. -/
theorem exists_append {l : List α} {m n : Nat} (h : l.length = m + n) :
    ∃ a b, l = a ++ b ∧ a.length = m ∧ b.length = n := by
  refine ⟨l.take m, l.drop m, (List.take_append_drop m l).symm, ?_, ?_⟩
  · rw [List.length_take]
    omega
  · rw [List.length_drop]
    omega

end Buffer

end Strfry
