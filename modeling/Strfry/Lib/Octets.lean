import Mathlib.Data.Fin.Basic
import Mathlib.Data.Nat.Basic
import Mathlib.Tactic.Linarith

/-!
# Strings of bytes

A byte is a number below 256.  `toLE k n` is what `k` bytes of memory hold of the number `n` where
the lowest byte comes first:

    fromLE (toLE k n) = n % 256 ^ k                                    (fromLE_toLE)
    a.length = b.length → fromLE a = fromLE b → a = b                  (fromLE_inj)
-/

namespace Strfry

abbrev Byte := Fin 256

abbrev Bytes := List Byte

/-- By name, so that the literals of every module are one term. -/
instance neZero_byte : NeZero 256 := ⟨by decide⟩

/-- The bytes of an ASCII literal. -/
def ascii (s : String) : Bytes := s.toList.map fun c => Fin.ofNat 256 c.toNat

/-- The `k` low bytes of `n`, lowest first. -/
def toLE : Nat → Nat → Bytes
  | 0, _ => []
  | k + 1, n => Fin.ofNat 256 n :: toLE k (n / 256)

def fromLE : Bytes → Nat
  | [] => 0
  | b :: bs => b.val + 256 * fromLE bs

@[simp] theorem length_toLE (k n : Nat) : (toLE k n).length = k := by
  induction k generalizing n with
  | zero => rfl
  | succ k ih => simp [toLE, ih]

theorem fromLE_toLE (k n : Nat) : fromLE (toLE k n) = n % 256 ^ k := by
  induction k generalizing n with
  | zero => simp [toLE, fromLE, Nat.mod_one]
  | succ k ih =>
    have hv : (Fin.ofNat 256 n : Byte).val = n % 256 := rfl
    simp only [toLE, fromLE, ih, hv]
    rw [Nat.pow_succ, Nat.mul_comm (256 ^ k) 256, Nat.mod_mul]

theorem fromLE_lt (b : Bytes) : fromLE b < 256 ^ b.length := by
  induction b with
  | nil => simp [fromLE]
  | cons b bs ih =>
    simp only [fromLE, List.length_cons, pow_succ]
    have := b.isLt
    omega

theorem fromLE_inj (a b : Bytes) (hl : a.length = b.length) (h : fromLE a = fromLE b) : a = b := by
  induction a generalizing b with
  | nil => exact (List.length_eq_zero_iff.mp hl.symm).symm
  | cons x xs ih =>
    cases b with
    | nil => simp at hl
    | cons y ys =>
      simp only [fromLE] at h
      have hx := x.isLt
      have hy := y.isLt
      have hxy : x = y := by
        apply Fin.ext
        omega
      have : fromLE xs = fromLE ys := by omega
      rw [hxy, ih ys (by simpa using hl) this]

end Strfry
