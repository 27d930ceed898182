import Mathlib.Data.List.Lex
import Mathlib.Data.Fin.Basic
import Mathlib.Data.Nat.Basic
import Mathlib.Order.Fin.Basic
import Mathlib.Tactic.Linarith
import Strfry.Lib.Octets

/-!
# Byte strings and index keys

`std::string` and `std::string_view` are lists of bytes, compared byte by byte as
unsigned values (`char_traits<char>::compare`), which is the lexicographic order
of `List (Fin 256)`.  `toSv` is `lmdb::to_sv<uint64_t>`: the eight bytes of the
integer in memory order (little-endian, as `docs/fried.md` says).

Index keys are a string followed by one integer (`makeKeyStringUint64`) and are
taken apart again by `ParsedKeyStringUint64`:

    ParsedKeyStringUint64.parse (makeKeyStringUint64 s n) = ⟨s, n⟩      (n < 2^64)
-/

namespace Strfry

/-- `MAX_U64`. -/
def maxU64 : Nat := 2 ^ 64 - 1

/-- Unsigned 64-bit subtraction. -/
def subU64 (a b : Nat) : Nat := (a + 2 ^ 64 - b) % 2 ^ 64

/-- Unsigned 64-bit addition. -/
def addU64 (a b : Nat) : Nat := (a + b) % 2 ^ 64

/-- `lmdb::to_sv<uint64_t>`. -/
def toSv (n : Nat) : Bytes := toLE 8 n

/-- `lmdb::from_sv<uint64_t>`. -/
def fromSv (b : Bytes) : Nat := fromLE b

@[simp] theorem length_toSv (n : Nat) : (toSv n).length = 8 := length_toLE 8 n

theorem fromSv_toSv (n : Nat) (h : n < 2 ^ 64) : fromSv (toSv n) = n := by
  unfold fromSv toSv
  rw [fromLE_toLE, Nat.mod_eq_of_lt (by norm_num; norm_num at h; exact h)]

theorem fromSv_lt (b : Bytes) (hb : b.length = 8) : fromSv b < 2 ^ 64 := by
  have := fromLE_lt b
  rw [hb] at this
  norm_num at this ⊢
  exact this

theorem toSv_fromSv (b : Bytes) (hb : b.length = 8) : toSv (fromSv b) = b := by
  apply fromLE_inj
  · simp [hb]
  · exact fromSv_toSv _ (fromSv_lt b hb)

theorem toSv_inj {m n : Nat} (hm : m < 2 ^ 64) (hn : n < 2 ^ 64) (h : toSv m = toSv n) : m = n := by
  rw [← fromSv_toSv m hm, h, fromSv_toSv n hn]

/-- Eight `\xFF` bytes are the largest integer. -/
theorem replicate_ff : List.replicate 8 (0xFF : Byte) = toSv maxU64 := by decide

/-! ## Index keys -/

def makeKeyStringUint64 (s : Bytes) (n : Nat) : Bytes := s ++ toSv n

def makeKeyUint64Uint64 (n1 n2 : Nat) : Bytes := toSv n1 ++ toSv n2

def makeKeyStringUint64Uint64 (s : Bytes) (n1 n2 : Nat) : Bytes := s ++ toSv n1 ++ toSv n2

structure ParsedKeyStringUint64 where
  s : Bytes
  n : Nat
deriving DecidableEq

def ParsedKeyStringUint64.parse (k : Bytes) : ParsedKeyStringUint64 :=
  ⟨k.take (k.length - 8), fromSv (k.drop (k.length - 8))⟩

structure ParsedKeyUint64Uint64 where
  n1 : Nat
  n2 : Nat
deriving DecidableEq

def ParsedKeyUint64Uint64.parse (k : Bytes) : ParsedKeyUint64Uint64 :=
  ⟨fromSv (k.take 8), fromSv (k.drop 8)⟩

theorem parse_append_toSv (s : Bytes) (n : Nat) (h : n < 2 ^ 64) :
    ParsedKeyStringUint64.parse (s ++ toSv n) = ⟨s, n⟩ := by
  simp [ParsedKeyStringUint64.parse, fromSv_toSv n h]

theorem parse_makeKey (s : Bytes) (n : Nat) (h : n < 2 ^ 64) :
    ParsedKeyStringUint64.parse (makeKeyStringUint64 s n) = ⟨s, n⟩ :=
  parse_append_toSv s n h

theorem makeKey_inj {s t : Bytes} {m n : Nat} (hm : m < 2 ^ 64) (hn : n < 2 ^ 64)
    (h : makeKeyStringUint64 s m = makeKeyStringUint64 t n) : s = t ∧ m = n := by
  have := congrArg ParsedKeyStringUint64.parse h
  rw [parse_makeKey s m hm, parse_makeKey t n hn] at this
  exact ⟨congrArg (·.s) this, congrArg (·.n) this⟩

/-- `std::string_view::starts_with`. -/
def startsWith (k p : Bytes) : Bool := p.isPrefixOf k

theorem startsWith_iff (k p : Bytes) : startsWith k p = true ↔ p <+: k := by
  simp [startsWith]

/-- On keys of one length, starting with `p` is having `p` as the string part. -/
theorem startsWith_makeKey (s p : Bytes) (n : Nat) (h : s.length = p.length) :
    startsWith (makeKeyStringUint64 s n) p = true ↔ s = p := by
  rw [startsWith_iff]
  unfold makeKeyStringUint64
  constructor
  · intro hp
    have := List.prefix_iff_eq_take.mp hp
    rw [List.take_append_of_le_length (by omega), List.take_of_length_le (by omega)] at this
    exact this.symm
  · rintro rfl
    exact List.prefix_append _ _

end Strfry
