import Mathlib.Data.Fin.Basic
import Mathlib.Data.List.Basic
import Strfry.Lib.Octets

/-!
# String literals of JSON

`Chars t v`: the text `t` between the quotes of a literal denotes the bytes `v`.  A byte
stands for itself from 0x20 on unless it is the quote or the backslash; the rest is
escaped.  Whether the bytes are well-formed UTF-8 is not said here.

A reader takes a literal to end at the first quote that is not escaped, so a text of bytes
that stand for themselves is read in one way only, whatever follows it (`Chars.unique`).
-/

namespace Strfry

namespace JsonText

def quote : Fin 256 := 34

def backslash : Fin 256 := 92

/-- The bytes that stand for themselves. -/
def Plain (c : Fin 256) : Prop := 0x20 ≤ c.val ∧ c ≠ quote ∧ c ≠ backslash

/-- The escapes of one character: quote, backslash, slash, b, f, n, r, t. -/
def escapes : List (Fin 256 × Fin 256) :=
  [(34, 34), (92, 92), (47, 47), (98, 8), (102, 12), (110, 10), (114, 13), (116, 9)]

def digit (c : Fin 256) : Option Nat :=
  if 48 ≤ c.val ∧ c.val ≤ 57 then some (c.val - 48)
  else if 97 ≤ c.val ∧ c.val ≤ 102 then some (c.val - 87)
  else if 65 ≤ c.val ∧ c.val ≤ 70 then some (c.val - 55)
  else none

/-- The number four hex digits write. -/
def codeUnit (h : List (Fin 256)) : Option Nat :=
  if h.length = 4 then h.foldlM (fun n c => (digit c).map fun d => 16 * n + d) 0 else none

def utf8 (n : Nat) : List (Fin 256) :=
  if n < 0x80 then [Fin.ofNat 256 n]
  else if n < 0x800 then [Fin.ofNat 256 (0xC0 + n / 0x40), Fin.ofNat 256 (0x80 + n % 0x40)]
  else if n < 0x10000 then
    [Fin.ofNat 256 (0xE0 + n / 0x1000), Fin.ofNat 256 (0x80 + n / 0x40 % 0x40), Fin.ofNat 256 (0x80 + n % 0x40)]
  else [Fin.ofNat 256 (0xF0 + n / 0x40000), Fin.ofNat 256 (0x80 + n / 0x1000 % 0x40),
    Fin.ofNat 256 (0x80 + n / 0x40 % 0x40), Fin.ofNat 256 (0x80 + n % 0x40)]

inductive Chars : List (Fin 256) → List (Fin 256) → Prop
  | nil : Chars [] []
  | plain {c : Fin 256} {t v : List (Fin 256)} (hc : Plain c) (ht : Chars t v) : Chars (c :: t) (c :: v)
  | escape {c e : Fin 256} {t v : List (Fin 256)} (hc : (c, e) ∈ escapes) (ht : Chars t v) :
      Chars (backslash :: c :: t) (e :: v)
  | unicode {h t v : List (Fin 256)} {n : Nat} (hn : codeUnit h = some n) (hs : n < 0xD800 ∨ 0xDFFF < n)
      (ht : Chars t v) : Chars (backslash :: 117 :: (h ++ t)) (utf8 n ++ v)
  | pair {h l t v : List (Fin 256)} {m n : Nat} (hm : codeUnit h = some m) (hn : codeUnit l = some n)
      (hhigh : 0xD800 ≤ m ∧ m < 0xDC00) (hlow : 0xDC00 ≤ n ∧ n < 0xE000) (ht : Chars t v) :
      Chars (backslash :: 117 :: (h ++ backslash :: 117 :: (l ++ t)))
        (utf8 (0x10000 + (m - 0xD800) * 0x400 + (n - 0xDC00)) ++ v)

/-- No text starts with a bare quote, and one that starts with a plain byte goes on after it. -/
theorem Chars.of_cons {c : Fin 256} {t v : List (Fin 256)} (h : Chars (c :: t) v) :
    (c = backslash) ∨ (Plain c ∧ ∃ w, v = c :: w ∧ Chars t w) := by
  cases h with
  | plain hc ht => exact Or.inr ⟨hc, _, rfl, ht⟩
  | escape => exact Or.inl rfl
  | unicode => exact Or.inl rfl
  | pair => exact Or.inl rfl

/-- **One reading.**  Plain text and a quote are read as that text, with the rest left over. -/
theorem Chars.unique {s rest : List (Fin 256)} (hs : ∀ c ∈ s, Plain c) {t v rest' : List (Fin 256)}
    (h : Chars t v) (heq : s ++ quote :: rest = t ++ quote :: rest') : t = s ∧ v = s ∧ rest' = rest := by
  induction s generalizing t v with
  | nil =>
    match t, h, heq with
    | [], h, heq =>
      cases h
      exact ⟨rfl, rfl, (List.cons.inj heq).2.symm⟩
    | c :: t, h, heq =>
      obtain rfl : quote = c := (List.cons.inj heq).1
      rcases h.of_cons with hb | ⟨hp, -⟩
      · exact absurd hb (by decide)
      · exact absurd rfl hp.2.1
  | cons c s ih =>
    have hc := hs c List.mem_cons_self
    match t, h, heq with
    | [], h, heq => exact absurd (List.cons.inj heq).1 hc.2.1
    | d :: t, h, heq =>
      obtain ⟨rfl, htail⟩ := List.cons.inj heq
      rcases h.of_cons with hb | ⟨-, w, rfl, ht⟩
      · exact absurd hb hc.2.2
      · obtain ⟨rfl, rfl, hrest⟩ := ih (fun e he => hs e (List.mem_cons_of_mem _ he)) ht htail
        exact ⟨rfl, rfl, hrest⟩

end JsonText

end Strfry
