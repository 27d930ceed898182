import Mathlib.Data.Fin.Basic
import Mathlib.Data.List.Basic
import Strfry.Lib.Octets

/-!
# A text format for counters

One line for every counter, `name{key="label"} value`, and comment lines that start with `#`.
The label is written as it is, without escapes.

    read (render ls) = some ls  ↔  no label has a quote or an end of line      (read_render)

A reader takes a label to end at the first quote.  The condition is needed for the quote because
of that, and for the end of line because of the number of lines (`length_splitOn_unlines`): a label
with one makes more lines than there are counters.
-/

namespace Strfry

namespace Exposition

abbrev Text := List (Fin 256)

def newline : Fin 256 := 10

def quote : Fin 256 := 34

def hash : Fin 256 := 35

def equals : Fin 256 := 61

def openBrace : Fin 256 := 123

inductive Line where
  /-- the text behind the `#` -/
  | comment (text : Text)
  | sample (name key label : Text) (value : Nat)
deriving DecidableEq

/-! ## Writing -/

/-- A number in decimal digits. -/
def number (n : Nat) : Text := (Nat.toDigits 10 n).map fun c => Fin.ofNat 256 c.toNat

/-- Everything before the label. -/
def head (name key : Text) : Text := name ++ openBrace :: (key ++ [equals, quote])

def Line.text : Line → Text
  | .comment text => hash :: text
  | .sample name key label value => head name key ++ (label ++ quote :: 125 :: 32 :: number value)

def unlines (ls : List Text) : Text := ls.flatMap fun l => l ++ [newline]

def render (ls : List Line) : Text := unlines (ls.map Line.text)

/-! ## Reading -/

/-- What is before the first `c`, and what is behind it. -/
def upTo (c : Fin 256) : Text → Option (Text × Text)
  | [] => none
  | x :: t => if x = c then some ([], t) else (upTo c t).map fun p => (x :: p.1, p.2)

def expect (c : Fin 256) : Text → Option Text
  | [] => none
  | x :: t => if x = c then some t else none

def readDigit (acc : Nat) (c : Fin 256) : Option Nat :=
  if 48 ≤ c.val ∧ c.val ≤ 57 then some (10 * acc + (c.val - 48)) else none

def readNumber (t : Text) : Option Nat := if t = [] then none else t.foldlM readDigit 0

def readSample (t : Text) : Option Line := do
  let (name, t) ← upTo openBrace t
  let (key, t) ← upTo equals t
  let t ← expect quote t
  let (label, t) ← upTo quote t
  let t ← expect 125 t
  let t ← expect 32 t
  let value ← readNumber t
  return .sample name key label value

def readLine : Text → Option Line
  | [] => none
  | x :: t => if x = hash then some (.comment t) else readSample (x :: t)

/-- The lines of a text that ends with an end of line. -/
def read (t : Text) : Option (List Line) :=
  if (t.splitOn newline).getLast? = some [] then (t.splitOn newline).dropLast.mapM readLine else none

/-! ## Numbers -/

theorem number_eq (n : Nat) : number n = if n < 10 then [Fin.ofNat 256 (48 + n)]
    else number (n / 10) ++ [Fin.ofNat 256 (48 + n % 10)] := by
  unfold number
  rw [Nat.toDigits_eq_if (by omega)]
  split
  · rename_i hn
    rw [List.map_singleton, Nat.toNat_digitChar_of_lt_ten hn]
  · rw [List.map_append, List.map_singleton, Nat.toNat_digitChar_of_lt_ten (Nat.mod_lt n (by omega))]

theorem number_ne_nil (n : Nat) : number n ≠ [] := by
  unfold number
  rw [ne_eq, List.map_eq_nil_iff]
  exact Nat.toDigits_ne_nil

theorem val_digit {n : Nat} (h : n < 10) : (Fin.ofNat 256 (48 + n) : Fin 256).val = 48 + n := by
  show (48 + n) % 256 = 48 + n
  omega

/-- The bytes of a number are digits. -/
theorem digit_of_mem_number {n : Nat} {c : Fin 256} (h : c ∈ number n) : 48 ≤ c.val ∧ c.val ≤ 57 := by
  induction n using Nat.strong_induction_on with
  | _ n ih =>
    rw [number_eq] at h
    split at h
    · rename_i hn
      rw [List.mem_singleton.mp h, val_digit hn]
      omega
    · rcases List.mem_append.mp h with h | h
      · exact ih (n / 10) (by omega) h
      · rw [List.mem_singleton.mp h, val_digit (by omega)]
        omega

theorem foldlM_number (n : Nat) : (number n).foldlM readDigit 0 = some n := by
  induction n using Nat.strong_induction_on with
  | _ n ih =>
    rw [number_eq]
    split
    · rename_i hn
      rw [List.foldlM_cons, readDigit, val_digit hn, if_pos (by omega)]
      simp
    · rw [List.foldlM_append, ih (n / 10) (by omega), Option.bind_eq_bind, Option.bind_some, List.foldlM_cons,
        readDigit, val_digit (by omega), if_pos (by omega)]
      have hn : 10 * (n / 10) + (48 + n % 10 - 48) = n := by omega
      rw [hn]
      rfl

theorem readNumber_number (n : Nat) : readNumber (number n) = some n := by
  unfold readNumber
  rw [if_neg (number_ne_nil n)]
  exact foldlM_number n

/-! ## One line -/

theorem upTo_append {c : Fin 256} {a t : Text} (h : c ∉ a) : upTo c (a ++ c :: t) = some (a, t) := by
  induction a with
  | nil => simp [upTo]
  | cons x a ih =>
    have hx : x ≠ c := fun hx => h (hx ▸ List.mem_cons_self)
    rw [List.cons_append, upTo, if_neg hx, ih fun ha => h (List.mem_cons_of_mem _ ha)]
    rfl

/-- What is read up to a byte does not have it. -/
theorem not_mem_of_upTo {c : Fin 256} {a t t' : Text} (h : upTo c t = some (a, t')) : c ∉ a := by
  induction t generalizing a with
  | nil => cases h
  | cons x t ih =>
    rw [upTo] at h
    split at h
    · cases h
      exact List.not_mem_nil
    · rename_i hx
      obtain ⟨p, hp, h⟩ := Option.map_eq_some_iff.mp h
      cases h
      rw [List.mem_cons, not_or]
      exact ⟨fun hc => hx hc.symm, ih hp⟩

/-- A line whose fixed parts can be read: all of it, but for the label. -/
def Line.Proper : Line → Prop
  | .comment text => newline ∉ text
  | .sample name key _ _ =>
    openBrace ∉ name ∧ equals ∉ key ∧ newline ∉ name ∧ newline ∉ key ∧ name.head? ≠ some hash

instance : DecidablePred Line.Proper := fun l => by
  cases l <;> unfold Line.Proper <;> infer_instance

/-- The label can be read back. -/
def CleanLabel (label : Text) : Prop := quote ∉ label ∧ newline ∉ label

instance (label : Text) : Decidable (CleanLabel label) := inferInstanceAs (Decidable (_ ∧ _))

def Line.Clean : Line → Prop
  | .comment _ => True
  | .sample _ _ label _ => CleanLabel label

theorem readSample_head {name key t : Text} (hname : openBrace ∉ name) (hkey : equals ∉ key) :
    readSample (head name key ++ t) = do
      let (label, t) ← upTo quote t
      let t ← expect 125 t
      let t ← expect 32 t
      let value ← readNumber t
      return .sample name key label value := by
  have hhead : head name key ++ t = name ++ openBrace :: (key ++ equals :: quote :: t) := by simp [head]
  unfold readSample
  rw [hhead, upTo_append hname]
  simp only [Option.bind_eq_bind, Option.bind_some]
  rw [upTo_append hkey]
  simp only [Option.bind_some, expect, if_true]

theorem readLine_of_ne {x : Fin 256} {t : Text} (h : x ≠ hash) : readLine (x :: t) = readSample (x :: t) := if_neg h

/-- A line that does not start with `#` is read as a sample. -/
theorem readLine_head {name key t : Text} (h : name.head? ≠ some hash) :
    readLine (head name key ++ t) = readSample (head name key ++ t) := by
  cases name with
  | nil => exact readLine_of_ne (by decide)
  | cons x name => exact readLine_of_ne fun hx => h (congrArg some hx)

/-- A line is read back exactly when its label has no quote. -/
theorem readLine_text {l : Line} (h : l.Proper) :
    readLine l.text = some l ↔ ∀ name key label value, l = .sample name key label value → quote ∉ label := by
  cases l with
  | comment text => simp [Line.text, readLine]
  | sample name key label value =>
    obtain ⟨hname, hkey, -, -, hhash⟩ := h
    have hread : readLine (Line.sample name key label value).text = _ :=
      (readLine_head hhash).trans (readSample_head hname hkey)
    rw [hread]
    constructor
    · intro h name' key' label' value' heq
      cases heq
      obtain ⟨p, hp, h⟩ := Option.bind_eq_some_iff.mp h
      obtain ⟨_, -, h⟩ := Option.bind_eq_some_iff.mp h
      obtain ⟨_, -, h⟩ := Option.bind_eq_some_iff.mp h
      obtain ⟨_, -, h⟩ := Option.bind_eq_some_iff.mp h
      cases h
      exact not_mem_of_upTo hp
    · intro h
      rw [upTo_append (h name key label value rfl)]
      simp only [Option.bind_eq_bind, Option.bind_some, expect, if_true, readNumber_number]
      rfl

/-! ## The lines of a text -/

theorem splitOn_unlines {ls : List Text} (h : ∀ l ∈ ls, newline ∉ l) : (unlines ls).splitOn newline = ls ++ [[]] := by
  induction ls with
  | nil => rfl
  | cons l ls ih =>
    have happ : unlines (l :: ls) = l ++ newline :: unlines ls := by simp [unlines]
    rw [happ, List.splitOn_append_cons_self_of_not_mem (h l List.mem_cons_self),
      ih fun l' hl => h l' (List.mem_cons_of_mem _ hl)]
    rfl

theorem length_splitOn (t : Text) : (t.splitOn newline).length = t.count newline + 1 := by
  induction t with
  | nil => rfl
  | cons x t ih =>
    rw [List.splitOn_cons_eq_if_modifyHead]
    split
    · rename_i hx
      rw [List.length_cons, ih, beq_iff_eq.mp hx, List.count_cons_self]
    · rename_i hx
      rw [List.length_modifyHead, ih, List.count_cons_of_ne fun h => hx (beq_iff_eq.mpr h)]

theorem count_unlines (ls : List Text) :
    (unlines ls).count newline = (ls.map fun l => l.count newline + 1).sum := by
  unfold unlines
  rw [List.count_flatMap]
  congr 1
  apply List.map_congr_left
  intro l _
  simp

/-- Every line has its end. -/
theorem length_le_count_unlines (ls : List Text) : ls.length ≤ (unlines ls).count newline := by
  rw [count_unlines]
  induction ls with
  | nil => simp
  | cons l ls ih =>
    rw [List.length_cons, List.map_cons, List.sum_cons]
    omega

/-- A line with an end of line in it makes the text longer than the lines. -/
theorem not_mem_of_length {ls : List Text} (h : ((unlines ls).splitOn newline).length ≤ ls.length + 1) :
    ∀ l ∈ ls, newline ∉ l := by
  rw [length_splitOn, count_unlines] at h
  induction ls with
  | nil => simp
  | cons l ls ih =>
    rw [List.map_cons, List.sum_cons, List.length_cons] at h
    have hls := length_le_count_unlines ls
    rw [count_unlines] at hls
    intro l' hl'
    rcases List.mem_cons.mp hl' with rfl | hl'
    · exact List.count_eq_zero.mp (by omega)
    · exact ih (by omega) l' hl'

theorem mapM_eq_some_self {ls : List Line} : (ls.map Line.text).mapM readLine = some ls ↔
    ∀ l ∈ ls, readLine l.text = some l := by
  induction ls with
  | nil => simp
  | cons l ls ih =>
    rw [List.map_cons, List.mapM_cons, List.forall_mem_cons, ← ih]
    constructor
    · intro h
      obtain ⟨l', hl', h⟩ := Option.bind_eq_some_iff.mp h
      obtain ⟨ls', hls', h⟩ := Option.bind_eq_some_iff.mp h
      cases h
      exact ⟨hl', hls'⟩
    · rintro ⟨hl, hls⟩
      rw [hl, hls]
      rfl

theorem length_of_mapM {ts : List Text} {ls : List Line} (h : ts.mapM readLine = some ls) : ls.length = ts.length := by
  induction ts generalizing ls with
  | nil =>
    cases h
    rfl
  | cons t ts ih =>
    rw [List.mapM_cons] at h
    obtain ⟨l, -, h⟩ := Option.bind_eq_some_iff.mp h
    obtain ⟨ls', hls', h⟩ := Option.bind_eq_some_iff.mp h
    cases h
    rw [List.length_cons, List.length_cons, ih hls']

theorem Line.newline_text {l : Line} (h : l.Proper) :
    newline ∉ l.text ↔ ∀ name key label value, l = .sample name key label value → newline ∉ label := by
  cases l with
  | comment text =>
    have htext : newline ∉ hash :: text := by
      rw [List.mem_cons, not_or]
      exact ⟨by decide, h⟩
    constructor
    · rintro - _ _ _ _ ⟨⟩
    · intro _
      exact htext
  | sample name key label value =>
    obtain ⟨-, -, hname, hkey, -⟩ := h
    have hvalue : newline ∉ number value := fun hn => absurd (digit_of_mem_number hn).1 (by decide)
    obtain ⟨hopen, heq, hquote, hclose, hblank⟩ : newline ≠ openBrace ∧ newline ≠ equals ∧ newline ≠ quote ∧
      newline ≠ 125 ∧ newline ≠ 32 := by decide
    simp only [Line.text, head, List.mem_append, List.mem_cons, not_or]
    constructor
    · rintro ⟨-, hlabel, -⟩ _ _ _ _ ⟨⟩
      exact hlabel
    · intro hlabel
      exact ⟨⟨hname, hopen, hkey, heq, hquote, List.not_mem_nil⟩, hlabel _ _ _ _ rfl, hquote, hclose, hblank, hvalue⟩

/-- **Reading back.**  A text is read as the lines it was written from exactly when every label can be. -/
theorem read_render {ls : List Line} (h : ∀ l ∈ ls, l.Proper) : read (render ls) = some ls ↔ ∀ l ∈ ls, l.Clean := by
  have hclean : (∀ l ∈ ls, l.Clean) ↔ (∀ l ∈ ls, newline ∉ l.text) ∧ ∀ l ∈ ls, readLine l.text = some l := by
    rw [← forall₂_and]
    apply forall₂_congr
    intro l hl
    rw [Line.newline_text (h l hl), readLine_text (h l hl)]
    cases l with
    | comment text => simp [Line.Clean]
    | sample name key label value =>
      constructor
      · rintro ⟨hquote, hnl⟩
        constructor
        · rintro _ _ _ _ ⟨⟩
          exact hnl
        · rintro _ _ _ _ ⟨⟩
          exact hquote
      · rintro ⟨hnl, hquote⟩
        exact ⟨hquote _ _ _ _ rfl, hnl _ _ _ _ rfl⟩
  rw [hclean]
  unfold read render
  constructor
  · intro hread
    split at hread
    · have hlen := length_of_mapM hread
      rw [List.length_dropLast] at hlen
      have hnl := @not_mem_of_length (ls.map Line.text) (by rw [List.length_map]; omega)
      rw [splitOn_unlines hnl, List.dropLast_concat, mapM_eq_some_self] at hread
      exact ⟨fun l hl => hnl _ (List.mem_map_of_mem hl), hread⟩
    · cases hread
  · rintro ⟨hnl, hread⟩
    have hnl' : ∀ t ∈ ls.map Line.text, newline ∉ t := by
      intro t ht
      obtain ⟨l, hl, rfl⟩ := List.mem_map.mp ht
      exact hnl l hl
    rw [splitOn_unlines hnl', List.getLast?_concat, if_pos rfl, List.dropLast_concat]
    exact mapM_eq_some_self.mpr hread

end Exposition

end Strfry
