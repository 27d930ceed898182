import Strfry.EventsWrite

/-!
# Fried lines

A line of `export --fried` (`cmd_export.cpp`) is the JSON of an event with one more member at
its end, the hex dump of the packed event:

    …,"fried":"<hex>"}

`parseFried` (`cmd_import.cpp`) does not parse JSON.  It looks backwards for the quote that opens
the hex digits, checks what stands before it, and cuts the member off again
(`parseFried_friedLine`).
-/

namespace Strfry

/-- The quote and the closing brace. -/
def quote : Byte := 34

def closeBrace : Byte := 125

/-- `,"fried":"`. -/
def friedKey : Bytes := ascii ",\"fried\":\""

/-- A line of the export, without its newline. -/
def friedLine (json packed : Bytes) : Bytes :=
  json.dropLast ++ friedKey ++ toHex packed ++ [quote, closeBrace]

/-- The loop of `parseFried`: the last quote at or before a position, or the first character. -/
def lastQuote (line : Bytes) : Nat → Nat
  | 0 => 0
  | i + 1 => if (line)[i + 1]? = some quote then i + 1 else lastQuote line i

def parseFried [Golpe] (line : Bytes) : Except Err EventToWrite := do
  let _ ← throwIf (line.length < 64) (.herr "fried too small")
  let _ ← throwIf (¬ [quote, closeBrace] <:+ line) (.herr "fried parse error")
  let i := lastQuote line (line.length - 3)
  let _ ← throwIf (¬ friedKey <:+ line.take (i + 1)) (.herr "fried parse error")
  let packed ← fromHex ((line.drop (i + 1)).take (line.length - i - 3))
  return { packedStr := packed, jsonStr := line.take (i - 9) ++ [closeBrace] }

theorem hexDigit_ne_quote : ∀ n : Fin 16,
    (Fin.ofNat 256 (if n.val < 10 then 48 + n.val else 87 + n.val) : Byte) ≠ quote := by
  decide

theorem toHex_ne_quote (b : Bytes) : ∀ x ∈ toHex b, x ≠ quote := by
  induction b with
  | nil => simp [toHex]
  | cons y b ih =>
    intro x hx
    rw [toHex_cons] at hx
    rcases List.mem_cons.mp hx with rfl | hx
    · exact hexDigit_ne_quote ⟨y.val / 16, by omega⟩
    · rcases List.mem_cons.mp hx with rfl | hx
      · exact hexDigit_ne_quote ⟨y.val % 16, by omega⟩
      · exact ih x hx

theorem length_toHex (b : Bytes) : (toHex b).length = 2 * b.length := by
  induction b with
  | nil => rfl
  | cons y b ih =>
    rw [toHex_cons]
    simp only [List.length_cons, ih]
    omega

/-- The loop stops at a quote that no other one follows. -/
theorem lastQuote_eq {line : Bytes} {q i : Nat} (hq : (line)[q]? = some quote) (hle : q ≤ i)
    (hnone : ∀ j, q < j → j ≤ i → (line)[j]? ≠ some quote) : lastQuote line i = q := by
  induction i with
  | zero =>
    have : q = 0 := by omega
    rw [this]
    rfl
  | succ i ih =>
    unfold lastQuote
    by_cases he : q = i + 1
    · rw [← he, if_pos hq]
    · rw [if_neg (hnone (i + 1) (by omega) (Nat.le_refl _))]
      exact ih (by omega) fun j hj hji => hnone j hj (by omega)

/-- **A line of the export is read back**, whatever the JSON holds. -/
theorem parseFried_friedLine [Golpe] (hhex : ∀ b, Golpe.fromHex (toHex b) = some b) {json packed : Bytes}
    (hjson : ∃ body, json = body ++ [closeBrace]) (hpacked : 88 ≤ packed.length) :
    parseFried (friedLine json packed) = .ok { packedStr := packed, jsonStr := json } := by
  obtain ⟨body, rfl⟩ := hjson
  have hline : friedLine (body ++ [closeBrace]) packed =
      body ++ (friedKey ++ (toHex packed ++ [quote, closeBrace])) := by
    simp [friedLine]
  have hkey : friedKey.length = 10 := by decide
  have hhexlen := length_toHex packed
  rw [hline]
  generalize hl : body ++ (friedKey ++ (toHex packed ++ [quote, closeBrace])) = line
  have hlen : line.length = body.length + 10 + 2 * packed.length + 2 := by
    rw [← hl]
    simp only [List.length_append, hkey, hhexlen, List.length_cons, List.length_nil]
    omega
  -- the character at the end of the key is the last quote before the closing one
  have hat : ∀ j, (line)[body.length + j]? = (friedKey ++ (toHex packed ++ [quote, closeBrace]))[j]? := by
    intro j
    rw [← hl, List.getElem?_append_right (by omega), Nat.add_sub_cancel_left]
  have hq : (line)[body.length + 9]? = some quote := by
    rw [hat, List.getElem?_append_left (by omega)]
    decide
  have hi : lastQuote line (line.length - 3) = body.length + 9 := by
    refine lastQuote_eq hq (by omega) fun j hj hji he => ?_
    obtain ⟨k, rfl⟩ : ∃ k, j = body.length + (10 + k) := ⟨j - (body.length + 10), by omega⟩
    rw [hat, List.getElem?_append_right (by omega), hkey, Nat.add_sub_cancel_left,
      List.getElem?_append_left (by omega)] at he
    exact toHex_ne_quote packed _ (List.mem_of_getElem? he) rfl
  have htake : line.take (body.length + 10) = body ++ friedKey := by
    rw [← hl, ← List.append_assoc, List.take_left' (by simp [hkey])]
  have hdrop : line.drop (body.length + 10) = toHex packed ++ [quote, closeBrace] := by
    rw [← hl, ← List.append_assoc, List.drop_left' (by simp [hkey])]
  have hsuffix : [quote, closeBrace] <:+ line := by
    rw [← hl]
    exact ⟨body ++ (friedKey ++ toHex packed), by simp⟩
  have hcut : (line.drop (body.length + 10)).take (line.length - (body.length + 9) - 3) = toHex packed := by
    rw [hdrop, List.take_left' (by omega)]
  have hbody : line.take body.length = body := by
    rw [← hl, List.take_left' rfl]
  unfold parseFried
  simp only [hi]
  refine bind_eq_ok.mpr ⟨(), throwIf_eq_ok.mpr (by omega), bind_eq_ok.mpr
    ⟨(), throwIf_eq_ok.mpr (not_not_intro hsuffix), bind_eq_ok.mpr ⟨(), throwIf_eq_ok.mpr ?_, ?_⟩⟩⟩
  · rw [htake]
    exact not_not_intro ⟨body, rfl⟩
  · rw [hcut, fromHex, hhex]
    show Except.ok _ = _
    rw [Nat.add_sub_cancel, hbody]

end Strfry
