import Strfry.Filters
import Strfry.Lib.Buffer

/-!
# The search of a byte set, access by access

`FilterSetBytes` (`filters.h`) casts the offset of a value to 16 bits and its size to 8 before it
knows whether the buffer is small enough, and `doesMatch` then reads items and slices of the buffer
without checks.  `search` is that loop with `ssize_t` positions, in which a read outside the items
or the buffer is undefined:

    s.search candidate = some (.ok (s.doesMatch candidate))                   (search_eq)

always, within as many turns as there are items.  In a set that was constructed the records are
those of its values (`Compact`): nothing was truncated.
-/

namespace Strfry

namespace FilterSetBytes

/-! ## The loop -/

/-- `items[i]`. -/
def itemAt (s : FilterSetBytes) (i : Int) : Except Err Item :=
  orUndefined (if 0 ≤ i then s.items[i.toNat]? else none)

/-- The `string_view` of an item. -/
def viewOf (s : FilterSetBytes) (it : Item) : Except Err Bytes := orUndefined (Buffer.read s.buf it.offset it.size)

def comp (s : FilterSetBytes) (candidate : Bytes) (curr : Int) : Except Err Bool := do
  let it ← s.itemAt curr
  if candidate ≠ [] ∧ it.size ≠ 0 ∧ candidate.headD 0 ≠ it.firstByte then
    return decide (candidate.headD 0 < it.firstByte)
  else
    let view ← s.viewOf it
    return decide (candidate < view)

/-- The loop: where it ends, or `none` when it needs more turns than `fuel`. -/
def searchLoop (s : FilterSetBytes) (candidate : Bytes) : Nat → Int → Int → Option (Except Err Int)
  | fuel, first, count =>
    if count > 0 then
      match fuel with
      | 0 => none
      | fuel + 1 =>
        let step := count / 2
        let curr := first + step
        match s.comp candidate curr with
        | .error e => some (.error e)
        | .ok true => searchLoop s candidate fuel first step
        | .ok false => searchLoop s candidate fuel (curr + 1) (count - (step + 1))
    else some (.ok first)

/-- What `doesMatch` does once the loop has ended. -/
def matchAt (s : FilterSetBytes) (candidate : Bytes) (first : Int) : Except Err Bool :=
  if first = 0 then .ok false
  else do
    let it ← s.itemAt (first - 1)
    let view ← s.viewOf it
    return decide (candidate = view)

/-- `doesMatch`, with every access. -/
def search (s : FilterSetBytes) (candidate : Bytes) : Option (Except Err Bool) :=
  (s.searchLoop candidate s.items.length 0 s.items.length).map fun first => first >>= s.matchAt candidate

section
variable (s : FilterSetBytes) (candidate : Bytes)

theorem itemAt_eq {i : Nat} (hi : i < s.items.length) : s.itemAt i = .ok s.items[i] := by
  unfold itemAt
  rw [if_pos (Int.natCast_nonneg i), Int.toNat_natCast, List.getElem?_eq_getElem hi]
  rfl

theorem viewOf_eq {it : Item} (hit : it ∈ s.items) : s.viewOf it = .ok (slice s.buf it) := by
  unfold viewOf Buffer.read
  rw [if_pos (s.bounds it hit)]
  rfl

theorem comp_eq {i : Nat} (hi : i < s.items.length) : s.comp candidate i = .ok (s.below candidate i) := by
  unfold comp below
  rw [s.itemAt_eq hi, List.getElem?_eq_getElem hi]
  show (if _ then _ else _) = _
  dsimp only
  split
  · rfl
  · rw [s.viewOf_eq (List.getElem_mem hi)]
    rfl

/-- One position after the other is inside, and there are always fewer left. -/
theorem searchLoop_eq (fuel first count : Nat) (hfuel : count ≤ fuel) (hin : first + count ≤ s.items.length) :
    s.searchLoop candidate fuel first count = some (.ok (upperBound (s.below candidate) fuel first count : Nat)) := by
  induction fuel generalizing first count with
  | zero =>
    obtain rfl : count = 0 := by omega
    rfl
  | succ fuel ih =>
    unfold searchLoop upperBound
    by_cases hcount : count > 0
    · rw [if_pos (by omega), if_pos hcount]
      have hstep : (count : Int) / 2 = (count / 2 : Nat) := by omega
      have hcurr : (first : Int) + (count / 2 : Nat) = (first + count / 2 : Nat) := by omega
      dsimp only
      rw [hstep, hcurr, s.comp_eq candidate (i := first + count / 2) (by omega)]
      cases s.below candidate (first + count / 2) with
      | true => exact ih first (count / 2) (by omega) (by omega)
      | false =>
        have hnext : ((first + count / 2 : Nat) : Int) + 1 = (first + count / 2 + 1 : Nat) := by omega
        have hleft : (count : Int) - ((count / 2 : Nat) + 1) = (count - (count / 2 + 1) : Nat) := by omega
        rw [hnext, hleft]
        exact ih (first + count / 2 + 1) (count - (count / 2 + 1)) (by omega) (by omega)
    · rw [if_neg (by omega), if_neg hcount]

/-- **The search is safe.**  It comes back, reads nothing outside, and answers as `doesMatch`. -/
theorem search_eq : s.search candidate = some (.ok (s.doesMatch candidate)) := by
  have hle := upperBound_le (s.below candidate) s.items.length 0 s.items.length
  unfold search doesMatch
  have hloop := s.searchLoop_eq candidate s.items.length 0 s.items.length (Nat.le_refl _) (by omega)
  rw [Int.natCast_zero] at hloop
  rw [hloop]
  dsimp only
  generalize upperBound (s.below candidate) s.items.length 0 s.items.length = first at hle
  show some (s.matchAt candidate first) = _
  unfold matchAt
  cases first with
  | zero => rfl
  | succ k =>
    have hk : k < s.items.length := by omega
    have hprev : ((k + 1 : Nat) : Int) - 1 = (k : Nat) := by omega
    rw [if_neg (by omega), hprev, s.itemAt_eq hk]
    dsimp only
    rw [List.getElem?_eq_getElem hk]
    show some (do
      let view ← s.viewOf s.items[k]
      return decide (candidate = view)) = _
    rw [s.viewOf_eq (List.getElem_mem hk)]
    rfl

end

/-! ## The records -/

/-- The items and the buffer are those of the values `D`: every offset is the length of what was in
the buffer before the value, and every size its length. -/
structure Compact (s : FilterSetBytes) (D : List Bytes) : Prop where
  buf : s.buf = D.flatten
  size : s.size = D.length
  exact : ∀ (i : Nat) (it : Item) (x : Bytes), s.items[i]? = some it → D[i]? = some x →
    it.offset = (D.take i).flatten.length ∧ it.size = x.length
  fits : s.buf.length < 2 ^ 16

/-- The casts of `layout` change nothing while the buffer is small enough. -/
theorem layout_exact {xs : List Bytes} {off : Nat} (hx : ∀ x ∈ xs, x.length ≤ 255)
    (hlen : off + xs.flatten.length ≤ 65535) {i : Nat} {it : Item} {x : Bytes} (hit : (layout off xs)[i]? = some it)
    (hi : xs[i]? = some x) : it.offset = off + (xs.take i).flatten.length ∧ it.size = x.length := by
  induction xs generalizing off i with
  | nil => cases hi
  | cons y ys ih =>
    rw [List.flatten_cons, List.length_append] at hlen
    have hy := hx y List.mem_cons_self
    cases i with
    | zero =>
      obtain rfl : y = x := Option.some.inj hi
      cases hit
      constructor
      · show off % 65536 = off + 0
        omega
      · show y.length % 256 = y.length
        omega
    | succ i =>
      rw [layout, List.getElem?_cons_succ] at hit
      rw [List.getElem?_cons_succ] at hi
      obtain ⟨hoff, hsize⟩ := ih (fun z hz => hx z (List.mem_cons_of_mem _ hz)) (by omega) hit hi
      refine ⟨?_, hsize⟩
      rw [hoff, List.take_succ_cons, List.flatten_cons, List.length_append, Nat.add_assoc]

theorem length_layout (off : Nat) (xs : List Bytes) : (layout off xs).length = xs.length := by
  induction xs generalizing off with
  | nil => rfl
  | cons x xs ih => rw [layout, List.length_cons, List.length_cons, ih]

/-- What the constructor leaves: the values in order, laid out in a small buffer. -/
theorem ofList_ok {arr : List Bytes} {hsize : ∀ x ∈ arr, x.length ≤ maxIndexedTagValSize} {s : FilterSetBytes}
    (h : ofList arr hsize = .ok s) : ∃ D : List Bytes, (∀ x ∈ D, x.length ≤ 255) ∧ D.flatten.length ≤ 65535 ∧
      s.items = layout 0 D ∧ s.buf = D.flatten := by
  unfold ofList at h
  split at h
  · cases h
  · rename_i hbuf
    refine ⟨dropRepeats none (arr.insertionSort (· ≤ ·)), ?_, by omega, ?_, ?_⟩
    · intro x hx
      have hmem := ((mem_dropRepeats _ none x).mp (Or.inl hx)).resolve_right (by simp)
      exact hsize x ((List.perm_insertionSort _ _).mem_iff.mp hmem)
    · cases h
      rfl
    · cases h
      rfl

theorem compact_ofList {arr : List Bytes} {hsize : ∀ x ∈ arr, x.length ≤ maxIndexedTagValSize} {s : FilterSetBytes}
    (h : ofList arr hsize = .ok s) : s.Compact s.elems := by
  obtain ⟨D, hD, hlen, hitems, hbuf⟩ := ofList_ok h
  have helems : s.elems = D := by
    have hlay := (layout_spec D [] hD (by rw [List.length_nil]; omega)).1
    unfold elems
    rw [hitems, hbuf]
    exact hlay
  rw [helems]
  refine ⟨hbuf, ?_, fun i it x hit hx => ?_, ?_⟩
  · unfold size
    rw [hitems, length_layout]
  · rw [hitems] at hit
    have hexact := layout_exact hD (by omega) hit hx
    rwa [Nat.zero_add] at hexact
  · rw [hbuf]
    omega

/-! ## The constructor -/

section
variable [Golpe]

/-- The values the constructor is given. -/
def decoded (arrHex : Json) (hexDecode : Bool) : Except Err (List Bytes) := do
  let l ← arrHex.getArray
  l.mapM fun i => do decodeItem hexDecode (← i.getString)

theorem mapM_decoded {hexDecode : Bool} {minSize maxSize : Nat} {hmax : maxSize ≤ maxIndexedTagValSize} {l : List Json}
    {arr : List { b : Bytes // b.length ≤ maxIndexedTagValSize }}
    (h : l.mapM (item hexDecode minSize maxSize hmax) = .ok arr) :
    l.mapM (fun i => do decodeItem hexDecode (← i.getString)) = .ok (arr.map Subtype.val) := by
  induction l generalizing arr with
  | nil =>
    cases h
    rfl
  | cons i l ih =>
    rw [List.mapM_cons] at h ⊢
    obtain ⟨b, hb, h⟩ := bind_eq_ok.mp h
    obtain ⟨bs, hbs, h⟩ := bind_eq_ok.mp h
    cases h
    unfold item at hb
    obtain ⟨str, hstr, hb⟩ := bind_eq_ok.mp hb
    obtain ⟨bytes, hbytes, hb⟩ := bind_eq_ok.mp hb
    have hval : bytes = b.val := by
      split at hb
      · cases hb
      · split at hb
        · cases hb
        · cases hb
          rfl
    rw [hstr, ih hbs]
    have hfirst : (do decodeItem hexDecode (← Except.ok str)) = (Except.ok b.val : Except Err Bytes) := by
      rw [← hval]
      exact hbytes
    rw [hfirst]
    rfl

/-- **Compact byte sets.**  A set that was constructed has the distinct values it was given, in
increasing order and with nothing truncated, and the search for any string comes back, stays inside
the items and the buffer, and finds the string when it is one of the values. -/
theorem compact_set {arrHex : Json} {hexDecode : Bool} {minSize maxSize : Nat} {s : FilterSetBytes}
    (h : ofJson arrHex hexDecode minSize maxSize = .ok s) : ∃ arr D, decoded arrHex hexDecode = .ok arr ∧
      D.Pairwise (· < ·) ∧ (∀ x, x ∈ D ↔ x ∈ arr) ∧ s.Compact D ∧
      (∀ (n : Nat) (hn : n < D.length), s.atIdx n = .ok D[n]) ∧
      ∀ candidate, s.search candidate = some (.ok (decide (candidate ∈ arr))) := by
  unfold ofJson at h
  split at h
  · cases h
  · obtain ⟨l, hl, h⟩ := bind_eq_ok.mp h
    obtain ⟨arr, harr, h⟩ := bind_eq_ok.mp h
    have hmem := mem_elems_ofList h
    refine ⟨arr.map Subtype.val, s.elems, ?_, s.sorted, hmem, compact_ofList h, s.atIdx_eq, fun candidate => ?_⟩
    · unfold decoded
      rw [hl]
      exact mapM_decoded harr
    · have hiff : s.doesMatch candidate = decide (candidate ∈ arr.map Subtype.val) := by
        rw [Bool.eq_iff_iff, s.doesMatch_iff, hmem, decide_eq_true_iff]
      rw [s.search_eq, hiff]

end

/-- An empty value, repeated values, not in order. -/
theorem compact_set_repeated : let _ : Golpe := Golpe.plain
    let values := [ascii "b", [], ascii "ab", ascii "b"]
    ∃ s, ofJson (.array (values.map .string)) false 0 255 = .ok s ∧ s.size = 3 ∧
      s.search [] = some (.ok true) ∧ s.search (ascii "ab") = some (.ok true) ∧ s.search (ascii "a") = some (.ok false) := by
  intro _ values
  obtain ⟨s, hs, hsize⟩ := exists_of_okAnd (show okAnd (fun s => s.size == 3)
    (ofJson (.array (values.map .string)) false 0 255) = true by decide +kernel)
  obtain ⟨arr, D, harr, -, -, -, -, hsearch⟩ := compact_set hs
  obtain rfl : values = arr := Except.ok.inj (show Except.ok values = _ from harr)
  refine ⟨s, hs, beq_iff_eq.mp hsize, ?_, ?_, ?_⟩
  · rw [hsearch]
    decide
  · rw [hsearch]
    decide
  · rw [hsearch]
    decide

end FilterSetBytes

end Strfry
