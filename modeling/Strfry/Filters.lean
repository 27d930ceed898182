import Strfry.Events
import Strfry.Lib.Order

/-!
# Filters

`FilterSetBytes` and `FilterSetUint` are the sets of values of one filter field,
`NostrFilter` a compiled filter and `NostrFilterGroup` the filters of one request
(`filters.h`).

A `FilterSetBytes` keeps its values back to back in one buffer and finds a candidate
by binary search over (offset, size, first byte) records.  That the records describe
strictly increasing slices of the buffer is a field of the structure; the constructor
proves it, and the search is membership:

    s.doesMatch c = true ↔ c ∈ s.elems                      (FilterSetBytes.doesMatch_iff)
-/

namespace Strfry

/-! ## `FilterSetBytes` -/

namespace FilterSetBytes

/-- `offset` is a `uint16_t`, `size` a `uint8_t`. -/
structure Item where
  offset : Nat
  size : Nat
  firstByte : Byte
deriving DecidableEq

/-- The bytes an item stands for. -/
def slice (buf : Bytes) (it : Item) : Bytes := (buf.drop it.offset).take it.size

end FilterSetBytes

open FilterSetBytes in
structure FilterSetBytes where
  items : List Item
  buf : Bytes
  bounds : ∀ it ∈ items, it.offset + it.size ≤ buf.length
  first : ∀ it ∈ items, 0 < it.size → buf[it.offset]? = some it.firstByte
  sorted : (items.map (slice buf)).Pairwise (· < ·)

namespace FilterSetBytes

/-- The records of values laid out from `off` on, as the constructor's casts leave them. -/
def layout : Nat → List Bytes → List Item
  | _, [] => []
  | off, x :: xs => ⟨off % 65536, x.length % 256, x.headD 0⟩ :: layout (off + x.length) xs

/-- Without truncation the records read back the values. -/
theorem layout_spec (xs : List Bytes) : ∀ (pre : Bytes), (∀ x ∈ xs, x.length ≤ 255) →
    pre.length + xs.flatten.length ≤ 65535 →
    (layout pre.length xs).map (slice (pre ++ xs.flatten)) = xs ∧
    ∀ it ∈ layout pre.length xs, it.offset + it.size ≤ (pre ++ xs.flatten).length ∧
      (0 < it.size → (pre ++ xs.flatten)[it.offset]? = some it.firstByte) := by
  induction xs with
  | nil => intro pre _ _; simp [layout]
  | cons x xs ih =>
    intro pre hx hlen
    simp only [List.flatten_cons, List.length_append] at hlen
    have hxl := hx x List.mem_cons_self
    obtain ⟨ih1, ih2⟩ := ih (pre ++ x) (fun y hy => hx y (List.mem_cons_of_mem _ hy))
      (by simp only [List.length_append]; omega)
    have hbuf : pre ++ (x :: xs).flatten = pre ++ x ++ xs.flatten := by simp
    have hoff : pre.length % 65536 = pre.length := Nat.mod_eq_of_lt (by omega)
    have hsz : x.length % 256 = x.length := Nat.mod_eq_of_lt (by omega)
    rw [hbuf]
    simp only [List.length_append] at ih1 ih2
    simp only [layout, List.map_cons, hoff, hsz]
    refine ⟨?_, ?_⟩
    · rw [ih1]
      congr 1
      simp only [slice, List.append_assoc, List.drop_left]
      exact List.take_left
    · intro it hit
      rcases List.mem_cons.mp hit with rfl | hit
      · refine ⟨by simp only [List.length_append]; omega, fun hpos => ?_⟩
        have hp : 0 < x.length := hpos
        simp only [List.append_assoc]
        rw [List.getElem?_append_right (by omega), Nat.sub_self,
          List.getElem?_append_left (by omega)]
        cases x with
        | nil => simp at hp
        | cons b bs => rfl
      · obtain ⟨h1, h2⟩ := ih2 it hit
        exact ⟨by simp only [List.length_append] at h1 ⊢; omega, h2⟩

theorem pairwise_sorted {α : Type} [LinearOrder α] (l : List α) :
    (l.insertionSort (· ≤ ·)).Pairwise (· ≤ ·) :=
  List.pairwise_insertionSort _ l

/-- The rest of the constructor once the values are decoded: sort, drop repeated values,
lay out, and refuse a buffer too large for the offsets. -/
def ofList (arr : List Bytes) (hsize : ∀ x ∈ arr, x.length ≤ maxIndexedTagValSize) :
    Except Err FilterSetBytes :=
  if hbuf : (dropRepeats none (arr.insertionSort (· ≤ ·))).flatten.length > 65535 then
    .error (.herr "total filter items too large")
  else
    have hmem : ∀ x ∈ dropRepeats none (arr.insertionSort (· ≤ ·)), x.length ≤ 255 := fun x hx => by
      have := ((mem_dropRepeats _ none x).mp (Or.inl hx)).resolve_right (by simp)
      exact hsize x ((List.perm_insertionSort _ _).mem_iff.mp this)
    have hlay := layout_spec _ [] hmem (by simp only [List.length_nil]; omega)
    .ok {
      items := layout 0 (dropRepeats none (arr.insertionSort (· ≤ ·)))
      buf := (dropRepeats none (arr.insertionSort (· ≤ ·))).flatten
      bounds := fun it hit => (hlay.2 it hit).1
      first := fun it hit => (hlay.2 it hit).2
      sorted := by
        have h := hlay.1
        simp only [List.nil_append, List.length_nil] at h
        rw [h]
        exact (dropRepeats_pairwise_lt _ none (pairwise_sorted arr) (by simp)).1 }

section
variable [Golpe]

/-- The bytes of one element of the JSON array. -/
def decodeItem (hexDecode : Bool) (s : Bytes) : Except Err Bytes :=
  if hexDecode then fromHex s else .ok s

/-- One element of the JSON array: decoded and of an allowed size. -/
def item (hexDecode : Bool) (minSize maxSize : Nat) (hmax : maxSize ≤ maxIndexedTagValSize)
    (i : Json) : Except Err { b : Bytes // b.length ≤ maxIndexedTagValSize } := do
  let s ← i.getString
  let b ← decodeItem hexDecode s
  if b.length < minSize then .error (.herr "filter item too small")
  else if h : b.length > maxSize then .error (.herr "filter item too large")
  else .ok ⟨b, by omega⟩

/-- `FilterSetBytes::FilterSetBytes`. -/
def ofJson (arrHex : Json) (hexDecode : Bool) (minSize maxSize : Nat) :
    Except Err FilterSetBytes :=
  if hmax : maxSize > maxIndexedTagValSize then
    .error (.herr "maxSize bigger than max indexed tag size")
  else do
    let l ← arrHex.getArray
    let arr ← l.mapM (item hexDecode minSize maxSize (by omega))
    ofList (arr.map Subtype.val) (by
      intro x hx
      obtain ⟨y, -, rfl⟩ := List.mem_map.mp hx
      exact y.2)

end

/-- The values of the set, in increasing order. -/
def elems (s : FilterSetBytes) : List Bytes := s.items.map (slice s.buf)

def size (s : FilterSetBytes) : Nat := s.items.length

/-- `at(n)`. -/
def atIdx (s : FilterSetBytes) (n : Nat) : Except Err Bytes :=
  match s.items[n]? with
  | none => .error (.herr "FilterSetBytes access out of bounds")
  | some it => .ok (slice s.buf it)

/-- `at` enumerates the values. -/
theorem atIdx_eq (s : FilterSetBytes) (n : Nat) (hn : n < s.elems.length) :
    s.atIdx n = .ok s.elems[n] := by
  have hi : n < s.items.length := by simpa [elems] using hn
  unfold atIdx
  rw [List.getElem?_eq_getElem hi]
  simp [elems]

/-- The comparison of the search loop: first bytes when both are there and differ. -/
def below (s : FilterSetBytes) (candidate : Bytes) (curr : Nat) : Bool :=
  match s.items[curr]? with
  | none => false
  | some it =>
    if candidate ≠ [] ∧ it.size ≠ 0 ∧ candidate.headD 0 ≠ it.firstByte then
      candidate.headD 0 < it.firstByte
    else candidate < slice s.buf it

/-- `FilterSetBytes::doesMatch`. -/
def doesMatch (s : FilterSetBytes) (candidate : Bytes) : Bool :=
  let first := upperBound (s.below candidate) s.items.length 0 s.items.length
  match first with
  | 0 => false
  | k + 1 =>
    match s.items[k]? with
    | none => false
    | some it => candidate = slice s.buf it

/-- Deciding by the first bytes agrees with comparing the strings. -/
theorem below_eq (s : FilterSetBytes) (candidate : Bytes) (i : Nat) (hi : i < s.elems.length) :
    s.below candidate i = decide (candidate < s.elems[i]) := by
  have hil : i < s.items.length := by simpa [elems] using hi
  have hel : s.elems[i] = slice s.buf s.items[i] := by simp [elems]
  have hit := List.getElem_mem hil
  unfold below
  rw [List.getElem?_eq_getElem hil, hel]
  simp only []
  split
  · rename_i h
    obtain ⟨hc, hs, hne⟩ := h
    obtain ⟨c, cs, rfl⟩ := List.exists_cons_of_ne_nil hc
    have hb := s.bounds _ hit
    have hf := s.first _ hit (by omega)
    obtain ⟨hlt, hget⟩ := List.getElem?_eq_some_iff.mp hf
    have hsl : ∃ rest, slice s.buf s.items[i] = s.items[i].firstByte :: rest := by
      unfold slice
      rw [List.drop_eq_getElem_cons hlt, hget]
      obtain ⟨k, hk⟩ := Nat.exists_eq_succ_of_ne_zero hs
      rw [hk]
      exact ⟨_, List.take_succ_cons⟩
    obtain ⟨rest, hrest⟩ := hsl
    rw [hrest]
    simp only [List.headD_cons] at hne ⊢
    apply decide_eq_decide.mpr
    rw [List.cons_lt_cons_iff]
    constructor
    · intro h; exact Or.inl h
    · rintro (h | ⟨h, -⟩)
      · exact h
      · exact absurd h hne
  · rfl

/-- **The search is membership.** -/
theorem doesMatch_iff (s : FilterSetBytes) (c : Bytes) : s.doesMatch c = true ↔ c ∈ s.elems := by
  have hlen : s.items.length = s.elems.length := by simp [elems]
  have hsort : s.elems.Pairwise (· < ·) := s.sorted
  have hmono : ∀ i j, i ≤ j → j < s.items.length → s.below c i = true → s.below c j = true := by
    intro i j hij hj hi
    rw [s.below_eq c i (by omega)] at hi
    rw [s.below_eq c j (by omega)]
    simp only [decide_eq_true_eq] at hi ⊢
    rcases Nat.lt_or_eq_of_le hij with h | h
    · exact lt_trans hi (List.pairwise_iff_getElem.mp hsort i j (by omega) (by omega) h)
    · subst h; exact hi
  obtain ⟨hle, hlo, hhi⟩ := upperBound_spec (s.below c) s.items.length hmono s.items.length 0
    s.items.length (Nat.le_refl _) (by omega) (by intro i hi; omega) (by intro i h1 h2; omega)
  unfold doesMatch
  simp only []
  generalize upperBound (s.below c) s.items.length 0 s.items.length = r at hle hlo hhi
  cases r with
  | zero =>
    simp only [Bool.false_eq_true, false_iff]
    intro hc
    obtain ⟨i, hi, rfl⟩ := List.getElem_of_mem hc
    have := hhi i (by omega) (by omega)
    rw [s.below_eq _ i hi] at this
    simp at this
  | succ k =>
    have hk : k < s.items.length := by omega
    have hk' : k < s.elems.length := by omega
    have hel : s.elems[k] = slice s.buf s.items[k] := by simp [elems]
    simp only [List.getElem?_eq_getElem hk, decide_eq_true_eq]
    rw [← hel]
    constructor
    · intro h; rw [h]; exact List.getElem_mem _
    · intro hc
      obtain ⟨i, hi, rfl⟩ := List.getElem_of_mem hc
      -- below `k` the candidate is greater, above `k` it is smaller
      rcases Nat.lt_trichotomy i k with h | h | h
      · have := hlo k (by omega)
        rw [s.below_eq _ k (by omega)] at this
        simp only [decide_eq_false_iff_not, not_lt] at this
        exact absurd (List.pairwise_iff_getElem.mp hsort i k hi (by omega) h) (not_lt.mpr this)
      · subst h; rfl
      · have := hhi i (by omega) (by omega)
        rw [s.below_eq _ i hi] at this
        simp at this

/-- What a constructed set contains. -/
theorem mem_elems_ofList {arr : List Bytes} {hsize} {s : FilterSetBytes}
    (h : ofList arr hsize = .ok s) (x : Bytes) : x ∈ s.elems ↔ x ∈ arr := by
  unfold ofList at h
  split at h
  · cases h
  · rename_i hbuf
    have hmem : ∀ x ∈ dropRepeats none (arr.insertionSort (· ≤ ·)), x.length ≤ 255 := fun x hx => by
      have := ((mem_dropRepeats _ none x).mp (Or.inl hx)).resolve_right (by simp)
      exact hsize x ((List.perm_insertionSort _ _).mem_iff.mp this)
    have hlay := (layout_spec _ [] hmem (by simp only [List.length_nil]; omega)).1
    simp only [List.nil_append, List.length_nil] at hlay
    cases h
    show x ∈ (layout 0 _).map _ ↔ _
    rw [hlay]
    have := mem_dropRepeats (arr.insertionSort (· ≤ ·)) none x
    simp only [reduceCtorEq, or_false] at this
    rw [this, (List.perm_insertionSort _ _).mem_iff]

/-- Sets built from a non-empty array are non-empty, and their values have the sizes asked. -/
theorem ofJson_ok [Golpe] {v : Json} {hex : Bool} {lo hi : Nat} {s : FilterSetBytes}
    (h : ofJson v hex lo hi = .ok s) (hne : v.isEmptyArray = false) :
    s.elems ≠ [] ∧ ∀ x ∈ s.elems, lo ≤ x.length ∧ x.length ≤ hi := by
  unfold ofJson at h
  split at h
  · cases h
  · rename_i hmax
    obtain ⟨l, hl, h⟩ := bind_eq_ok.mp h
    obtain ⟨arr, harr, h⟩ := bind_eq_ok.mp h
    have hmem := mem_elems_ofList h
    have hitem : ∀ (i : Json) b, item hex lo hi (by omega) i = .ok b →
        lo ≤ b.1.length ∧ b.1.length ≤ hi := by
      intro i b hb
      unfold item at hb
      obtain ⟨_, -, hb⟩ := bind_eq_ok.mp hb
      obtain ⟨b', -, hb⟩ := bind_eq_ok.mp hb
      split at hb
      · cases hb
      · split at hb
        · cases hb
        · rw [← Except.ok.inj hb]
          constructor
          · show lo ≤ b'.length; omega
          · show b'.length ≤ hi; omega
    refine ⟨fun hnil => ?_, fun x hx => ?_⟩
    · obtain ⟨b, bs, rfl⟩ := List.exists_cons_of_ne_nil (Json.mapM_ne_nil hl hne harr)
      have := (hmem b.1).mpr (by simp)
      rw [hnil] at this
      simp at this
    · obtain ⟨y, hy, rfl⟩ := List.mem_map.mp ((hmem x).mp hx)
      obtain ⟨j, -, hj⟩ := (mapM_eq_ok harr).2 y hy
      exact hitem j y hj

end FilterSetBytes

/-! ## `FilterSetUint` -/

structure FilterSetUint where
  items : List Nat
  sorted : items.Pairwise (· < ·)

namespace FilterSetUint

/-- Sort and drop repeated values. -/
def ofList (arr : List Nat) : FilterSetUint where
  items := dropRepeats none (arr.insertionSort (· ≤ ·))
  sorted := (dropRepeats_pairwise_lt _ none (FilterSetBytes.pairwise_sorted arr) (by simp)).1

/-- `FilterSetUint::FilterSetUint`. -/
def ofJson (arr : Json) : Except Err FilterSetUint := do
  let l ← arr.getArray
  let items ← l.mapM Json.getUnsigned
  return ofList items

def size (s : FilterSetUint) : Nat := s.items.length

/-- `std::binary_search` over the sorted items. -/
def doesMatch (s : FilterSetUint) (candidate : Nat) : Bool := candidate ∈ s.items

theorem doesMatch_iff (s : FilterSetUint) (c : Nat) : s.doesMatch c = true ↔ c ∈ s.items := by
  simp [doesMatch]

theorem mem_ofList (arr : List Nat) (n : Nat) : n ∈ (ofList arr).items ↔ n ∈ arr := by
  have := mem_dropRepeats (arr.insertionSort (· ≤ ·)) none n
  simp only [reduceCtorEq, or_false] at this
  exact this.trans (List.perm_insertionSort _ _).mem_iff

theorem ofJson_ok {v : Json} {s : FilterSetUint} (h : ofJson v = .ok s)
    (hne : v.isEmptyArray = false) : s.items ≠ [] ∧ ∀ n ∈ s.items, n < 2 ^ 64 := by
  unfold ofJson at h
  obtain ⟨l, hl, h⟩ := bind_eq_ok.mp h
  obtain ⟨arr, harr, h⟩ := bind_eq_ok.mp h
  cases h
  refine ⟨fun hnil => ?_, fun n hn => ?_⟩
  · obtain ⟨b, bs, rfl⟩ := List.exists_cons_of_ne_nil (Json.mapM_ne_nil hl hne harr)
    have := (mem_ofList (b :: bs) b).mpr (by simp)
    rw [hnil] at this
    simp at this
  · obtain ⟨j, -, hj⟩ := (mapM_eq_ok harr).2 n ((mem_ofList arr n).mp hn)
    exact Json.getUnsigned_lt hj

end FilterSetUint

end Strfry
