import Strfry.Bytes

/-!
# JSON values, errors and what comes from outside the repository

`Json` is `tao::json::value`: an object is the list of its members in key order
(`std::map`).  A non-negative integer is held as `unsigned`, a negative one as
`signed`; `getUnsigned`, `getString` and `getArray` throw on any other variant.

Code the repository calls but does not contain is a parameter:

* `Golpe.fromHex`: `from_hex(s, false)` of golpe.  Of its behaviour only the length
  of a result is used: two digits for one byte.
* `TaoJson.fromString`, `TaoJson.toString`: the parser and the serialiser of
  `tao::json`.
* `Cfg`: the configured limits the modelled functions read.
-/

namespace Strfry

/-- A `uint64_t` held in a JSON value. -/
abbrev U64 := Fin (2 ^ 64)

instance neZero_u64 : NeZero (2 ^ 64) := ⟨by decide⟩

theorem U64.lt (n : U64) : n.val < 2 ^ 64 := n.isLt

inductive Json where
  | null
  | bool (b : Bool)
  | unsigned (n : U64)
  | signed (i : Int)
  | double (bits : Nat)
  | string (s : Bytes)
  | array (l : List Json)
  | object (kvs : List (Bytes × Json))

/-- What the modelled functions throw. -/
inductive Err where
  /-- `herr` and `hoytech::error`, with their text -/
  | herr (msg : String)
  /-- `std::out_of_range`: a missing key or index -/
  | outOfRange
  /-- `std::bad_variant_access`: a JSON value of another type -/
  | badVariant
  /-- `from_hex` on a string that is not hex -/
  | badHex
  /-- `std::stoull` -/
  | badNumber
  /-- `tao::json::from_string` -/
  | badJson
  /-- not an exception: a dangling pointer is followed -/
  | undefined
deriving DecidableEq, Repr

class Golpe where
  fromHex : Bytes → Option Bytes
  length_fromHex : ∀ s b, fromHex s = some b → 2 * b.length = s.length

class TaoJson where
  fromString : Bytes → Option Json
  toString : Json → Bytes

structure Cfg where
  eventsMaxEventSize : Nat := 65536
  eventsRejectEventsNewerThanSeconds : Nat := 900
  eventsRejectEventsOlderThanSeconds : Nat := 94608000
  eventsRejectEphemeralEventsOlderThanSeconds : Nat := 60
  eventsEphemeralEventsLifetimeSeconds : Nat := 300
  eventsMaxNumTags : Nat := 2000
  eventsMaxTagValSize : Nat := 1024
  relayMaxReqFilterSize : Nat := 200
  relayMaxSubsPerConnection : Nat := 200
  relayMaxFilterLimit : Nat := 500
  relayMaxFilterLimitCount : Nat := 1000000
  relayNegentropyMaxSyncEvents : Nat := 1000000

namespace Json

/-- `get_unsigned`. -/
def getUnsigned : Json → Except Err Nat
  | .unsigned n => .ok n.val
  | _ => .error .badVariant

/-- `get_string`. -/
def getString : Json → Except Err Bytes
  | .string s => .ok s
  | _ => .error .badVariant

/-- `get_array`. -/
def getArray : Json → Except Err (List Json)
  | .array l => .ok l
  | _ => .error .badVariant

/-- `at(key)`. -/
def atKey (v : Json) (key : Bytes) : Except Err Json :=
  match v with
  | .object kvs => ((kvs.find? fun kv => kv.1 == key).map Prod.snd).elim (.error .outOfRange) .ok
  | _ => .error .badVariant

/-- `get_object().erase(key)`. -/
def erase (v : Json) (key : Bytes) : Json :=
  match v with
  | .object kvs => .object (kvs.filter fun kv => kv.1 ≠ key)
  | v => v

/-- The test on a filter's field value: an array with no elements. -/
def isEmptyArray : Json → Bool
  | .array [] => true
  | _ => false

end Json

theorem Json.getUnsigned_ok {v : Json} {n : Nat} (h : v.getUnsigned = .ok n) :
    ∃ k : U64, v = .unsigned k ∧ k.val = n := by
  cases v <;> simp only [Json.getUnsigned, Except.ok.injEq, reduceCtorEq] at h
  exact ⟨_, rfl, h⟩

theorem Json.getArray_ok {v : Json} {l : List Json} (h : v.getArray = .ok l) : v = .array l := by
  cases v <;> simp only [Json.getArray, Except.ok.injEq, reduceCtorEq] at h
  rw [h]

theorem Json.getString_ok {v : Json} {s : Bytes} (h : v.getString = .ok s) : v = .string s := by
  cases v <;> simp only [Json.getString, Except.ok.injEq, reduceCtorEq] at h
  rw [h]

theorem Json.getUnsigned_lt {v : Json} {n : Nat} (h : v.getUnsigned = .ok n) : n < 2 ^ 64 := by
  cases v <;> simp only [Json.getUnsigned, Except.ok.injEq, reduceCtorEq] at h
  rw [← h]
  exact Fin.isLt _

/-- A sequence of two fallible steps succeeds when both do. -/
theorem bind_eq_ok {α β : Type} {x : Except Err α} {f : α → Except Err β} {b : β} :
    (x >>= f) = .ok b ↔ ∃ a, x = .ok a ∧ f a = .ok b := by
  cases x with
  | error e => simp [bind, Except.bind]
  | ok a => simp [bind, Except.bind]

theorem bind_eq_error {α β : Type} {x : Except Err α} {f : α → Except Err β} {e : Err} :
    (x >>= f) = .error e ↔ x = .error e ∨ ∃ a, x = .ok a ∧ f a = .error e := by
  cases x with
  | error e => simp [bind, Except.bind]
  | ok a => simp [bind, Except.bind]

/-- Whether a computation succeeds with a result that `p` holds of. -/
def okAnd {α : Type} (p : α → Bool) : Except Err α → Bool
  | .ok a => p a
  | .error _ => false

theorem exists_of_okAnd {α : Type} {p : α → Bool} {x : Except Err α} (h : okAnd p x = true) :
    ∃ a, x = .ok a ∧ p a = true := by
  cases x with
  | error e => cases h
  | ok a => exact ⟨a, rfl, h⟩

/-- A loop of fallible steps over a list: as many results as elements, each from one. -/
theorem mapM_eq_ok {α β : Type} {f : α → Except Err β} {l : List α} {r : List β}
    (h : l.mapM f = .ok r) : r.length = l.length ∧ ∀ b ∈ r, ∃ a ∈ l, f a = .ok b := by
  induction l generalizing r with
  | nil =>
    rw [List.mapM_nil] at h
    cases h
    simp
  | cons a l ih =>
    rw [List.mapM_cons] at h
    obtain ⟨b, hb, h⟩ := bind_eq_ok.mp h
    obtain ⟨bs, hbs, h⟩ := bind_eq_ok.mp h
    cases h
    obtain ⟨hlen, hmem⟩ := ih hbs
    refine ⟨by simp [hlen], fun c hc => ?_⟩
    rcases List.mem_cons.mp hc with rfl | hc
    · exact ⟨a, List.mem_cons_self, hb⟩
    · obtain ⟨x, hx, hfx⟩ := hmem c hc
      exact ⟨x, List.mem_cons_of_mem _ hx, hfx⟩

/-- Every element of such a loop has its result. -/
theorem mapM_eq_ok_of_mem {α β : Type} {f : α → Except Err β} {l : List α} {r : List β}
    (h : l.mapM f = .ok r) : ∀ a ∈ l, ∃ b ∈ r, f a = .ok b := by
  induction l generalizing r with
  | nil => simp
  | cons a l ih =>
    rw [List.mapM_cons] at h
    obtain ⟨b, hb, h⟩ := bind_eq_ok.mp h
    obtain ⟨bs, hbs, h⟩ := bind_eq_ok.mp h
    cases h
    intro x hx
    rcases List.mem_cons.mp hx with rfl | hx
    · exact ⟨b, List.mem_cons_self, hb⟩
    · obtain ⟨y, hy, hfy⟩ := ih hbs x hx
      exact ⟨y, List.mem_cons_of_mem _ hy, hfy⟩

/-- Decoding a non-empty array gives a non-empty list. -/
theorem Json.mapM_ne_nil {β : Type} {f : Json → Except Err β} {v : Json} {l : List Json}
    {r : List β} (hl : v.getArray = .ok l) (hne : v.isEmptyArray = false) (h : l.mapM f = .ok r) :
    r ≠ [] := by
  rintro rfl
  have hl0 : l = [] := List.length_eq_zero_iff.mp (mapM_eq_ok h).1.symm
  subst hl0
  cases v <;> simp only [Json.getArray, Except.ok.injEq, reduceCtorEq] at hl
  subst hl
  simp [Json.isEmptyArray] at hne

/-- `if (c) throw e;`. -/
def throwIf (c : Prop) [Decidable c] (e : Err) : Except Err Unit := if c then .error e else .ok ()

theorem throwIf_eq_ok {c : Prop} [Decidable c] {e : Err} {u : Unit} :
    throwIf c e = .ok u ↔ ¬ c := by
  unfold throwIf
  split
  · rename_i h; simp [h]
  · rename_i h; simp [h]

/-- Memory outside the object would be read or written. -/
def orUndefined {α : Type} : Option α → Except Err α
  | some a => .ok a
  | none => .error .undefined

theorem orUndefined_ok {α : Type} {x : Option α} {a : α} (h : orUndefined x = .ok a) : x = some a := by
  cases x with
  | none => cases h
  | some b =>
    cases h
    rfl

/-- `jsonGetString`. -/
def jsonGetString (v : Json) (errMsg : String) : Except Err Bytes :=
  match v with
  | .string s => .ok s
  | _ => .error (.herr errMsg)

theorem jsonGetString_ok {v : Json} {msg : String} {s : Bytes} (h : jsonGetString v msg = .ok s) :
    v = .string s := by
  cases v <;> simp only [jsonGetString, Except.ok.injEq, reduceCtorEq] at h
  rw [h]

/-- `jsonGetUnsigned`. -/
def jsonGetUnsigned (v : Json) (errMsg : String) : Except Err Nat :=
  match v with
  | .unsigned n => .ok n.val
  | _ => .error (.herr errMsg)

theorem jsonGetUnsigned_ok {v : Json} {msg : String} {n : Nat} (h : jsonGetUnsigned v msg = .ok n) :
    ∃ k : U64, v = .unsigned k ∧ n = k.val := by
  cases v <;> simp only [jsonGetUnsigned, Except.ok.injEq, reduceCtorEq] at h
  exact ⟨_, rfl, h.symm⟩

/-- `jsonGetArray`. -/
def jsonGetArray (v : Json) (errMsg : String) : Except Err (List Json) :=
  match v with
  | .array l => .ok l
  | _ => .error (.herr errMsg)

theorem jsonGetArray_ok {v : Json} {msg : String} {l : List Json} (h : jsonGetArray v msg = .ok l) :
    v = .array l := by
  cases v <;> simp only [jsonGetArray, Except.ok.injEq, reduceCtorEq] at h
  rw [h]

/-- A loop of steps that all succeed. -/
theorem mapM_eq_map {α β : Type} {f : α → Except Err β} {g : α → β} {l : List α}
    (h : ∀ a ∈ l, f a = .ok (g a)) : l.mapM f = .ok (l.map g) := by
  induction l with
  | nil => rfl
  | cons a l ih =>
    rw [List.mapM_cons, h a List.mem_cons_self, ih fun b hb => h b (List.mem_cons_of_mem _ hb)]
    rfl

/-! ## Hex digits -/

/-- The value of a hex digit. -/
def hexDigit (b : Byte) : Option Nat :=
  if 48 ≤ b.val ∧ b.val ≤ 57 then some (b.val - 48)
  else if 97 ≤ b.val ∧ b.val ≤ 102 then some (b.val - 87)
  else if 65 ≤ b.val ∧ b.val ≤ 70 then some (b.val - 55)
  else none

/-- `to_hex`: two lower-case digits for each byte. -/
def toHex (b : Bytes) : Bytes :=
  let digit := fun n : Nat => (Fin.ofNat 256 (if n < 10 then 48 + n else 87 + n) : Byte)
  b.flatMap fun x => [digit (x.val / 16), digit (x.val % 16)]

/-- Plain hex decoding. -/
def hexDecode : Bytes → Option Bytes
  | [] => some []
  | [_] => none
  | a :: b :: rest => do
    let hi ← hexDigit a
    let lo ← hexDigit b
    let bs ← hexDecode rest
    return Fin.ofNat 256 (16 * hi + lo) :: bs

theorem length_hexDecode (s b : Bytes) (h : hexDecode s = some b) : 2 * b.length = s.length := by
  induction s using hexDecode.induct generalizing b with
  | case1 =>
    simp only [hexDecode, Option.some.injEq] at h
    simp [← h]
  | case2 a => simp [hexDecode] at h
  | case3 x y rest ih =>
    simp only [hexDecode, Option.bind_eq_bind, Option.bind_eq_some_iff, Option.pure_def,
      Option.some.injEq] at h
    obtain ⟨hi, -, lo, -, bs, hbs, rfl⟩ := h
    have := ih bs hbs
    simp only [List.length_cons]
    omega

/-- The digit of a number below 16. -/
theorem hexDigit_digit : ∀ n : Fin 16,
    hexDigit (Fin.ofNat 256 (if n.val < 10 then 48 + n.val else 87 + n.val)) = some n.val := by
  decide

theorem toHex_cons (x : Byte) (b : Bytes) : toHex (x :: b) =
    Fin.ofNat 256 (if x.val / 16 < 10 then 48 + x.val / 16 else 87 + x.val / 16) ::
    Fin.ofNat 256 (if x.val % 16 < 10 then 48 + x.val % 16 else 87 + x.val % 16) :: toHex b := by
  simp [toHex]

/-- Decoding undoes `to_hex`. -/
theorem hexDecode_toHex (b : Bytes) : hexDecode (toHex b) = some b := by
  induction b with
  | nil => rfl
  | cons x b ih =>
    have hhi := hexDigit_digit ⟨x.val / 16, by omega⟩
    have hlo := hexDigit_digit ⟨x.val % 16, by omega⟩
    have hx : Fin.ofNat 256 (16 * (x.val / 16) + x.val % 16) = x := by
      rw [Nat.div_add_mod]
      exact Fin.ofNat_val_eq_self x
    rw [toHex_cons, hexDecode, hhi, hlo, ih]
    simp only [Option.bind_eq_bind, Option.bind_some, Option.pure_def, hx]

/-- A decoder with the behaviour asked of `from_hex`. -/
@[reducible] def Golpe.plain : Golpe where
  fromHex := hexDecode
  length_fromHex := length_hexDecode

/-- A JSON library that knows the empty object only. -/
@[reducible] def TaoJson.braces : TaoJson where
  fromString b := if b = ascii "\x7b\x7d" then some (.object []) else .none
  toString _ := ascii "\x7b\x7d"

/-- A JSON library that knows the given texts. -/
@[reducible] def TaoJson.ofTexts (texts : List (String × Json)) : TaoJson where
  fromString b := (texts.find? fun t => ascii t.1 == b).map Prod.snd
  toString _ := []

/-- `from_hex(s, false)`, which throws on anything that is not hex. -/
def fromHex [Golpe] (s : Bytes) : Except Err Bytes :=
  match Golpe.fromHex s with
  | some b => .ok b
  | none => .error .badHex

theorem fromHex_eq_ok [Golpe] {s b : Bytes} : fromHex s = .ok b ↔ Golpe.fromHex s = some b := by
  unfold fromHex
  cases Golpe.fromHex s with
  | none => simp
  | some b' => simp

theorem fromHex_ok_length [Golpe] {s b : Bytes} (h : fromHex s = .ok b) :
    2 * b.length = s.length :=
  Golpe.length_fromHex s b (fromHex_eq_ok.mp h)

end Strfry
