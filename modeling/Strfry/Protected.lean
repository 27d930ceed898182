import Strfry.Ingester
import Strfry.PackedEventCodec

/-!
# Protected events

An event with a `-` tag should not get past the ingester.  The test is made on the packed
tags, and the packer drops a tag whose value is longer than 255 bytes though the parser
accepts values up to `events.maxTagValSize`.  So what the test finds is the `-` tags with a
short value (`protected_iff`), and an event whose `-` tags all have a long one is stored.
-/

namespace Strfry

/-- A tag array that marks its event as protected. -/
def Marked (t : Json) : Prop := ∃ fields, t = .array (.string [tagProtected] :: fields)

/-- A mark that is packed. -/
def ShortMark (t : Json) : Prop :=
  ∃ val, tagFields t = some ([tagProtected], val) ∧ val.length ≤ maxIndexedTagValSize

section
variable [Golpe]

theorem indexedTag_eq_protected {t : Json} {val : Bytes} : indexedTag t = some (tagProtected, val) ↔
    tagFields t = some ([tagProtected], val) ∧ val.length ≤ maxIndexedTagValSize := by
  have hplain : ∀ x, indexedValue tagProtected x = some x := fun x => if_neg (by decide)
  unfold indexedTag
  constructor
  · intro h
    split at h
    · rename_i name raw hf
      obtain ⟨x, hx, heq⟩ := Option.map_eq_some_iff.mp h
      cases heq
      obtain ⟨hval, hle⟩ := Option.filter_eq_some_iff.mp hx
      rw [hplain] at hval
      cases hval
      exact ⟨hf, of_decide_eq_true hle⟩
    · cases h
  · rintro ⟨hf, hle⟩
    have hle : val.length ≤ 255 := hle
    rw [hf]
    simp [hplain, Option.filter, hle]

/-- What the walk over the packed tags finds. -/
theorem any_protected_iff {v : Json} {view : PackedEventView} (h : Decodes v view) {tags : List Json}
    (htags : v.atKey (ascii "tags") = .ok (.array tags)) :
    (view.tags.any fun t => t.1 == tagProtected) = true ↔ ∃ t ∈ tags, ShortMark t := by
  obtain ⟨tags', htags', -, hview, -⟩ := h.tags
  rw [htags] at htags'
  cases htags'
  have hvirtual : ∀ b, ∀ t ∈ virtualD b, t.1 ≠ tagProtected := by
    intro b t ht
    cases b with
    | false => cases ht
    | true =>
      obtain rfl := List.mem_singleton.mp ht
      exact fun h => absurd h (by decide)
  rw [List.any_eq_true]
  constructor
  · rintro ⟨⟨c, val⟩, hmem, hc⟩
    obtain rfl : c = tagProtected := beq_iff_eq.mp hc
    rw [hview] at hmem
    rcases List.mem_append.mp hmem with hmem | hmem
    · rcases List.mem_append.mp hmem with hmem | hmem
      · exact absurd rfl (hvirtual _ _ hmem)
      · obtain ⟨t, ht, hi⟩ := List.mem_filterMap.mp hmem
        exact ⟨t, ht, val, indexedTag_eq_protected.mp hi⟩
    · exact absurd rfl (hvirtual _ _ hmem)
  · rintro ⟨t, ht, val, hval⟩
    refine ⟨(tagProtected, val), ?_, by simp⟩
    rw [hview]
    exact List.mem_append_left _
      (List.mem_append_right _ (List.mem_filterMap.mpr ⟨t, ht, indexedTag_eq_protected.mpr hval⟩))

variable [TaoJson] [Crypto] (cfg : Cfg) (txn : Db) (tracker : EphemeralSubTracker) (now : Nat)

/-- Rejected as invalid, dropped, or answered as protected. -/
def TurnedAway (res : Except Err Ingested) : Prop :=
  (∃ e, res = .error e) ∨ (∃ id, res = .ok (.okResponse id false "blocked: no subscribers for ephemeral kind")) ∨
    ∃ id, res = .ok (.okResponse id false "blocked: event marked as protected")

/-- Not dropped, and parsed and verified. -/
def Valid (origJson : Json) : Prop :=
  noSubscribers tracker origJson = .ok false ∧ ∃ p, parseAndVerifyEvent cfg now true true origJson = .ok p

/-- The event's id is in the database. -/
def Known (origJson : Json) : Prop :=
  ∃ s id, origJson.atKey (ascii "id") = .ok (.string s) ∧ Golpe.fromHex s = some id ∧
    txn.eventExistsById id = true

/-- A valid event: what the rest of the handler does with it. -/
theorem ingesterProcessEvent_valid {origJson : Json} {tags : List Json}
    (htags : origJson.atKey (ascii "tags") = .ok (.array tags)) (h : Valid cfg tracker now origJson) :
    ∃ (p : Bytes × Bytes) (id : Bytes), ((∃ t ∈ tags, ShortMark t) → ingesterProcessEvent cfg txn tracker now origJson =
        .ok (.okResponse id false "blocked: event marked as protected")) ∧
      ((¬ ∃ t ∈ tags, ShortMark t) → Known txn origJson → ingesterProcessEvent cfg txn tracker now origJson =
        .ok (.okResponse id true "duplicate: have this event")) ∧
      ((¬ ∃ t ∈ tags, ShortMark t) → ¬ Known txn origJson →
        ingesterProcessEvent cfg txn tracker now origJson = .ok (.addEvent p.1 p.2)) := by
  obtain ⟨hsubs, p, hp⟩ := h
  obtain ⟨view, hview, -, -, hdec⟩ := nostrJsonToPackedEvent_decodes cfg (parseAndVerifyEvent_ok hp).1
  have hknown : Known txn origJson ↔ txn.eventExistsById view.id = true := by
    obtain ⟨s, hs, hid⟩ := hdec.id
    constructor
    · rintro ⟨s', id, hs', hid', hex⟩
      rw [hs] at hs'
      cases hs'
      rw [hid] at hid'
      cases hid'
      exact hex
    · exact fun hex => ⟨s, view.id, hs, hid, hex⟩
  have hrun : ingesterProcessEvent cfg txn tracker now origJson =
      if (view.tags.any fun t => t.1 == tagProtected) = true then
        .ok (.okResponse (toHex view.id) false "blocked: event marked as protected")
      else if txn.eventExistsById view.id then .ok (.okResponse (toHex view.id) true "duplicate: have this event")
      else .ok (.addEvent p.1 p.2) := by
    unfold ingesterProcessEvent
    rw [hsubs]
    show ingesterVerifyEvent cfg txn now origJson = _
    unfold ingesterVerifyEvent
    rw [hp]
    show (PackedEventView.ofBytes p.1 >>= fun packed => _) = _
    rw [hview]
    rfl
  have hany := any_protected_iff hdec htags
  refine ⟨p, toHex view.id, fun hs => ?_, fun hs hk => ?_, fun hs hk => ?_⟩
  · rw [hrun, if_pos (hany.mpr hs)]
  · rw [hrun, if_neg (fun h => hs (hany.mp h)), if_pos (hknown.mp hk)]
  · rw [hrun, if_neg (fun h => hs (hany.mp h)), if_neg (fun h => hk (hknown.mpr h))]

/-- An event that is not valid is rejected or dropped. -/
theorem ingesterProcessEvent_invalid {origJson : Json} (h : ¬ Valid cfg tracker now origJson) :
    TurnedAway (ingesterProcessEvent cfg txn tracker now origJson) := by
  unfold ingesterProcessEvent
  cases hsubs : noSubscribers tracker origJson with
  | error e => exact Or.inl ⟨e, rfl⟩
  | ok b =>
    cases b with
    | true => exact Or.inr (Or.inl ⟨_, rfl⟩)
    | false =>
      cases hp : parseAndVerifyEvent cfg now true true origJson with
      | ok p => exact absurd ⟨hsubs, p, hp⟩ h
      | error e =>
        refine Or.inl ⟨e, ?_⟩
        show ingesterVerifyEvent cfg txn now origJson = .error e
        unfold ingesterVerifyEvent
        rw [hp]
        rfl

omit [Golpe] [TaoJson] [Crypto] in
/-- The three answers are not a message to the writer. -/
theorem TurnedAway.ne_addEvent {res : Except Err Ingested} (h : TurnedAway res) (packedStr jsonStr : Bytes) :
    res ≠ .ok (.addEvent packedStr jsonStr) := by
  rcases h with ⟨e, rfl⟩ | ⟨id, rfl⟩ | ⟨id, rfl⟩ <;> simp

/-- **Protected events.**  An event is turned away exactly when a mark of it is packed or it is not
valid; it is not stored exactly when so or its id is known. -/
theorem protected_iff {origJson : Json} {tags : List Json}
    (htags : origJson.atKey (ascii "tags") = .ok (.array tags)) :
    (TurnedAway (ingesterProcessEvent cfg txn tracker now origJson) ↔
      (∃ t ∈ tags, ShortMark t) ∨ ¬ Valid cfg tracker now origJson) ∧
    ((∀ packedStr jsonStr, ingesterProcessEvent cfg txn tracker now origJson ≠ .ok (.addEvent packedStr jsonStr)) ↔
      (∃ t ∈ tags, ShortMark t) ∨ ¬ Valid cfg tracker now origJson ∨ Known txn origJson) := by
  by_cases hvalid : Valid cfg tracker now origJson
  · obtain ⟨p, id, hshort, hdup, hadd⟩ := ingesterProcessEvent_valid cfg txn tracker now htags hvalid
    by_cases hs : ∃ t ∈ tags, ShortMark t
    · have haway : TurnedAway (ingesterProcessEvent cfg txn tracker now origJson) :=
        Or.inr (Or.inr ⟨id, hshort hs⟩)
      exact ⟨⟨fun _ => Or.inl hs, fun _ => haway⟩, fun _ => Or.inl hs, fun _ => haway.ne_addEvent⟩
    · by_cases hk : Known txn origJson
      · rw [hdup hs hk]
        refine ⟨⟨fun h => ?_, fun h => ?_⟩, fun _ => Or.inr (Or.inr hk), fun _ => by simp⟩
        · rcases h with ⟨e, he⟩ | ⟨id', he⟩ | ⟨id', he⟩ <;> cases he
        · rcases h with h | h
          · exact absurd h hs
          · exact absurd hvalid h
      · rw [hadd hs hk]
        refine ⟨⟨fun h => ?_, fun h => ?_⟩, fun h => absurd rfl (h p.1 p.2), fun h => ?_⟩
        · exact absurd rfl (h.ne_addEvent p.1 p.2)
        · rcases h with h | h
          · exact absurd h hs
          · exact absurd hvalid h
        · rcases h with h | h | h
          · exact absurd h hs
          · exact absurd hvalid h
          · exact absurd h hk
  · have haway := ingesterProcessEvent_invalid cfg txn tracker now hvalid
    exact ⟨⟨fun _ => Or.inr hvalid, fun _ => haway⟩, fun _ => Or.inr (Or.inl hvalid), fun _ => haway.ne_addEvent⟩

end

/-- A text event with one tag; any signature is accepted below. -/
def markedJson (value : Bytes) : Json :=
  .object [(ascii "content", .string []), (ascii "created_at", .unsigned 100),
    (ascii "id", .string (toHex (List.replicate 32 1))), (ascii "kind", .unsigned 1),
    (ascii "pubkey", .string (toHex (List.replicate 32 9))), (ascii "sig", .string (toHex (List.replicate 64 5))),
    (ascii "tags", .array [.array [.string [tagProtected], .string value]])]

@[reducible] def anySignature : Crypto := ⟨fun _ => List.replicate 32 1, fun _ => true, fun _ _ _ => true⟩

/-- A mark with an empty value is found. -/
theorem protected_iff_empty : let _ : Golpe := Golpe.plain
    let _ : TaoJson := TaoJson.braces
    let _ : Crypto := anySignature
    TurnedAway (ingesterProcessEvent {} {} {} 100 (markedJson [])) := by
  intro _ _ _
  have htags : (markedJson []).atKey (ascii "tags") = .ok (.array [.array [.string [tagProtected], .string []]]) := rfl
  refine (protected_iff {} {} {} 100 htags).1.mpr ?_
  exact Or.inl ⟨_, List.mem_singleton_self _, [], rfl, by decide⟩

/-- A mark with a value of 256 bytes is not: the event goes to the writer. -/
theorem protected_iff_long : let _ : Golpe := Golpe.plain
    let _ : TaoJson := TaoJson.braces
    let _ : Crypto := anySignature
    Marked (.array [.string [tagProtected], .string (List.replicate 256 120)]) ∧
      (markedJson (List.replicate 256 120)).atKey (ascii "tags") =
        .ok (.array [.array [.string [tagProtected], .string (List.replicate 256 120)]]) ∧
      ∃ packedStr jsonStr, ingesterProcessEvent {} {} {} 100 (markedJson (List.replicate 256 120)) =
        .ok (.addEvent packedStr jsonStr) := by
  intro _ _ _
  refine ⟨⟨_, rfl⟩, rfl, ?_⟩
  obtain ⟨res, hres, hadd⟩ := exists_of_okAnd (show okAnd (fun r => match r with | .addEvent _ _ => true | _ => false)
    (ingesterProcessEvent {} {} {} 100 (markedJson (List.replicate 256 120))) = true by decide +kernel)
  cases res with
  | addEvent packedStr jsonStr => exact ⟨packedStr, jsonStr, hres⟩
  | okResponse id written message => cases hadd

end Strfry
