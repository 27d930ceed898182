import Strfry.ActiveMonitors
import Strfry.Db

/-!
# Events from clients

`ingesterProcessEvent` (`RelayIngester.cpp`) with `parseAndVerifyEvent` and what it calls
(`events_parse.cpp`).  The hash and the signature check are parameters (`Crypto`).  An event
either is answered at once or goes to the writer.

The first thing done to an event of an ephemeral kind is to ask the tracker for
subscribers (`noSubscribers`): without any it is dropped unverified.
-/

namespace Strfry

/-- SHA256 and libsecp256k1. -/
class Crypto where
  sha256 : Bytes → Bytes
  parsePubkey : Bytes → Bool
  schnorrVerify : Bytes → Bytes → Bytes → Bool

section
variable [Golpe] [TaoJson] [Crypto] (cfg : Cfg)

def nostrHash (origJson : Json) : Except Err Bytes := do
  let pubkey ← origJson.atKey (ascii "pubkey")
  let createdAt ← origJson.atKey (ascii "created_at")
  let kind ← origJson.atKey (ascii "kind")
  let tags ← origJson.atKey (ascii "tags")
  let content ← origJson.atKey (ascii "content")
  return Crypto.sha256 (TaoJson.toString (.array [.unsigned 0, pubkey, createdAt, kind, tags, content]))

def verifySig (sig hash pubkey : Bytes) : Except Err Bool := do
  let _ ← throwIf (sig.length ≠ 64 ∨ hash.length ≠ 32 ∨ pubkey.length ≠ 32)
    (.herr "verify sig: bad input size")
  let _ ← throwIf (Crypto.parsePubkey pubkey = false) (.herr "verify sig: bad pubkey")
  return Crypto.schnorrVerify sig hash pubkey

def verifyNostrEvent (packed : PackedEventView) (origJson : Json) : Except Err Unit := do
  let hash ← nostrHash origJson
  let _ ← throwIf (hash ≠ packed.id) (.herr "bad event id")
  let sig ← fromHex (← jsonGetString (← origJson.atKey (ascii "sig")) "event sig was not a string")
  let valid ← verifySig sig packed.id packed.pubkey
  throwIf (valid = false) (.herr "bad signature")

def verifyNostrEventJsonSize (jsonStr : Bytes) : Except Err Unit :=
  throwIf (jsonStr.length > cfg.eventsMaxEventSize)
    (.herr ("event too large: " ++ toString jsonStr.length))

def verifyEventTimestamp (now : Nat) (packed : PackedEventView) : Except Err Unit := do
  let ts := packed.createdAt
  let isEphemeral := packed.expiration == 1
  let earliest := subU64 now (if isEphemeral then cfg.eventsRejectEphemeralEventsOlderThanSeconds
    else cfg.eventsRejectEventsOlderThanSeconds)
  let latest := (now + cfg.eventsRejectEventsNewerThanSeconds) % 2 ^ 64
  -- overflows
  let earliest := if earliest > now then 0 else earliest
  let latest := if latest < now then maxU64 - 1 else latest
  let _ ← throwIf (ts < earliest)
    (.herr (if isEphemeral then "ephemeral event expired" else "created_at too early"))
  let _ ← throwIf (ts > latest) (.herr "created_at too late")
  throwIf (packed.expiration > 1 ∧ packed.expiration ≤ now) (.herr "event expired")

/-- `parseAndVerifyEvent`: the packed bytes and the normalized JSON. -/
def parseAndVerifyEvent (now : Nat) (verifyMsg verifyTime : Bool) (origJson : Json) :
    Except Err (Bytes × Bytes) :=
  match origJson with
  | .object _ => do
    let packedStr ← nostrJsonToPackedEvent cfg origJson
    let packed ← PackedEventView.ofBytes packedStr
    let _ ← if verifyTime then verifyEventTimestamp cfg now packed else .ok ()
    let _ ← if verifyMsg then verifyNostrEvent packed origJson else .ok ()
    let fields ← (["content", "created_at", "id", "kind", "pubkey", "sig", "tags"].map ascii).mapM
      fun key => (origJson.atKey key).map fun v => (key, v)
    let jsonStr := TaoJson.toString (.object fields)
    let _ ← if verifyMsg then verifyNostrEventJsonSize cfg jsonStr else .ok ()
    return (packedStr, jsonStr)
  | _ => .error (.herr "event is not an object")

/-- What is accepted: the packed bytes are the parser's, the text is that of an object. -/
theorem parseAndVerifyEvent_ok {cfg : Cfg} {now : Nat} {verifyMsg verifyTime : Bool} {origJson : Json}
    {p : Bytes × Bytes} (h : parseAndVerifyEvent cfg now verifyMsg verifyTime origJson = .ok p) :
    nostrJsonToPackedEvent cfg origJson = .ok p.1 ∧ (∃ packed, PackedEventView.ofBytes p.1 = .ok packed) ∧
      ∃ fields, p.2 = TaoJson.toString (.object fields) := by
  unfold parseAndVerifyEvent at h
  split at h
  · obtain ⟨packedStr, hstr, h⟩ := bind_eq_ok.mp h
    obtain ⟨packed, hpacked, h⟩ := bind_eq_ok.mp h
    cases verifyTime <;> cases verifyMsg <;>
    · simp only [Bool.false_eq_true, if_false, if_true] at h
      obtain ⟨_, -, h⟩ := bind_eq_ok.mp h
      obtain ⟨_, -, h⟩ := bind_eq_ok.mp h
      obtain ⟨fields, -, h⟩ := bind_eq_ok.mp h
      obtain ⟨_, -, h⟩ := bind_eq_ok.mp h
      cases h
      exact ⟨hstr, ⟨packed, hpacked⟩, fields, rfl⟩
  · cases h

/-- `find(key)`. -/
def Json.find (v : Json) (key : Bytes) : Option Json :=
  match v with
  | .object kvs => (kvs.find? fun kv => kv.1 == key).map Prod.snd
  | _ => none

/-- The id in an OK response to an event that is not packed yet. -/
def replyId (origJson : Json) : Bytes :=
  match origJson.find (ascii "id") with
  | some (.string s) => s
  | _ => ascii "?"

/-- The test for ephemeral events nobody is subscribed to. -/
def noSubscribers (tracker : EphemeralSubTracker) (origJson : Json) : Except Err Bool :=
  match origJson.find (ascii "kind") with
  | some (.unsigned kind) => .ok (isEphemeralKind kind && !tracker.hasSubscribersForKind kind)
  -- a negative number is an integer too, and `get_unsigned` throws
  | some (.signed _) => .error .badVariant
  | _ => .ok false

/-- What becomes of an event: an OK response, or a message to the writer. -/
inductive Ingested where
  | okResponse (eventId : Bytes) (written : Bool) (message : String)
  | addEvent (packedStr jsonStr : Bytes)

/-- The rest of `ingesterProcessEvent`, for an event that may have subscribers. -/
def ingesterVerifyEvent (txn : Db) (now : Nat) (origJson : Json) : Except Err Ingested := do
  let (packedStr, jsonStr) ← parseAndVerifyEvent cfg now true true origJson
  let packed ← PackedEventView.ofBytes packedStr
  if packed.tags.any fun t => t.1 == tagProtected then
    return .okResponse (toHex packed.id) false "blocked: event marked as protected"
  else if txn.eventExistsById packed.id then
    return .okResponse (toHex packed.id) true "duplicate: have this event"
  else return .addEvent packedStr jsonStr

def ingesterProcessEvent (txn : Db) (tracker : EphemeralSubTracker) (now : Nat) (origJson : Json) :
    Except Err Ingested := do
  if ← noSubscribers tracker origJson then
    return .okResponse (replyId origJson) false "blocked: no subscribers for ephemeral kind"
  else ingesterVerifyEvent cfg txn now origJson

end

end Strfry
