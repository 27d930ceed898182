import Strfry.Subscription
import Strfry.Lib.Buffer
import Strfry.Lib.JsonText

/-!
# Event frames

An event goes to a subscription as `["EVENT","<subId>",<evJson>]`.  `RelaySender::sendEvent`
builds the frame for one recipient; for a batch the websocket thread writes the event once
into `tempBuf`, behind `10 + MAX_SUBID_SIZE` bytes of room, and then for each recipient
right-aligns the head of the frame in that room and sends from there on.  `tempBuf` is kept
from one message to the next.

    room (74)                        rest
    ....["EVENT","<subId>            ",<evJson>]

Whatever `tempBuf` held before, the frames sent for a batch are those of `sendEvent`
(`websocketRun_eq`): a recipient only changes the room, and sends the part of it that it wrote.
-/

namespace Strfry

/-! ## `SubId` in memory -/

/-- `(size_t)c`; a `char` is signed. -/
def charToSize (c : Byte) : Nat := if c.val < 128 then c.val else 2 ^ 64 - 256 + c.val

/-- The constructor: the checks, then the size and the characters into the object's bytes. -/
def SubId.construct (mem val : Bytes) : Except Err Bytes := do
  let _ ← SubId.ofBytes val
  let mem ← orUndefined (Buffer.write mem 0 [Fin.ofNat 256 val.length])
  orUndefined (Buffer.write mem 1 val)

/-- `sv()`. -/
def SubId.sv (buf : Bytes) : Except Err Bytes := orUndefined (Buffer.read buf 1 (charToSize (buf.headD 0)))

/-- A constructed id: `char buf[MAX_SUBID_SIZE + 1]`, the tail as it was. -/
structure SubIdObject where
  buf : Bytes
  made : ∃ mem val, mem.length = maxSubIdSize + 1 ∧ SubId.construct mem val = .ok buf

theorem SubId.ofBytes_ok {val : Bytes} {id : SubId} (h : SubId.ofBytes val = .ok id) : id.val = val := by
  unfold SubId.ofBytes at h
  split at h
  · split at h
    · cases h
      rfl
    · cases h
  · cases h

/-- The characters of an id stand for themselves in JSON. -/
theorem SubId.plain (id : SubId) : ∀ c ∈ id.val, JsonText.Plain c := by
  intro c hc
  have hgood := List.any_eq_false.mp id.chars c hc
  simp only [SubId.badChar, Bool.or_eq_true, decide_eq_true_eq, beq_iff_eq, not_or] at hgood
  obtain ⟨⟨⟨hlow, hslash⟩, hquote⟩, -⟩ := hgood
  refine ⟨by omega, ?_, ?_⟩
  · rintro rfl
    exact hquote rfl
  · rintro rfl
    exact hslash rfl

/-- What was constructed is an id, and `sv()` returns it. -/
theorem SubId.construct_ok {mem val buf : Bytes} (hmem : mem.length = maxSubIdSize + 1)
    (h : SubId.construct mem val = .ok buf) : (∃ id : SubId, id.val = val) ∧ SubId.sv buf = .ok val := by
  unfold SubId.construct at h
  obtain ⟨id, hid, h⟩ := bind_eq_ok.mp h
  obtain rfl := SubId.ofBytes_ok hid
  have hlen : id.val.length ≤ 64 := id.len.2
  obtain ⟨a, b, rfl, ha, hb⟩ : ∃ a b, mem = a ++ b ∧ a.length = 1 ∧ b.length = 64 :=
    Buffer.exists_append (by rw [hmem]; rfl)
  obtain ⟨c, d, rfl, hc, -⟩ : ∃ c d, b = c ++ d ∧ c.length = id.val.length ∧ d.length = 64 - id.val.length :=
    Buffer.exists_append (by omega)
  have h1 : Buffer.write (a ++ (c ++ d)) 0 [Fin.ofNat 256 id.val.length] =
      some ([Fin.ofNat 256 id.val.length] ++ (c ++ d)) := Buffer.write_append (a := []) rfl ha
  have h2 : Buffer.write ([Fin.ofNat 256 id.val.length] ++ (c ++ d)) 1 id.val =
      some ([Fin.ofNat 256 id.val.length] ++ (id.val ++ d)) := Buffer.write_append rfl hc
  rw [h1] at h
  have h : orUndefined (Buffer.write ([Fin.ofNat 256 id.val.length] ++ (c ++ d)) 1 id.val) = .ok buf := h
  rw [h2] at h
  cases h
  refine ⟨⟨id, rfl⟩, ?_⟩
  have hsize : charToSize (Fin.ofNat 256 id.val.length : Byte) = id.val.length := by
    have hv : (Fin.ofNat 256 id.val.length : Byte).val = id.val.length := by
      show id.val.length % 256 = id.val.length
      omega
    unfold charToSize
    rw [hv, if_pos (by omega)]
  unfold SubId.sv
  have hread : Buffer.read ([Fin.ofNat 256 id.val.length] ++ (id.val ++ d)) 1
      (charToSize (([Fin.ofNat 256 id.val.length] ++ (id.val ++ d)).headD 0)) = some id.val :=
    Buffer.read_append rfl hsize.symm
  rw [hread]
  rfl

/-- The characters of a constructed id. -/
def SubIdObject.str (o : SubIdObject) : Bytes := (o.buf.drop 1).take (charToSize (o.buf.headD 0))

theorem SubIdObject.sv_eq (o : SubIdObject) : SubId.sv o.buf = .ok o.str ∧ o.str.length ≤ 64 := by
  obtain ⟨mem, val, hmem, hmade⟩ := o.made
  obtain ⟨⟨id, hid⟩, hsv⟩ := SubId.construct_ok hmem hmade
  have hstr : o.str = val := by
    have h := orUndefined_ok hsv
    unfold Buffer.read at h
    split at h
    · exact Option.some.inj h
    · cases h
  rw [hstr]
  exact ⟨hsv, hid ▸ id.len.2⟩

/-! ## The websocket thread -/

inductive OpCode where
  | text
  | binary
deriving DecidableEq

inductive MsgWebsocket where
  | send (connId : Nat) (payload : Bytes)
  | sendBinary (connId : Nat) (payload : Bytes)
  | sendEventToBatch (list : List (Nat × SubIdObject)) (evJson : Bytes)
  | gracefulShutdown

/-- A call of `websocket->send`. -/
structure Sent where
  connId : Nat
  payload : Bytes
  opCode : OpCode
deriving DecidableEq

section
variable (conns : Nat → Bool)

/-- `doSend`: nothing to a connection that is gone. -/
def doSend (connId : Nat) (payload : Bytes) (opCode : OpCode) : List Sent :=
  if conns connId then [⟨connId, payload, opCode⟩] else []

/-- One turn of the loop over the recipients. -/
def sendToRecipient (evLen : Nat) (st : Bytes × List Sent) (item : Nat × SubIdObject) :
    Except Err (Bytes × List Sent) := do
  let subIdSv ← SubId.sv item.2.buf
  -- a longer id would start before the buffer
  let _ ← throwIf (maxSubIdSize < subIdSv.length) .undefined
  let p := maxSubIdSize - subIdSv.length
  let tempBuf ← orUndefined (Buffer.write st.1 p (ascii "[\"EVENT\",\""))
  let tempBuf ← orUndefined (Buffer.write tempBuf (p + 10) subIdSv)
  let payload ← orUndefined (Buffer.read tempBuf p (13 + subIdSv.length + evLen))
  return (tempBuf, st.2 ++ doSend conns item.1 payload .text)

/-- One message of `asyncCb`, with `tempBuf` as the message before left it. -/
def websocketMsg (tempBuf : Bytes) : MsgWebsocket → Except Err (Bytes × List Sent)
  | .send connId payload => .ok (tempBuf, doSend conns connId payload .text)
  | .sendBinary connId payload => .ok (tempBuf, doSend conns connId payload .binary)
  | .sendEventToBatch list evJson => list.foldlM (sendToRecipient conns evJson.length)
      (Buffer.resize tempBuf (10 + maxSubIdSize) 0 ++ ascii "\"," ++ evJson ++ ascii "]", [])
  | .gracefulShutdown => .ok (tempBuf, [])

end

/-- The text of a frame. -/
def eventFrame (subId evJson : Bytes) : Bytes :=
  ascii "[\"EVENT\",\"" ++ subId ++ ascii "\"," ++ evJson ++ ascii "]"

section
variable (conns : Nat → Bool)

/-- What a message makes the thread send. -/
def MsgWebsocket.sent : MsgWebsocket → List Sent
  | .send connId payload => doSend conns connId payload .text
  | .sendBinary connId payload => doSend conns connId payload .binary
  | .sendEventToBatch list evJson => list.flatMap fun item => doSend conns item.1 (eventFrame item.2.str evJson) .text
  | .gracefulShutdown => []

/-- One recipient: the room changes, the frame is sent. -/
theorem sendToRecipient_eq {room evJson : Bytes} (hroom : room.length = 74) (out : List Sent)
    (item : Nat × SubIdObject) : ∃ room' : Bytes, room'.length = 74 ∧
      sendToRecipient conns evJson.length (room ++ (ascii "\"," ++ evJson ++ ascii "]"), out) item =
        .ok (room' ++ (ascii "\"," ++ evJson ++ ascii "]"),
          out ++ doSend conns item.1 (eventFrame item.2.str evJson) .text) := by
  obtain ⟨hsv, hlen⟩ := item.2.sv_eq
  obtain ⟨a, b, rfl, ha, hb⟩ : ∃ a b, room = a ++ b ∧ a.length = 64 - item.2.str.length ∧
      b.length = 10 + item.2.str.length := Buffer.exists_append (by omega)
  obtain ⟨c, d, rfl, hc, hd⟩ : ∃ c d, b = c ++ d ∧ c.length = 10 ∧ d.length = item.2.str.length :=
    Buffer.exists_append hb
  generalize hend : ascii "\"," ++ evJson ++ ascii "]" = rest
  generalize hhead : ascii "[\"EVENT\",\"" = head
  have hheadlen : head.length = 10 := by
    rw [← hhead]
    rfl
  have hrestlen : rest.length = 3 + evJson.length := by
    rw [← hend]
    simp only [List.length_append]
    show 2 + evJson.length + 1 = _
    omega
  -- the two writes and the read, on the parts of the buffer
  have h1 : Buffer.write (a ++ (c ++ (d ++ rest))) (64 - item.2.str.length) head =
      some (a ++ (head ++ (d ++ rest))) := Buffer.write_append ha (by omega)
  have h2 : Buffer.write (a ++ (head ++ (d ++ rest))) (64 - item.2.str.length + 10) item.2.str =
      some (a ++ (head ++ (item.2.str ++ rest))) := by
    rw [← List.append_assoc a head, ← List.append_assoc a head]
    exact Buffer.write_append (by rw [List.length_append]; omega) hd
  have h3 : Buffer.read (a ++ (head ++ (item.2.str ++ rest))) (64 - item.2.str.length)
      (13 + item.2.str.length + evJson.length) = some (head ++ (item.2.str ++ rest)) := by
    have := Buffer.read_append (c := []) ha (b := head ++ (item.2.str ++ rest))
      (n := 13 + item.2.str.length + evJson.length) (by simp only [List.length_append]; omega)
    rwa [List.append_nil] at this
  refine ⟨a ++ (head ++ item.2.str), by simp only [List.length_append]; omega, ?_⟩
  have hframe : head ++ (item.2.str ++ rest) = eventFrame item.2.str evJson := by
    rw [← hend, ← hhead]
    simp only [eventFrame, List.append_assoc]
  unfold sendToRecipient
  simp only [hhead, List.append_assoc]
  refine bind_eq_ok.mpr ⟨_, hsv, bind_eq_ok.mpr ⟨(), throwIf_eq_ok.mpr (Nat.not_lt.mpr hlen), ?_⟩⟩
  refine bind_eq_ok.mpr ⟨_, congrArg orUndefined h1, bind_eq_ok.mpr ⟨_, congrArg orUndefined h2, ?_⟩⟩
  refine bind_eq_ok.mpr ⟨_, congrArg orUndefined h3, ?_⟩
  rw [hframe]
  rfl

/-- All recipients of a batch. -/
theorem sendToRecipients_eq {room evJson : Bytes} (hroom : room.length = 74) (out : List Sent)
    (list : List (Nat × SubIdObject)) : ∃ tempBuf,
      list.foldlM (sendToRecipient conns evJson.length) (room ++ (ascii "\"," ++ evJson ++ ascii "]"), out) =
        .ok (tempBuf, out ++ list.flatMap fun item =>
          doSend conns item.1 (eventFrame item.2.str evJson) .text) := by
  induction list generalizing room out with
  | nil => exact ⟨_, by rw [List.flatMap_nil, List.append_nil]; rfl⟩
  | cons item list ih =>
    obtain ⟨room', hroom', h⟩ := sendToRecipient_eq conns hroom out item
    obtain ⟨tempBuf, hrest⟩ := ih hroom' (out ++ doSend conns item.1 (eventFrame item.2.str evJson) .text)
    refine ⟨tempBuf, ?_⟩
    rw [List.foldlM_cons, List.flatMap_cons]
    rw [List.append_assoc out] at hrest
    exact bind_eq_ok.mpr ⟨_, h, hrest⟩

/-- One message, whatever the buffer held. -/
theorem websocketMsg_eq (tempBuf : Bytes) (m : MsgWebsocket) :
    ∃ tempBuf', websocketMsg conns tempBuf m = .ok (tempBuf', m.sent conns) := by
  cases m with
  | send connId payload => exact ⟨tempBuf, rfl⟩
  | sendBinary connId payload => exact ⟨tempBuf, rfl⟩
  | gracefulShutdown => exact ⟨tempBuf, rfl⟩
  | sendEventToBatch list evJson =>
    obtain ⟨tempBuf', h⟩ := @sendToRecipients_eq conns _ evJson
      (Buffer.length_resize tempBuf (10 + maxSubIdSize) 0) [] list
    refine ⟨tempBuf', ?_⟩
    rw [← List.append_assoc, ← List.append_assoc] at h
    exact h

end

end Strfry
