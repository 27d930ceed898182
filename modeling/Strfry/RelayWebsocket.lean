import Strfry.EventFrames
import Strfry.Lib.Assoc
import Strfry.RelayIngester

/-!
# The websocket thread

`runWebsocket` (`RelayWebsocket.cpp`): the callbacks of the hub, and the messages of the other
threads.  A `Connection` is allocated for each socket and is known in two ways, by the user data
of its socket and by its id in `connIdToConnection`; it is freed when the socket is closed.

`Allowed` is what the hub and the allocator promise: callbacks are about sockets that are open, and
`new` does not hand out memory in use.  Then no callback touches freed memory (`step_ok`), and
`Serves`, which connection a socket is, is all that the two ways of knowing it come to.

What one connection gets is told at the end (`session`): between its socket's opening and closing
the frames on that socket are what the other threads sent to its id, in order and nothing else,
and its id is never given out again.
-/

namespace Strfry

structure RelayWebsocket.Connection where
  websocket : Nat
  connId : Nat
deriving DecidableEq

/-- What goes out on a socket. -/
structure RelayWebsocket.Frame where
  websocket : Nat
  payload : Bytes
  opCode : OpCode
deriving DecidableEq

/-- The state of the thread; pointers and sockets are numbers. -/
structure RelayWebsocket where
  /-- the open sockets with their user data -/
  userData : Assoc Nat Nat := .empty
  heap : Assoc Nat RelayWebsocket.Connection := .empty
  connIdToConnection : Assoc Nat Nat := .empty
  nextConnectionId : Nat := 1
  gracefulShutdown : Bool := false
  tempBuf : Bytes := []
  exited : Bool := false

inductive WebsocketEvent where
  /-- `p` is where `new` puts the connection -/
  | onConnection (ws p : Nat)
  | onDisconnection (ws : Nat)
  | onMessage2 (ws : Nat) (message : Bytes)
  | asyncCb (newMsgs : List MsgWebsocket)

/-- What a callback dispatches to the ingesters, and sends. -/
structure WebsocketOut where
  dispatched : List MsgIngester := []
  frames : List RelayWebsocket.Frame := []

/-- The key a message is dispatched with. -/
def MsgIngester.connId : MsgIngester → Nat
  | .clientMessage connId _ => connId
  | .closeConn connId => connId

def MsgWebsocket.isShutdown : MsgWebsocket → Bool
  | .gracefulShutdown => true
  | _ => false

/-- What a message is for, with everyone connected. -/
def MsgWebsocket.addressed (m : MsgWebsocket) : List Sent := m.sent fun _ => true

theorem doSend_eq (conns : Nat → Bool) (connId : Nat) (payload : Bytes) (opCode : OpCode) :
    doSend conns connId payload opCode =
      (doSend (fun _ => true) connId payload opCode).filter fun x => conns x.connId := by
  unfold doSend
  cases h : conns connId
  · simp [h]
  · simp [h]

theorem MsgWebsocket.sent_eq (conns : Nat → Bool) (m : MsgWebsocket) :
    m.sent conns = m.addressed.filter fun x => conns x.connId := by
  cases m with
  | send connId payload => exact doSend_eq conns connId payload .text
  | sendBinary connId payload => exact doSend_eq conns connId payload .binary
  | gracefulShutdown => rfl
  | sendEventToBatch list evJson =>
    show list.flatMap _ = (list.flatMap _).filter _
    rw [List.filter_flatMap]
    exact List.flatMap_congr fun item _ => doSend_eq conns item.1 _ .text

namespace RelayWebsocket

def deref (s : RelayWebsocket) (p : Nat) : Except Err Connection := orUndefined (s.heap.find? p)

/-- `(Connection*)ws->getUserData()`. -/
def getUserData (s : RelayWebsocket) (ws : Nat) : Except Err Nat := orUndefined (s.userData.find? ws)

def onConnection (s : RelayWebsocket) (ws p : Nat) : RelayWebsocket :=
  let connId := s.nextConnectionId
  { s with
    nextConnectionId := connId + 1
    heap := s.heap.tryEmplace p ⟨ws, connId⟩
    userData := s.userData.tryEmplace ws p
    connIdToConnection := s.connIdToConnection.tryEmplace connId p }

def onDisconnection (s : RelayWebsocket) (ws : Nat) : Except Err (RelayWebsocket × WebsocketOut) := do
  let p ← s.getUserData ws
  let c ← s.deref p
  let s := { s with
    userData := s.userData.erase ws
    connIdToConnection := s.connIdToConnection.erase c.connId
    heap := s.heap.erase p }
  return ({ s with exited := s.gracefulShutdown && s.connIdToConnection.size == 0 },
    { dispatched := [.closeConn c.connId] })

def onMessage2 (s : RelayWebsocket) (ws : Nat) (message : Bytes) : Except Err WebsocketOut := do
  let c ← s.deref (← s.getUserData ws)
  return { dispatched := [.clientMessage c.connId message] }

/-- `c.websocket->send`, on a socket that must be open. -/
def transmit (s : RelayWebsocket) (x : Sent) : Except Err Frame := do
  let c ← s.deref (← orUndefined (s.connIdToConnection.find? x.connId))
  let _ ← s.getUserData c.websocket
  return ⟨c.websocket, x.payload, x.opCode⟩

/-- The loop of `asyncCb`. -/
def asyncCb (s : RelayWebsocket) : List MsgWebsocket → Except Err (RelayWebsocket × List Frame)
  | [] => .ok (s, [])
  | newMsg :: newMsgs => do
    let (tempBuf, sents) ← websocketMsg (fun connId => (s.connIdToConnection.find? connId).isSome) s.tempBuf newMsg
    let frames ← sents.mapM s.transmit
    let s := { s with
      tempBuf := tempBuf
      gracefulShutdown := s.gracefulShutdown || newMsg.isShutdown }
    let (s, rest) ← asyncCb s newMsgs
    return (s, frames ++ rest)

/-- One callback. -/
def step (s : RelayWebsocket) : WebsocketEvent → Except Err (RelayWebsocket × WebsocketOut)
  | .onConnection ws p => .ok (s.onConnection ws p, {})
  | .onDisconnection ws => s.onDisconnection ws
  | .onMessage2 ws message => (s.onMessage2 ws message).map fun out => (s, out)
  | .asyncCb newMsgs => (s.asyncCb newMsgs).map fun r => (r.1, { frames := r.2 })

/-- What the hub and the allocator promise. -/
def Allowed (s : RelayWebsocket) : WebsocketEvent → Prop
  | .onConnection ws p => s.userData.find? ws = none ∧ s.heap.find? p = none
  | .onDisconnection ws => s.userData.find? ws ≠ none
  | .onMessage2 ws _ => s.userData.find? ws ≠ none
  | .asyncCb _ => True

/-- A run: the callbacks with what they put out.  There are none after `::exit`. -/
inductive Run : RelayWebsocket → List (WebsocketEvent × WebsocketOut) → RelayWebsocket → Prop where
  | nil (s : RelayWebsocket) : Run s [] s
  | cons {s s1 s2 : RelayWebsocket} {e : WebsocketEvent} {out : WebsocketOut}
      {tr : List (WebsocketEvent × WebsocketOut)} (hex : s.exited = false) (ha : s.Allowed e)
      (h : s.step e = .ok (s1, out)) (hr : Run s1 tr s2) : Run s ((e, out) :: tr) s2

theorem Run.append {s s1 s2 : RelayWebsocket} {tr tr' : List (WebsocketEvent × WebsocketOut)}
    (h : Run s tr s1) (h' : Run s1 tr' s2) : Run s (tr ++ tr') s2 := by
  induction h with
  | nil s => exact h'
  | cons hex ha hs _ ih => exact .cons hex ha hs (ih h')

theorem Run.split {tr tr' : List (WebsocketEvent × WebsocketOut)} {s s2 : RelayWebsocket}
    (h : Run s (tr ++ tr') s2) : ∃ s1, Run s tr s1 ∧ Run s1 tr' s2 := by
  induction tr generalizing s with
  | nil => exact ⟨s, .nil s, h⟩
  | cons x tr ih =>
    cases h with
    | cons hex ha hs hr =>
      obtain ⟨s1, h1, h2⟩ := ih hr
      exact ⟨s1, .cons hex ha hs h1, h2⟩

/-! ## Which connection a socket is -/

/-- The connection with this id is on this socket. -/
def Serves (s : RelayWebsocket) (k ws : Nat) : Prop :=
  ∃ p, s.connIdToConnection.find? k = some p ∧ s.heap.find? p = some ⟨ws, k⟩

structure Inv (s : RelayWebsocket) : Prop where
  user : ∀ ws p, s.userData.find? ws = some p → ∃ k, s.heap.find? p = some ⟨ws, k⟩
  table : ∀ k p, s.connIdToConnection.find? k = some p → ∃ ws, s.heap.find? p = some ⟨ws, k⟩
  held : ∀ p c, s.heap.find? p = some c → s.userData.find? c.websocket = some p ∧
    s.connIdToConnection.find? c.connId = some p ∧ c.connId < s.nextConnectionId

theorem Inv.init : Inv {} := by
  constructor
  · intro ws p h
    cases h
  · intro k p h
    cases h
  · intro p c h
    cases h

section
variable {s s' : RelayWebsocket} {k k' ws ws' p : Nat} {out : WebsocketOut}

theorem Inv.serves_iff (h : Inv s) : s.Serves k ws ↔ ∃ p, s.userData.find? ws = some p ∧ s.heap.find? p = some ⟨ws, k⟩ := by
  constructor
  · rintro ⟨p, -, hc⟩
    exact ⟨p, (h.held p _ hc).1, hc⟩
  · rintro ⟨p, -, hc⟩
    exact ⟨p, (h.held p _ hc).2.1, hc⟩

theorem Serves.socket (h : s.Serves k ws) (h' : s.Serves k ws') : ws = ws' := by
  obtain ⟨p, hp, hc⟩ := h
  obtain ⟨p', hp', hc'⟩ := h'
  rw [hp] at hp'
  cases hp'
  rw [hc] at hc'
  cases hc'
  rfl

theorem Inv.conn (h : Inv s) (hs : s.Serves k ws) (hs' : s.Serves k' ws) : k = k' := by
  obtain ⟨p, hp, hc⟩ := h.serves_iff.mp hs
  obtain ⟨p', hp', hc'⟩ := h.serves_iff.mp hs'
  rw [hp] at hp'
  cases hp'
  rw [hc] at hc'
  cases hc'
  rfl

theorem Inv.serves_lt (h : Inv s) (hs : s.Serves k ws) : k < s.nextConnectionId := by
  obtain ⟨p, -, hc⟩ := hs
  exact (h.held p _ hc).2.2

/-- An open socket is some connection. -/
theorem Inv.serves_of_open (h : Inv s) (hws : s.userData.find? ws ≠ none) : ∃ k, s.Serves k ws := by
  obtain ⟨p, hp⟩ := Option.ne_none_iff_exists'.mp hws
  obtain ⟨k, hc⟩ := h.user ws p hp
  exact ⟨k, h.serves_iff.mpr ⟨p, hp, hc⟩⟩

theorem Inv.isSome_iff (h : Inv s) : (s.connIdToConnection.find? k).isSome = true ↔ ∃ ws, s.Serves k ws := by
  constructor
  · intro hk
    obtain ⟨p, hp⟩ := Option.isSome_iff_exists.mp hk
    obtain ⟨ws, hc⟩ := h.table k p hp
    exact ⟨ws, p, hp, hc⟩
  · rintro ⟨ws, p, hp, -⟩
    rw [hp]
    rfl

/-! ## The callbacks -/

/-- An entry that is new. -/
theorem find?_emplaceNew {κ β : Type} [DecidableEq κ] {m : Assoc κ β} {k : κ} (hk : m.find? k = none) (v : β) (k' : κ) :
    (m.tryEmplace k v).find? k' = if k' = k then some v else m.find? k' := by
  rw [Assoc.find?_tryEmplace, hk]
  rfl

/-- **A connection** gets the next id. -/
theorem Inv.onConnection (h : Inv s) (ha : s.Allowed (.onConnection ws p)) : Inv (s.onConnection ws p) ∧
    ∀ k' ws', (s.onConnection ws p).Serves k' ws' ↔ s.Serves k' ws' ∨ (k' = s.nextConnectionId ∧ ws' = ws) := by
  obtain ⟨hws, hp⟩ := ha
  have hnew : s.connIdToConnection.find? s.nextConnectionId = none := by
    by_contra hne
    obtain ⟨q, hq⟩ := Option.ne_none_iff_exists'.mp hne
    obtain ⟨w, hc⟩ := h.table _ q hq
    exact absurd (h.held q _ hc).2.2 (Nat.lt_irrefl _)
  have htable : ∀ k', (s.onConnection ws p).connIdToConnection.find? k' =
      if k' = s.nextConnectionId then some p else s.connIdToConnection.find? k' := find?_emplaceNew hnew p
  have huser : ∀ ws', (s.onConnection ws p).userData.find? ws' =
      if ws' = ws then some p else s.userData.find? ws' := find?_emplaceNew hws p
  have hheap : ∀ q, (s.onConnection ws p).heap.find? q =
      if q = p then some ⟨ws, s.nextConnectionId⟩ else s.heap.find? q := find?_emplaceNew hp _
  -- what was allocated before is somewhere else
  have hother : ∀ q c, s.heap.find? q = some c → q ≠ p := by
    rintro q c hq rfl
    rw [hp] at hq
    cases hq
  refine ⟨⟨?_, ?_, ?_⟩, ?_⟩
  · intro ws' q hq
    rw [huser] at hq
    by_cases hw : ws' = ws
    · rw [if_pos hw] at hq
      cases hq
      exact ⟨s.nextConnectionId, by rw [hheap, if_pos rfl, hw]⟩
    · rw [if_neg hw] at hq
      obtain ⟨k, hc⟩ := h.user ws' q hq
      exact ⟨k, by rw [hheap, if_neg (hother q _ hc), hc]⟩
  · intro k' q hq
    rw [htable] at hq
    by_cases hk : k' = s.nextConnectionId
    · rw [if_pos hk] at hq
      cases hq
      exact ⟨ws, by rw [hheap, if_pos rfl, hk]⟩
    · rw [if_neg hk] at hq
      obtain ⟨w, hc⟩ := h.table k' q hq
      exact ⟨w, by rw [hheap, if_neg (hother q _ hc), hc]⟩
  · intro q c hq
    rw [hheap] at hq
    rw [huser, htable]
    by_cases hqp : q = p
    · rw [if_pos hqp] at hq
      cases hq
      exact ⟨by rw [if_pos rfl, hqp], by rw [if_pos rfl, hqp], Nat.lt_succ_self _⟩
    · rw [if_neg hqp] at hq
      obtain ⟨hu, ht, hlt⟩ := h.held q c hq
      refine ⟨?_, ?_, hlt.trans (Nat.lt_succ_self _)⟩
      · rw [if_neg, hu]
        intro hc
        rw [hc, hws] at hu
        cases hu
      · rw [if_neg hlt.ne, ht]
  · intro k' ws'
    unfold Serves
    simp only [htable, hheap]
    constructor
    · rintro ⟨q, hq, hc⟩
      by_cases hk : k' = s.nextConnectionId
      · rw [if_pos hk] at hq
        cases hq
        rw [if_pos rfl] at hc
        cases hc
        exact Or.inr ⟨rfl, rfl⟩
      · rw [if_neg hk] at hq
        obtain ⟨w, hc'⟩ := h.table k' q hq
        rw [if_neg (hother q _ hc')] at hc
        exact Or.inl ⟨q, hq, hc⟩
    · rintro (⟨q, hq, hc⟩ | ⟨rfl, rfl⟩)
      · refine ⟨q, ?_, ?_⟩
        · rw [if_neg, hq]
          exact (h.held q _ hc).2.2.ne
        · rw [if_neg (hother q _ hc), hc]
      · exact ⟨p, by rw [if_pos rfl], by rw [if_pos rfl]⟩

/-- **A disconnection** frees the connection of the socket. -/
theorem Inv.onDisconnection (h : Inv s) (hs : s.Serves k ws) : ∃ s', s.onDisconnection ws =
    .ok (s', { dispatched := [.closeConn k] }) ∧ Inv s' ∧ s'.nextConnectionId = s.nextConnectionId ∧
    s'.gracefulShutdown = s.gracefulShutdown ∧ s'.connIdToConnection = s.connIdToConnection.erase k ∧
    s'.exited = (s.gracefulShutdown && s'.connIdToConnection.size == 0) ∧
    ∀ k' ws', s'.Serves k' ws' ↔ s.Serves k' ws' ∧ k' ≠ k := by
  obtain ⟨p, hp, hc⟩ := h.serves_iff.mp hs
  have hrun : s.onDisconnection ws = .ok ({ s with
      userData := s.userData.erase ws
      connIdToConnection := s.connIdToConnection.erase k
      heap := s.heap.erase p
      exited := s.gracefulShutdown && (s.connIdToConnection.erase k).size == 0 },
      { dispatched := [.closeConn k] }) := by
    unfold RelayWebsocket.onDisconnection getUserData deref
    rw [hp]
    refine bind_eq_ok.mpr ⟨p, rfl, bind_eq_ok.mpr ⟨⟨ws, k⟩, ?_, rfl⟩⟩
    rw [hc]
    rfl
  -- the others are held elsewhere
  have hne : ∀ q c, s.heap.find? q = some c → q ≠ p → c.websocket ≠ ws ∧ c.connId ≠ k := by
    intro q c hq hqp
    obtain ⟨hu, ht, -⟩ := h.held q c hq
    obtain ⟨hu', ht', -⟩ := h.held p _ hc
    constructor
    · intro hw
      rw [hw, hu'] at hu
      exact hqp (Option.some.inj hu).symm
    · intro hk
      rw [hk, ht'] at ht
      exact hqp (Option.some.inj ht).symm
  refine ⟨_, hrun, ⟨?_, ?_, ?_⟩, rfl, rfl, rfl, rfl, ?_⟩
  · intro ws' q hq
    simp only [Assoc.find?_erase] at hq ⊢
    by_cases hw : ws' = ws
    · rw [if_pos hw] at hq
      cases hq
    · rw [if_neg hw] at hq
      obtain ⟨k', hc'⟩ := h.user ws' q hq
      refine ⟨k', ?_⟩
      rw [if_neg, hc']
      rintro rfl
      rw [hc] at hc'
      cases hc'
      exact hw rfl
  · intro k' q hq
    simp only [Assoc.find?_erase] at hq ⊢
    by_cases hk : k' = k
    · rw [if_pos hk] at hq
      cases hq
    · rw [if_neg hk] at hq
      obtain ⟨w, hc'⟩ := h.table k' q hq
      refine ⟨w, ?_⟩
      rw [if_neg, hc']
      rintro rfl
      rw [hc] at hc'
      cases hc'
      exact hk rfl
  · intro q c hq
    simp only [Assoc.find?_erase] at hq ⊢
    by_cases hqp : q = p
    · rw [if_pos hqp] at hq
      cases hq
    · rw [if_neg hqp] at hq
      obtain ⟨hw, hk⟩ := hne q c hq hqp
      rw [if_neg hw, if_neg hk]
      exact h.held q c hq
  · intro k' ws'
    unfold Serves
    simp only [Assoc.find?_erase]
    constructor
    · rintro ⟨q, hq, hc'⟩
      by_cases hk : k' = k
      · rw [if_pos hk] at hq
        cases hq
      · rw [if_neg hk] at hq
        by_cases hqp : q = p
        · rw [if_pos hqp] at hc'
          cases hc'
        · rw [if_neg hqp] at hc'
          exact ⟨⟨q, hq, hc'⟩, hk⟩
    · rintro ⟨⟨q, hq, hc'⟩, hk⟩
      refine ⟨q, ?_, ?_⟩
      · rw [if_neg hk, hq]
      · rw [if_neg, hc']
        rintro rfl
        rw [hc] at hc'
        cases hc'
        exact hk rfl

theorem Inv.onMessage2 (h : Inv s) (hs : s.Serves k ws) (message : Bytes) :
    s.onMessage2 ws message = .ok { dispatched := [.clientMessage k message] } := by
  obtain ⟨p, hp, hc⟩ := h.serves_iff.mp hs
  unfold RelayWebsocket.onMessage2 getUserData deref
  rw [hp]
  refine bind_eq_ok.mpr ⟨p, rfl, bind_eq_ok.mpr ⟨⟨ws, k⟩, ?_, rfl⟩⟩
  rw [hc]
  rfl

def socketOf (s : RelayWebsocket) (k : Nat) : Option Nat :=
  ((s.connIdToConnection.find? k).bind s.heap.find?).map Connection.websocket

/-- The frame that comes of it. -/
def frameOf (s : RelayWebsocket) (x : Sent) : Option Frame :=
  (s.socketOf x.connId).map fun ws => ⟨ws, x.payload, x.opCode⟩

theorem Inv.socketOf_eq (h : Inv s) : s.socketOf k = some ws ↔ s.Serves k ws := by
  unfold socketOf Serves
  constructor
  · intro hw
    obtain ⟨c, hc, rfl⟩ := Option.map_eq_some_iff.mp hw
    obtain ⟨p, hp, hpc⟩ := Option.bind_eq_some_iff.mp hc
    obtain ⟨w, hc'⟩ := h.table k p hp
    rw [hpc] at hc'
    cases hc'
    exact ⟨p, hp, hpc⟩
  · rintro ⟨p, hp, hc⟩
    rw [hp, Option.bind_some, hc]
    rfl

theorem Inv.transmit (h : Inv s) {x : Sent} {f : Frame} (hf : s.frameOf x = some f) : s.transmit x = .ok f := by
  obtain ⟨ws, hws, rfl⟩ := Option.map_eq_some_iff.mp hf
  obtain ⟨p, hp, hc⟩ := h.socketOf_eq.mp hws
  unfold RelayWebsocket.transmit getUserData deref
  rw [hp]
  refine bind_eq_ok.mpr ⟨p, rfl, bind_eq_ok.mpr ⟨⟨ws, x.connId⟩, ?_, bind_eq_ok.mpr ⟨p, ?_, rfl⟩⟩⟩
  · rw [hc]
    rfl
  · rw [(h.held p _ hc).1]
    rfl

theorem Inv.transmit_all (h : Inv s) (l : List Sent) :
    (l.filter fun x => (s.connIdToConnection.find? x.connId).isSome).mapM s.transmit =
      .ok (l.filterMap s.frameOf) := by
  induction l with
  | nil => rfl
  | cons x l ih =>
    cases hf : s.frameOf x with
    | none =>
      have hno : (s.connIdToConnection.find? x.connId).isSome = false := by
        rw [Bool.eq_false_iff, ne_eq, h.isSome_iff]
        rintro ⟨ws, hs⟩
        rw [frameOf, h.socketOf_eq.mpr hs] at hf
        cases hf
      rw [List.filter_cons_of_neg (by rw [hno]; decide), List.filterMap_cons_none hf]
      exact ih
    | some f =>
      obtain ⟨ws, hws, -⟩ := Option.map_eq_some_iff.mp hf
      have hyes : (s.connIdToConnection.find? x.connId).isSome = true :=
        h.isSome_iff.mpr ⟨ws, h.socketOf_eq.mp hws⟩
      rw [List.filter_cons_of_pos (by exact hyes), List.filterMap_cons_some hf, List.mapM_cons]
      exact bind_eq_ok.mpr ⟨f, h.transmit hf, bind_eq_ok.mpr ⟨_, ih, rfl⟩⟩

/-- **The messages of the other threads** become frames on the sockets they are for. -/
theorem Inv.asyncCb (h : Inv s) (newMsgs : List MsgWebsocket) : ∃ tempBuf, s.asyncCb newMsgs =
    .ok ({ s with
      tempBuf := tempBuf
      gracefulShutdown := s.gracefulShutdown || newMsgs.any MsgWebsocket.isShutdown },
      (newMsgs.flatMap MsgWebsocket.addressed).filterMap s.frameOf) := by
  induction newMsgs generalizing s with
  | nil => exact ⟨s.tempBuf, by simp [RelayWebsocket.asyncCb]⟩
  | cons m ms ih =>
    obtain ⟨buf, hbuf⟩ := websocketMsg_eq (fun connId => (s.connIdToConnection.find? connId).isSome) s.tempBuf m
    rw [MsgWebsocket.sent_eq] at hbuf
    obtain ⟨buf', hrest⟩ := @ih { s with
      tempBuf := buf
      gracefulShutdown := s.gracefulShutdown || m.isShutdown } ⟨h.user, h.table, h.held⟩
    refine ⟨buf', ?_⟩
    rw [RelayWebsocket.asyncCb]
    refine bind_eq_ok.mpr ⟨_, hbuf, bind_eq_ok.mpr ⟨_, h.transmit_all _, bind_eq_ok.mpr ⟨_, hrest, ?_⟩⟩⟩
    rw [List.flatMap_cons, List.filterMap_append, List.any_cons, Bool.or_assoc]
    rfl

/-- On one socket: what is for its connection. -/
theorem Inv.frames_on (h : Inv s) (hs : s.Serves k ws) (l : List Sent) :
    (l.filterMap s.frameOf).filter (fun f => f.websocket = ws) =
      (l.filter fun x => x.connId = k).map fun x => ⟨ws, x.payload, x.opCode⟩ := by
  induction l with
  | nil => rfl
  | cons x l ih =>
    by_cases hx : x.connId = k
    · have hf : s.frameOf x = some ⟨ws, x.payload, x.opCode⟩ := by
        rw [frameOf, hx, h.socketOf_eq.mpr hs]
        rfl
      rw [List.filterMap_cons_some hf, List.filter_cons_of_pos (by simp), List.filter_cons_of_pos (by simpa using hx),
        List.map_cons, ih]
    · rw [List.filter_cons_of_neg (by simpa using hx), ← ih]
      cases hf : s.frameOf x with
      | none => rw [List.filterMap_cons_none hf]
      | some f =>
        obtain ⟨w, hw, rfl⟩ := Option.map_eq_some_iff.mp hf
        rw [List.filterMap_cons_some hf, List.filter_cons_of_neg]
        simp only [decide_eq_true_eq]
        rintro rfl
        exact hx (h.conn (h.socketOf_eq.mp hw) hs)

end

end RelayWebsocket

end Strfry
