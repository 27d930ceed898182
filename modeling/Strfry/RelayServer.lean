import Strfry.Lib.Pool
import Strfry.RelayWebsocketSpec

/-!
# The relay's threads

`RelayServer` (`RelayServer.h`) as a system: the websocket thread, the pool of ingesters and the
writer, with the inboxes between them (`ThreadPool.h`) and the replies on their way back
(`RelaySender.h`).  A client's message is dispatched to the ingester its connection picks; the
ingester answers it or collects it for the writer; the writer answers what it was passed.

Each thread works in turns: it takes all that is in its inbox, and handles it message by message.
Anything may happen between two of these steps (`ServerStep`): callbacks of the hub, turns of the
other threads, commits of other writers, replies of the threads that are not part of this system.
`ServerLog` is not part of the program; it records what was handed over.
-/

namespace Strfry

/-- `e.what()`. -/
class What where
  what : Err → Bytes

/-- What is sent to a client, before it is made into a text. -/
inductive Reply where
  | ok (connId : Nat) (eventIdHex : Bytes) (written : Bool) (message : Bytes)
  | notice (connId : Nat) (payload : Bytes)
  | closed (connId : Nat) (subId payload : Bytes)
  /-- from a thread that is not part of the system -/
  | other (msg : MsgWebsocket)

namespace RelaySender

section
variable [TaoJson]

def sendOKResponse (connId : Nat) (eventIdHex : Bytes) (written : Bool) (message : Bytes) : MsgWebsocket :=
  .send connId (TaoJson.toString
    (.array [.string (ascii "OK"), .string eventIdHex, .bool written, .string message]))

def sendNoticeError (connId : Nat) (payload : Bytes) : MsgWebsocket :=
  .send connId (TaoJson.toString (.array [.string (ascii "NOTICE"), .string (ascii "ERROR: " ++ payload)]))

def sendClosedError (connId : Nat) (subId payload : Bytes) : MsgWebsocket :=
  .send connId (TaoJson.toString
    (.array [.string (ascii "CLOSED"), .string subId, .string (ascii "ERROR: " ++ payload)]))

end

end RelaySender

namespace Reply

def msg [TaoJson] : Reply → MsgWebsocket
  | .ok connId eventIdHex written message => RelaySender.sendOKResponse connId eventIdHex written message
  | .notice connId payload => RelaySender.sendNoticeError connId payload
  | .closed connId subId payload => RelaySender.sendClosedError connId subId payload
  | .other msg => msg

/-- Whom an OK is for, and for which event. -/
def addressee : Reply → Option (Nat × Bytes)
  | .ok connId eventIdHex _ _ => some (connId, eventIdHex)
  | _ => none

/-- The OKs for a connection, as they are sent. -/
def okFor [TaoJson] (k : Nat) : Reply → Option Sent
  | .ok connId eventIdHex written message => if connId = k then
      some ⟨connId, TaoJson.toString
        (.array [.string (ascii "OK"), .string eventIdHex, .bool written, .string message]), .text⟩ else none
  | _ => none

end Reply

section
variable [What]

def IngesterSend.reply : IngesterSend → Option Reply
  | .okResponse connId eventIdHex written text what =>
    some (.ok connId eventIdHex written (ascii text ++ what.elim [] What.what))
  | .closed connId subId text what => some (.closed connId subId (ascii text ++ What.what what))
  | .notice connId text what => some (.notice connId (ascii text ++ What.what what))
  | .writer _ => none
  | .reqWorker _ => none
  | .negentropy _ => none

def OkMessage.bytes : OkMessage → Bytes
  | .text s => ascii s
  | .plugin okMsg => okMsg
  | .writeError e => ascii "Write error: " ++ What.what e

def OkResponse.reply (ok : OkResponse) : Reply := .ok ok.connId ok.eventIdHex ok.written ok.message.bytes

end

/-- What goes to the writer at once. -/
def IngesterSend.toWriter : IngesterSend → List MsgWriter
  | .writer msgs => msgs
  | _ => []

/-- An ingester in its turn. -/
structure IngesterTurn where
  newMsgs : List MsgIngester
  txn : Db
  writerMsgs : List MsgWriter := []

structure ServerLog (n : Nat) where
  /-- the messages for the ingesters -/
  dispatched : List MsgIngester := []
  /-- what each ingester took off its inbox -/
  taken : Fin n → List MsgIngester := fun _ => []
  /-- what it has handled, with the connections and ids that are owed an OK for it -/
  handled : Fin n → List (MsgIngester × List (Nat × Bytes)) := fun _ => []
  /-- the AddEvents the writer has dropped -/
  dropped : List (Nat × Bytes) := []
  /-- the replies, and those the websocket thread has taken -/
  posted : List Reply := []
  popped : List Reply := []
  /-- what was sent on open sockets -/
  sent : List Sent := []

structure RelayServer (n : Nat) where
  websocket : RelayWebsocket := {}
  tpWebsocket : Pool 1 Reply := Pool.empty
  tpIngester : Pool n MsgIngester := Pool.empty
  tpWriter : Pool 1 MsgWriter := Pool.empty
  ingesters : Fin n → Option IngesterTurn := fun _ => none
  /-- the answers the writer is sending -/
  answering : List Reply := []
  db : Db := {}
  log : ServerLog n := {}

namespace RelayServer

section
variable {n : Nat} [NeZero n]

/-- The messages a callback dispatches. -/
def dispatchAll (s : RelayServer n) (ms : List MsgIngester) : RelayServer n :=
  ms.foldl (fun s m => { s with
    tpIngester := s.tpIngester.dispatch m.connId m
    log.dispatched := s.log.dispatched ++ [m] }) s

/-- `RelaySender`: the replies go to the websocket thread. -/
def post (s : RelayServer n) (replies : List Reply) : RelayServer n := { s with
  tpWebsocket := s.tpWebsocket.dispatchMulti 0 replies
  log.posted := s.log.posted ++ replies }

/-- Whom the answers to a message are owed to: those sent, and those that will be. -/
def owed [What] (before : List MsgWriter) (st : IngesterState) : List (Nat × Bytes) :=
  (st.sent.filterMap IngesterSend.reply).filterMap Reply.addressee ++
    (st.writerMsgs.drop before.length).filterMap MsgWriter.addressee

/-- The AddEvents of connections that are closed in the same batch. -/
def droppedOf (batch : List MsgWriter) : List (Nat × Bytes) :=
  (batch.filterMap MsgWriter.addressee).filter fun x => x.1 ∈ closedConns batch

end

/-- One step. -/
inductive Step [Golpe] [TaoJson] [Crypto] [StdSort] [What] (cfg : IngesterCfg) {n : Nat} [NeZero n]
    (s : RelayServer n) : RelayServer n → Prop where
  /-- a callback of the hub -/
  | callback (e : WebsocketEvent) (websocket : RelayWebsocket) (out : WebsocketOut)
      (hex : s.websocket.exited = false) (he : ∀ newMsgs, e ≠ .asyncCb newMsgs) (ha : s.websocket.Allowed e)
      (h : s.websocket.step e = .ok (websocket, out)) :
      Step cfg s (dispatchAll { s with websocket := websocket } out.dispatched)
  /-- `asyncCb`, on all replies there are -/
  | async (replies : List Reply) (tpWebsocket : Pool 1 Reply) (websocket : RelayWebsocket) (out : WebsocketOut)
      (hex : s.websocket.exited = false) (htake : s.tpWebsocket.takeAll 0 = (replies, tpWebsocket))
      (h : s.websocket.step (.asyncCb (replies.map Reply.msg)) = .ok (websocket, out)) : Step cfg s { s with
        websocket := websocket
        tpWebsocket := tpWebsocket
        log.popped := s.log.popped ++ replies
        log.sent := s.log.sent ++ ((replies.map Reply.msg).flatMap MsgWebsocket.addressed).filter
          fun x => (s.websocket.frameOf x).isSome }
  | ingesterWake (i : Fin n) (newMsgs : List MsgIngester) (tpIngester : Pool n MsgIngester)
      (hidle : s.ingesters i = none) (htake : s.tpIngester.takeAll i = (newMsgs, tpIngester)) : Step cfg s { s with
        tpIngester := tpIngester
        ingesters := Function.update s.ingesters i (some { newMsgs := newMsgs, txn := s.db })
        log.taken := Function.update s.log.taken i (s.log.taken i ++ newMsgs) }
  | ingesterMsg (i : Fin n) (turn : IngesterTurn) (newMsg : MsgIngester) (rest : List MsgIngester)
      (tracker : EphemeralSubTracker) (now : Nat) (st : IngesterState) (hturn : s.ingesters i = some turn)
      (hmsgs : turn.newMsgs = newMsg :: rest)
      (hst : st = ingest cfg turn.txn tracker now { writerMsgs := turn.writerMsgs } newMsg) : Step cfg s
        { s.post (st.sent.filterMap IngesterSend.reply) with
          tpWriter := s.tpWriter.dispatchMulti newMsg.connId (st.sent.flatMap IngesterSend.toWriter)
          ingesters := Function.update s.ingesters i (some { turn with newMsgs := rest, writerMsgs := st.writerMsgs })
          log.handled := Function.update s.log.handled i
            (s.log.handled i ++ [(newMsg, owed turn.writerMsgs st)]) }
  | ingesterEnd (i : Fin n) (turn : IngesterTurn) (hturn : s.ingesters i = some turn) (hmsgs : turn.newMsgs = []) :
      Step cfg s { s with
        tpWriter := s.tpWriter.dispatchMulti 0 turn.writerMsgs
        ingesters := Function.update s.ingesters i none }
  /-- a batch of the writer; the plugin and the cached filters are as they may be -/
  | writerTurn (policy : WritePolicy) (cache : NegentropyFilterCache) (newMsgs : List MsgWriter)
      (tpWriter : Pool 1 MsgWriter) (r : WriterTurn) (hidle : s.answering = [])
      (htake : s.tpWriter.takeAll 0 = (newMsgs, tpWriter))
      (h : runWriterTurn policy s.db cache newMsgs = .ok r) : Step cfg s { s with
        tpWriter := tpWriter
        answering := r.oks.map OkResponse.reply
        db := r.db
        log.dropped := s.log.dropped ++ droppedOf newMsgs }
  | writerSend (reply : Reply) (rest : List Reply) (hanswering : s.answering = reply :: rest) :
      Step cfg s { s.post [reply] with answering := rest }
  /-- a thread that is not part of the system sends something -/
  | other (msg : MsgWebsocket) : Step cfg s (s.post [.other msg])
  /-- a transaction of another writer -/
  | commit (db : Db) : Step cfg s { s with db := db }

inductive Reached [Golpe] [TaoJson] [Crypto] [StdSort] [What] (cfg : IngesterCfg) {n : Nat} [NeZero n] :
    RelayServer n → Prop where
  | init (db : Db) : Reached cfg { db := db }
  | step {s s' : RelayServer n} (h : Reached cfg s) (hs : Step cfg s s') : Reached cfg s'

/-! ## What is told of it -/

section
variable {n : Nat}

def eventOfCommand : Except Err (Bytes × Json × List Json) → Option Json
  | .ok (cmd, second, _) => if cmd = ascii "EVENT" then some second else none
  | .error _ => none

/-- The JSON of an EVENT. -/
def eventOf [TaoJson] : MsgIngester → Option Json
  | .clientMessage _ payload =>
    if startsWith payload (ascii "[") then eventOfCommand (parseCommand payload) else none
  | .closeConn _ => none

/-- The EVENTs of a connection. -/
def eventsFrom [TaoJson] (s : RelayServer n) (k : Nat) : List Json :=
  (s.log.dispatched.filter fun m => m.connId = k).filterMap eventOf

/-- The ids of the OKs for a connection. -/
def oksTo (s : RelayServer n) (k : Nat) : List Bytes :=
  ((s.log.posted.filterMap Reply.addressee).filter fun x => x.1 = k).map Prod.snd

/-- The id an OK has: as the event names it, or the same bytes written by the relay. -/
def Names [Golpe] (origJson : Json) (id : Bytes) : Prop :=
  id = replyId origJson ∨ ∃ s raw, origJson.atKey (ascii "id") = .ok (.string s) ∧ fromHex s = .ok raw ∧ id = toHex raw

/-- Nothing is under way to the writer or back. -/
def Settled (s : RelayServer n) : Prop :=
  (∀ i, s.tpIngester i = [] ∧ s.ingesters i = none) ∧ s.tpWriter 0 = [] ∧ s.answering = []

/-- What an ingester has still to handle, and what it collected for the writer. -/
def turnMsgs (s : RelayServer n) (i : Fin n) : List MsgIngester := (s.ingesters i).elim [] IngesterTurn.newMsgs

def turnWriterMsgs (s : RelayServer n) (i : Fin n) : List MsgWriter :=
  (s.ingesters i).elim [] IngesterTurn.writerMsgs

/-- What is for one connection. -/
def ofConn (k : Nat) (l : List (Nat × Bytes)) : List (Nat × Bytes) := l.filter fun x => x.1 = k

/-- The OKs that are owed by the writer, or will be. -/
def underWay (s : RelayServer n) (i : Fin n) : List (Nat × Bytes) :=
  s.answering.filterMap Reply.addressee ++
    ((s.tpWriter 0).filterMap MsgWriter.addressee ++ (s.turnWriterMsgs i).filterMap MsgWriter.addressee)

end

end RelayServer

end Strfry
