import Strfry.RelayWebsocket

/-!
# Sessions

A run of the websocket thread told from one connection's side.  While a socket is open it is one
connection (`Run.open`): the frames on it are the messages for that connection, in their order, and
what the client sends is dispatched under its id.  Before its id was given out and after its socket
was closed nothing is dispatched under it (`Run.unborn`, `Run.gone`).  `session` puts the three
parts of a run together.

The thread ends the process at one point only: a disconnection after a request to shut down, that
leaves no connection (`exited_iff`).  A request that finds no connection open ends nothing.
-/

namespace Strfry

namespace RelayWebsocket

/-- A callback with what it put out. -/
abbrev Called := WebsocketEvent × WebsocketOut

def Called.opens : Called → Bool
  | (.onConnection _ _, _) => true
  | _ => false

def Called.closes (ws : Nat) : Called → Bool
  | (.onDisconnection ws', _) => ws' == ws
  | _ => false

def Called.closesAny : Called → Bool
  | (.onDisconnection _, _) => true
  | _ => false

/-- A request to shut down among the messages. -/
def Called.shutdown : Called → Bool
  | (.asyncCb newMsgs, _) => newMsgs.any MsgWebsocket.isShutdown
  | _ => false

/-- What the other threads send. -/
def Called.addressed : Called → List Sent
  | (.asyncCb newMsgs, _) => newMsgs.flatMap MsgWebsocket.addressed
  | _ => []

def Called.messageOn (ws : Nat) : Called → Option Bytes
  | (.onMessage2 ws' message, _) => if ws' = ws then some message else none
  | _ => none

/-- The frames on a socket. -/
def framesOn (ws : Nat) (tr : List Called) : List Frame :=
  (tr.flatMap fun c => c.2.frames).filter fun f => f.websocket = ws

/-- What the other threads send to a connection. -/
def addressedTo (k : Nat) (tr : List Called) : List Sent :=
  (tr.flatMap Called.addressed).filter fun x => x.connId = k

/-- What is dispatched under an id. -/
def dispatchedWith (k : Nat) (tr : List Called) : List MsgIngester :=
  (tr.flatMap fun c => c.2.dispatched).filter fun m => m.connId = k

/-- What a client sends. -/
def messagesOn (ws : Nat) (tr : List Called) : List Bytes := tr.filterMap (Called.messageOn ws)

theorem framesOn_cons (ws : Nat) (c : Called) (tr : List Called) :
    framesOn ws (c :: tr) = (c.2.frames.filter fun f => f.websocket = ws) ++ framesOn ws tr := by
  rw [framesOn, List.flatMap_cons, List.filter_append]
  rfl

theorem addressedTo_cons (k : Nat) (c : Called) (tr : List Called) :
    addressedTo k (c :: tr) = (c.addressed.filter fun x => x.connId = k) ++ addressedTo k tr := by
  rw [addressedTo, List.flatMap_cons, List.filter_append]
  rfl

theorem dispatchedWith_cons (k : Nat) (c : Called) (tr : List Called) :
    dispatchedWith k (c :: tr) = (c.2.dispatched.filter fun m => m.connId = k) ++ dispatchedWith k tr := by
  rw [dispatchedWith, List.flatMap_cons, List.filter_append]
  rfl

theorem dispatchedWith_append (k : Nat) (tr tr' : List Called) :
    dispatchedWith k (tr ++ tr') = dispatchedWith k tr ++ dispatchedWith k tr' := by
  rw [dispatchedWith, List.flatMap_append, List.filter_append]
  rfl

theorem dispatchedWith_none {c : Called} (hd : c.2.dispatched = []) (k : Nat) (tr : List Called) :
    dispatchedWith k (c :: tr) = dispatchedWith k tr := by
  rw [dispatchedWith_cons, hd]
  rfl

theorem dispatchedWith_ne {c : Called} {m : MsgIngester} {k : Nat} (hd : c.2.dispatched = [m]) (h : m.connId ≠ k)
    (tr : List Called) : dispatchedWith k (c :: tr) = dispatchedWith k tr := by
  rw [dispatchedWith_cons, hd, List.filter_cons_of_neg (by simpa using h)]
  rfl

theorem dispatchedWith_eq {c : Called} {m : MsgIngester} {k : Nat} (hd : c.2.dispatched = [m]) (h : m.connId = k)
    (tr : List Called) : dispatchedWith k (c :: tr) = m :: dispatchedWith k tr := by
  rw [dispatchedWith_cons, hd, List.filter_cons_of_pos (by simpa using h)]
  rfl

/-! ## One callback -/

/-- What a callback does, in four cases. -/
inductive Does (s : RelayWebsocket) : WebsocketEvent → RelayWebsocket → WebsocketOut → Prop where
  | connection (ws p : Nat) (s' : RelayWebsocket) (hfree : ∀ k, ¬ s.Serves k ws)
      (hs : ∀ k' ws', s'.Serves k' ws' ↔ s.Serves k' ws' ∨ (k' = s.nextConnectionId ∧ ws' = ws))
      (hnext : s'.nextConnectionId = s.nextConnectionId + 1)
      (hsize : s'.connIdToConnection.size = s.connIdToConnection.size + 1)
      (hg : s'.gracefulShutdown = s.gracefulShutdown) (hex : s'.exited = s.exited) :
      Does s (.onConnection ws p) s' {}
  | disconnection (ws k : Nat) (s' : RelayWebsocket) (hk : s.Serves k ws)
      (hs : ∀ k' ws', s'.Serves k' ws' ↔ s.Serves k' ws' ∧ k' ≠ k)
      (hnext : s'.nextConnectionId = s.nextConnectionId)
      (hsize : s'.connIdToConnection.size + 1 = s.connIdToConnection.size)
      (hg : s'.gracefulShutdown = s.gracefulShutdown)
      (hex : s'.exited = (s.gracefulShutdown && s'.connIdToConnection.size == 0)) :
      Does s (.onDisconnection ws) s' { dispatched := [.closeConn k] }
  | message (ws k : Nat) (text : Bytes) (hk : s.Serves k ws) :
      Does s (.onMessage2 ws text) s { dispatched := [.clientMessage k text] }
  | async (newMsgs : List MsgWebsocket) (s' : RelayWebsocket) (hs : ∀ k' ws', s'.Serves k' ws' ↔ s.Serves k' ws')
      (hnext : s'.nextConnectionId = s.nextConnectionId)
      (hsize : s'.connIdToConnection.size = s.connIdToConnection.size)
      (hg : s'.gracefulShutdown = (s.gracefulShutdown || newMsgs.any MsgWebsocket.isShutdown))
      (hex : s'.exited = s.exited) :
      Does s (.asyncCb newMsgs) s' { frames := (newMsgs.flatMap MsgWebsocket.addressed).filterMap s.frameOf }

section
variable {s s' : RelayWebsocket} {e : WebsocketEvent} {out : WebsocketOut} {k ws : Nat} {tr : List Called}

theorem size_erase {κ β : Type} [DecidableEq κ] {m : Assoc κ β} {k : κ} {v : β} (h : m.find? k = some v) :
    (m.erase k).size + 1 = m.size := by
  have := Assoc.total_erase h fun _ => 1
  unfold Assoc.total at this
  simp only [List.map_const', List.sum_replicate_nat, Nat.mul_one] at this
  exact (Nat.add_comm _ _).trans this.symm

theorem size_tryEmplace {κ β : Type} [DecidableEq κ] {m : Assoc κ β} {k : κ} (h : m.find? k = none) (v : β) :
    (m.tryEmplace k v).size = m.size + 1 := by
  have := Assoc.total_tryEmplace h v fun _ => 1
  unfold Assoc.total at this
  simp only [List.map_const', List.sum_replicate_nat, Nat.mul_one] at this
  exact this.trans (Nat.add_comm _ _)

/-- **No callback fails**: freed memory and closed sockets are not touched. -/
theorem Inv.step_ok (h : Inv s) (ha : s.Allowed e) : ∃ s' out, s.step e = .ok (s', out) ∧ Inv s' ∧ Does s e s' out := by
  cases e with
  | onConnection ws p =>
    obtain ⟨hinv, hserves⟩ := h.onConnection ha
    have hnew : s.connIdToConnection.find? s.nextConnectionId = none := by
      by_contra hne
      obtain ⟨w, hw⟩ := h.isSome_iff.mp (Option.isSome_iff_ne_none.mpr hne)
      exact absurd (h.serves_lt hw) (Nat.lt_irrefl _)
    refine ⟨_, _, rfl, hinv, .connection ws p _ (fun k hk => ?_) hserves rfl (size_tryEmplace hnew p) rfl rfl⟩
    obtain ⟨q, hq, -⟩ := h.serves_iff.mp hk
    rw [ha.1] at hq
    cases hq
  | onDisconnection ws =>
    obtain ⟨k, hk⟩ := h.serves_of_open ha
    obtain ⟨s', hs', hinv, hnext, hg, htable, hex, hserves⟩ := h.onDisconnection hk
    refine ⟨s', _, hs', hinv, .disconnection ws k s' hk hserves hnext ?_ hg hex⟩
    obtain ⟨p, hp, -⟩ := hk
    rw [htable]
    exact size_erase hp
  | onMessage2 ws message =>
    obtain ⟨k, hk⟩ := h.serves_of_open ha
    refine ⟨s, _, ?_, h, .message ws k message hk⟩
    show (s.onMessage2 ws message).map _ = _
    rw [h.onMessage2 hk]
    rfl
  | asyncCb newMsgs =>
    obtain ⟨tempBuf, hrun⟩ := h.asyncCb newMsgs
    refine ⟨{ s with
      tempBuf := tempBuf
      gracefulShutdown := s.gracefulShutdown || newMsgs.any MsgWebsocket.isShutdown }, _, ?_,
      ⟨h.user, h.table, h.held⟩, .async newMsgs _ (fun _ _ => Iff.rfl) rfl rfl rfl rfl⟩
    show (s.asyncCb newMsgs).map _ = _
    rw [hrun]
    rfl

theorem Inv.step (h : Inv s) (ha : s.Allowed e) (hs : s.step e = .ok (s', out)) : Inv s' ∧ Does s e s' out := by
  obtain ⟨s1, out1, h1, hinv, hdoes⟩ := h.step_ok ha
  rw [hs] at h1
  cases h1
  exact ⟨hinv, hdoes⟩

theorem Run.inv (hr : Run s tr s') (h : Inv s) : Inv s' := by
  induction hr with
  | nil s => exact h
  | cons hex ha hs _ ih => exact ih (h.step ha hs).1

/-- The ids that were given out. -/
theorem Run.nextConnectionId (hr : Run s tr s') (h : Inv s) :
    s'.nextConnectionId = s.nextConnectionId + tr.countP Called.opens := by
  induction hr with
  | nil s => rfl
  | cons hex ha hs _ ih =>
    obtain ⟨hinv, hdoes⟩ := h.step ha hs
    rw [ih hinv, List.countP_cons]
    cases hdoes with
    | connection ws p s1 hfree hserves hnext =>
      rw [hnext]
      simp only [Called.opens, if_true]
      omega
    | disconnection ws k s1 hk hserves hnext =>
      rw [hnext]
      rfl
    | message ws k text hk => rfl
    | async newMsgs s1 hserves hnext =>
      rw [hnext]
      rfl

/-- **An id that is not given out yet** is in no dispatch. -/
theorem Run.unborn (hr : Run s tr s') (h : Inv s) (hk : s'.nextConnectionId ≤ k) : dispatchedWith k tr = [] := by
  induction hr with
  | nil s => rfl
  | @cons s s1 s2 e out tr hex ha hs hr ih =>
    obtain ⟨hinv, hdoes⟩ := h.step ha hs
    have hlt : s.nextConnectionId ≤ k := by
      rw [(Run.cons hex ha hs hr).nextConnectionId h] at hk
      omega
    have hne : ∀ k' ws, s.Serves k' ws → k' ≠ k := fun k' ws hs hkk => by
      have := h.serves_lt hs
      omega
    rw [← ih hinv hk]
    cases hdoes with
    | connection => exact dispatchedWith_none rfl k tr
    | disconnection ws k' s1 hk' => exact dispatchedWith_ne (m := .closeConn k') rfl (hne k' ws hk') tr
    | message ws k' text hk' => exact dispatchedWith_ne (m := .clientMessage k' text) rfl (hne k' ws hk') tr
    | async => exact dispatchedWith_none rfl k tr

/-- **An id whose socket is closed** is in no dispatch, and never given out again. -/
theorem Run.gone (hr : Run s tr s') (h : Inv s) (hk : k < s.nextConnectionId) (hno : ∀ ws, ¬ s.Serves k ws) :
    dispatchedWith k tr = [] ∧ ∀ ws, ¬ s'.Serves k ws := by
  induction hr with
  | nil s => exact ⟨rfl, hno⟩
  | @cons s s1 s2 e out tr hex ha hs hr ih =>
    obtain ⟨hinv, hdoes⟩ := h.step ha hs
    have hne : ∀ k' ws, s.Serves k' ws → k' ≠ k := by
      rintro k' ws hs rfl
      exact hno ws hs
    cases hdoes with
    | connection ws p s1 hfree hserves hnext =>
      rw [dispatchedWith_none rfl]
      refine ih hinv (by omega) fun ws' hs' => ?_
      rcases (hserves k ws').mp hs' with hs' | ⟨rfl, -⟩
      · exact hno ws' hs'
      · exact absurd hk (Nat.lt_irrefl _)
    | disconnection ws k' s1 hk' hserves hnext =>
      rw [dispatchedWith_ne (m := .closeConn k') rfl (hne k' ws hk')]
      refine ih hinv (by omega) fun ws' hs' => ?_
      exact hno ws' ((hserves k ws').mp hs').1
    | message ws k' text hk' =>
      rw [dispatchedWith_ne (m := .clientMessage k' text) rfl (hne k' ws hk')]
      exact ih hinv hk hno
    | async newMsgs s1 hserves hnext =>
      rw [dispatchedWith_none rfl]
      exact ih hinv (by omega) fun ws' hs' => hno ws' ((hserves k ws').mp hs')

/-- **A socket that stays open** is one connection. -/
theorem Run.open (hr : Run s tr s') (h : Inv s) (hk : s.Serves k ws) (hopen : ∀ c ∈ tr, Called.closes ws c = false) :
    s'.Serves k ws ∧ framesOn ws tr = (addressedTo k tr).map (fun x => ⟨ws, x.payload, x.opCode⟩) ∧
    dispatchedWith k tr = (messagesOn ws tr).map fun message => .clientMessage k message := by
  induction hr with
  | nil s => exact ⟨hk, rfl, rfl⟩
  | @cons s s1 s2 e out tr hex ha hs hr ih =>
    obtain ⟨hinv, hdoes⟩ := h.step ha hs
    have hopen' : ∀ c ∈ tr, Called.closes ws c = false := fun c hc => hopen c (List.mem_cons_of_mem _ hc)
    rw [framesOn_cons, addressedTo_cons, List.map_append]
    cases hdoes with
    | connection ws' p s1 hfree hserves =>
      rw [dispatchedWith_none rfl]
      exact ih hinv ((hserves k ws).mpr (Or.inl hk)) hopen'
    | disconnection ws' k' s1 hk' hserves =>
      have hne : ws' ≠ ws := by
        have := hopen _ List.mem_cons_self
        simpa [Called.closes] using this
      have hkk : k' ≠ k := by
        rintro rfl
        exact hne (hk'.socket hk)
      rw [dispatchedWith_ne (m := .closeConn k') rfl hkk]
      exact ih hinv ((hserves k ws).mpr ⟨hk, hkk.symm⟩) hopen'
    | message ws' k' text hk' =>
      obtain ⟨hs', hf, hd⟩ := ih hinv hk hopen'
      refine ⟨hs', hf, ?_⟩
      by_cases hw : ws' = ws
      · subst hw
        obtain rfl := h.conn hk' hk
        rw [dispatchedWith_eq (m := .clientMessage k' text) (k := k') rfl rfl, hd]
        simp [messagesOn, Called.messageOn]
      · have hkk : k' ≠ k := by
          rintro rfl
          exact hw (hk'.socket hk)
        rw [dispatchedWith_ne (m := .clientMessage k' text) rfl hkk, hd]
        simp [messagesOn, Called.messageOn, hw]
    | async newMsgs s1 hserves =>
      obtain ⟨hs', hf, hd⟩ := ih hinv ((hserves k ws).mpr hk) hopen'
      rw [dispatchedWith_none rfl]
      refine ⟨hs', ?_, hd⟩
      rw [hf]
      exact congrArg (· ++ _) (h.frames_on hk _)

/-- The connections there are, and whether a shutdown was asked for. -/
theorem Run.counts (hr : Run s tr s') (h : Inv s) :
    s'.connIdToConnection.size + tr.countP Called.closesAny = s.connIdToConnection.size + tr.countP Called.opens ∧
    s'.gracefulShutdown = (s.gracefulShutdown || tr.any Called.shutdown) := by
  induction hr with
  | nil s => simp
  | @cons s s1 s2 e out tr hex ha hs hr ih =>
    obtain ⟨hinv, hdoes⟩ := h.step ha hs
    obtain ⟨hsize', hg'⟩ := ih hinv
    rw [List.countP_cons, List.countP_cons, List.any_cons, hg', ← Bool.or_assoc]
    cases hdoes with
    | connection ws p s1 hfree hserves hnext hsize hg =>
      simp only [Called.opens, Called.closesAny, Called.shutdown, hg, Bool.or_false, and_true, if_true]
      simp only [Bool.false_eq_true, if_false]
      omega
    | disconnection ws k s1 hk hserves hnext hsize hg =>
      simp only [Called.opens, Called.closesAny, Called.shutdown, hg, Bool.or_false, and_true, if_true]
      simp only [Bool.false_eq_true, if_false]
      omega
    | message ws k text hk =>
      simp only [Called.opens, Called.closesAny, Called.shutdown, Bool.or_false, and_true]
      simp only [Bool.false_eq_true, if_false]
      omega
    | async newMsgs s1 hserves hnext hsize hg =>
      simp only [Called.opens, Called.closesAny, Called.shutdown, hg, and_true]
      simp only [Bool.false_eq_true, if_false]
      omega

end

/-! ## Whole runs -/

section
variable {pre mid post : List Called} {ws p : Nat} {o o' : WebsocketOut} {s : RelayWebsocket}

/-- Up to now, a socket that was opened and not closed. -/
theorem session_open (hr : Run {} (pre ++ (.onConnection ws p, o) :: mid) s)
    (hopen : ∀ c ∈ mid, Called.closes ws c = false) : s.Serves (pre.countP Called.opens + 1) ws ∧
    framesOn ws mid = (addressedTo (pre.countP Called.opens + 1) mid).map (fun x => ⟨ws, x.payload, x.opCode⟩) ∧
    dispatchedWith (pre.countP Called.opens + 1) (pre ++ (.onConnection ws p, o) :: mid) =
      (messagesOn ws mid).map fun message => .clientMessage (pre.countP Called.opens + 1) message := by
  obtain ⟨s1, hpre, hrest⟩ := hr.split
  have hinv := hpre.inv .init
  have hnext : s1.nextConnectionId = pre.countP Called.opens + 1 := by
    rw [hpre.nextConnectionId .init, Nat.add_comm]
  have hunborn := hpre.unborn .init hnext.le
  cases hrest with
  | cons hex ha hs hr' =>
    obtain ⟨hinv', hdoes⟩ := hinv.step ha hs
    cases hdoes with
    | connection ws p s2 hfree hserves =>
      obtain ⟨hk, hframes, hdisp⟩ := hr'.open hinv' ((hserves _ ws).mpr (Or.inr ⟨hnext.symm, rfl⟩)) hopen
      refine ⟨hk, hframes, ?_⟩
      rw [dispatchedWith_append, hunborn, dispatchedWith_none rfl, hdisp]
      rfl

/-- **A session**, from the opening of a socket to its closing.  Between the two the frames on the
socket are the messages of the other threads for its connection, in their order; over the whole run
its id stands for the client's messages, in their order, and then for one CloseConn. -/
theorem session (hr : Run {} (pre ++ (.onConnection ws p, o) :: (mid ++ (.onDisconnection ws, o') :: post)) s)
    (hopen : ∀ c ∈ mid, Called.closes ws c = false) :
    framesOn ws mid = (addressedTo (pre.countP Called.opens + 1) mid).map (fun x => ⟨ws, x.payload, x.opCode⟩) ∧
    dispatchedWith (pre.countP Called.opens + 1)
        (pre ++ (.onConnection ws p, o) :: (mid ++ (.onDisconnection ws, o') :: post)) =
      (messagesOn ws mid).map (fun message => .clientMessage (pre.countP Called.opens + 1) message) ++
        [.closeConn (pre.countP Called.opens + 1)] := by
  rw [← List.cons_append, ← List.append_assoc] at hr ⊢
  obtain ⟨s1, hmid, hrest⟩ := hr.split
  obtain ⟨hk, hframes, hdisp⟩ := session_open hmid hopen
  refine ⟨hframes, ?_⟩
  rw [dispatchedWith_append, hdisp]
  have hinv := hmid.inv .init
  cases hrest with
  | cons hex ha hs hr' =>
    obtain ⟨hinv', hdoes⟩ := hinv.step ha hs
    cases hdoes with
    | disconnection ws k s2 hk' hserves hnext =>
      obtain rfl := hinv.conn hk' hk
      have hgone := hr'.gone hinv' (hnext ▸ hinv.serves_lt hk) fun ws' hs' => ((hserves _ ws').mp hs').2 rfl
      rw [dispatchedWith_eq (m := .closeConn _) (k := pre.countP Called.opens + 1) rfl rfl, hgone.1]

/-- A client that is sent a text between its message and its disconnection, with one for somebody else
and a request to shut down. -/
def oneClient : List Called :=
  [(.onMessage2 5 (ascii "hi"), { dispatched := [.clientMessage 1 (ascii "hi")] }),
    (.asyncCb [.send 1 (ascii "ok"), .sendBinary 2 (ascii "no"), .gracefulShutdown], { frames := [⟨5, ascii "ok", .text⟩] })]

def oneClosed : WebsocketOut := { dispatched := [.closeConn 1] }

theorem oneClient_run : ∃ s, Run {} ([] ++ (WebsocketEvent.onConnection 5 7, ({} : WebsocketOut)) ::
    (oneClient ++ (WebsocketEvent.onDisconnection 5, oneClosed) :: [])) s ∧ s.exited = true := by
  refine ⟨_, .cons rfl ⟨rfl, rfl⟩ rfl (.cons rfl ?_ rfl (.cons rfl trivial rfl (.cons rfl ?_ rfl (.nil _)))), rfl⟩
  · exact Option.some_ne_none 7
  · exact Option.some_ne_none 7

theorem session_one : framesOn 5 oneClient = [⟨5, ascii "ok", .text⟩] := by
  obtain ⟨s, hr, -⟩ := oneClient_run
  exact (session hr (by decide)).1

/-- **The process ends** exactly at a disconnection that leaves no connection, after a shutdown was
asked for. -/
theorem exited_iff (tr : List Called) {e : WebsocketEvent} {out : WebsocketOut}
    (hr : Run {} (tr ++ [(e, out)]) s) : s.exited = true ↔
      (∃ ws, e = .onDisconnection ws) ∧ tr.any Called.shutdown = true ∧
        tr.countP Called.opens = tr.countP Called.closesAny + 1 := by
  obtain ⟨s1, hpre, hlast⟩ := hr.split
  have hinv := hpre.inv .init
  obtain ⟨hsize, hg⟩ := hpre.counts .init
  have hzero : ({} : RelayWebsocket).connIdToConnection.size = 0 := rfl
  rw [hzero, Nat.zero_add] at hsize
  cases hlast with
  | cons hex ha hs hr' =>
    cases hr'
    obtain ⟨-, hdoes⟩ := hinv.step ha hs
    cases hdoes with
    | connection ws p s2 hfree hserves hnext hsize' hg' hex' =>
      rw [hex', hex]
      simp
    | disconnection ws k s2 hk hserves hnext hsize' hg' hex' =>
      rw [hex', hg, Bool.and_eq_true, beq_iff_eq]
      simp only [Bool.false_or, WebsocketEvent.onDisconnection.injEq, exists_eq', true_and]
      exact and_congr Iff.rfl ⟨fun h0 => by omega, fun h0 => by omega⟩
    | message ws k text hk =>
      rw [hex]
      simp
    | async newMsgs s2 hserves hnext hsize' hg' hex' =>
      rw [hex', hex]
      simp

/-- The client was the last one. -/
theorem exited_one : oneClient.any Called.shutdown = true := by
  obtain ⟨s, hr, hex⟩ := oneClient_run
  exact ((exited_iff ((WebsocketEvent.onConnection 5 7, ({} : WebsocketOut)) :: oneClient) hr).mp hex).2.1

end

end RelayWebsocket

end Strfry
