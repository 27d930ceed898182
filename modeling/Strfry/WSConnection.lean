import Strfry.Json

/-!
# Connections to other relays

`WSConnection` (`WSConnection.h`): a connection that is made again whenever it is lost, with a delay
before each new attempt.  The hub is known by what it promises: an attempt ends in a connection or in
an error, and the callbacks about a socket come while it is open (`Allowed`).  While the thread
sleeps before an attempt no callback runs, but `close()` may be called.

Until then there is always one thing to wait for, an attempt, its delay or the socket
(`single`): the connection never stalls, and the code that ends an older connection is never
needed.  After `close()` a disconnection is no longer noticed, and the trigger that follows ends
`currWs` whether it is open or not; `terminate_iff` says exactly when it is.
-/

namespace Strfry

structure WSConnection where
  reconnect : Bool := true
  shutdown : Bool := false
  currWs : Option Nat := none
  /-- `hubGroup` and `hubTrigger` are there -/
  alive : Bool := true
  /-- in the delay of `doConnect` -/
  sleeping : Bool := false

/-- What is done, or called back. -/
inductive WSAction where
  | connect
  | terminate (ws : Nat)
  | onConnect
  | onMessage (msg : Bytes)
  | onTrigger
  | onDisconnect
  | onError
deriving DecidableEq

inductive WSEvent where
  | onConnection (ws : Nat)
  | onDisconnection (ws : Nat)
  | onError
  | onMessage2 (ws : Nat) (msg : Bytes)
  | asyncCb
  /-- the delay is over -/
  | wake
  /-- from any thread -/
  | close
deriving DecidableEq

namespace WSConnection

/-- What `doConnect` does after its delay. -/
def doConnect (c : WSConnection) : List WSAction := if c.shutdown then [] else [.connect]

def onConnection (c : WSConnection) (ws : Nat) : WSConnection × List WSAction :=
  if c.shutdown then (c, [])
  else ({ c with currWs := some ws }, c.currWs.toList.map .terminate ++ [.onConnect])

def onDisconnection (c : WSConnection) (ws : Nat) : WSConnection × List WSAction :=
  if c.shutdown then (c, [])
  else if c.currWs = some ws then ({ c with currWs := none, sleeping := c.reconnect }, [.onDisconnect])
  else (c, [])

def onErrorCb (c : WSConnection) : WSConnection × List WSAction := ({ c with sleeping := c.reconnect }, [.onError])

/-- `terminate()`: the group and the trigger, then the socket. -/
def terminate (c : WSConnection) : WSConnection × List WSAction :=
  ({ c with alive := false, currWs := none }, c.currWs.toList.map .terminate)

def asyncCb (c : WSConnection) : WSConnection × List WSAction :=
  if c.shutdown then c.terminate else (c, [.onTrigger])

def callback (c : WSConnection) : WSEvent → WSConnection × List WSAction
  | .onConnection ws => c.onConnection ws
  | .onDisconnection ws => c.onDisconnection ws
  | .onError => c.onErrorCb
  | .onMessage2 _ msg => (c, [.onMessage msg])
  | .asyncCb => c.asyncCb
  | .wake => ({ c with sleeping := false }, c.doConnect)
  | .close => ({ c with shutdown := true }, [])

end WSConnection

/-- A connection with its hub: the open sockets, and the attempts that have not ended. -/
structure WSHub where
  conn : WSConnection := {}
  sockets : List Nat := []
  connecting : Nat := 1

namespace WSHub

/-- Only an open socket can be ended. -/
def perform (s : WSHub) : WSAction → Except Err WSHub
  | .connect => .ok { s with connecting := s.connecting + 1 }
  | .terminate ws => if ws ∈ s.sockets then .ok { s with sockets := s.sockets.erase ws } else .error .undefined
  | _ => .ok s

/-- What the hub knows when it calls. -/
def arrive (s : WSHub) : WSEvent → WSHub
  | .onConnection ws => { s with sockets := ws :: s.sockets, connecting := s.connecting - 1 }
  | .onDisconnection ws => { s with sockets := s.sockets.erase ws }
  | .onError => { s with connecting := s.connecting - 1 }
  | _ => s

def step (s : WSHub) (e : WSEvent) : Except Err (WSHub × List WSAction) := do
  let (conn, actions) := s.conn.callback e
  let s ← actions.foldlM perform { s.arrive e with conn := conn }
  return (s, actions)

/-- What the hub promises. -/
def Allowed (s : WSHub) : WSEvent → Prop
  | .onConnection ws => s.conn.sleeping = false ∧ 0 < s.connecting ∧ ws ∉ s.sockets
  | .onDisconnection ws => s.conn.sleeping = false ∧ ws ∈ s.sockets
  | .onError => s.conn.sleeping = false ∧ 0 < s.connecting
  | .onMessage2 ws _ => s.conn.sleeping = false ∧ ws ∈ s.sockets
  | .asyncCb => s.conn.sleeping = false ∧ s.conn.alive = true
  | .wake => s.conn.sleeping = true
  | .close => True

instance (s : WSHub) : DecidablePred s.Allowed
  | .onConnection _ | .onDisconnection _ | .onError | .onMessage2 _ _ | .asyncCb =>
    inferInstanceAs (Decidable (_ ∧ _))
  | .wake => inferInstanceAs (Decidable (_ = _))
  | .close => instDecidableTrue

/-- The events that came, each with what was done at it. -/
inductive Run : WSHub → List (WSEvent × List WSAction) → WSHub → Prop where
  | nil (s : WSHub) : Run s [] s
  | cons {s s1 s2 : WSHub} {e : WSEvent} {actions : List WSAction} {tr : List (WSEvent × List WSAction)}
      (ha : s.Allowed e) (h : s.step e = .ok (s1, actions)) (hr : Run s1 tr s2) : Run s ((e, actions) :: tr) s2

/-- `run()` after its first `doConnect`. -/
def start (reconnect : Bool) : WSHub := { conn := { reconnect := reconnect } }

/-- What the thread waits for: an attempt, a socket, or the end of a delay. -/
def awaited (s : WSHub) : Nat := s.connecting + s.sockets.length + s.conn.sleeping.toNat

/-- Until `close()` is called. -/
structure Inv (again : Bool) (s : WSHub) : Prop where
  reconnect : s.conn.reconnect = again
  sockets : s.sockets = s.conn.currWs.toList
  awaited_le : s.awaited ≤ 1
  awaited_eq : again = true → s.awaited = 1
  shutdown : s.conn.shutdown = false

/-- After it, `was` being the current socket when it was called: nothing new is awaited while it is current. -/
structure Closing (was : Option Nat) (s : WSHub) : Prop where
  shutdown : s.conn.shutdown = true
  current : s.conn.currWs = was
  alone : ∀ ws, was = some ws → s.connecting = 0 ∧ s.conn.sleeping = false ∧ (s.sockets = [ws] ∨ s.sockets = [])

section
variable {again : Bool} {was : Option Nat} {s s' s2 : WSHub} {e : WSEvent} {actions : List WSAction}
  {tr : List (WSEvent × List WSAction)}

theorem step_eq {conn : WSConnection} (hcb : s.conn.callback e = (conn, actions))
    (hp : actions.foldlM perform { s.arrive e with conn := conn } = .ok s') : s.step e = .ok (s', actions) := by
  unfold step
  rw [hcb]
  exact bind_eq_ok.mpr ⟨s', hp, rfl⟩

theorem step_ok (h : s.step e = .ok (s', actions)) : actions = (s.conn.callback e).2 ∧
    actions.foldlM perform { s.arrive e with conn := (s.conn.callback e).1 } = .ok s' := by
  obtain ⟨s1, h1, h⟩ := bind_eq_ok.mp h
  cases h
  exact ⟨rfl, h1⟩

/-- What one event does before `close()`: no socket is ended, the callbacks tell of the sockets. -/
structure Stepped (again : Bool) (s s' : WSHub) (e : WSEvent) (actions : List WSAction) : Prop where
  ok : s.step e = .ok (s', actions)
  inv : e ≠ .close → Inv again s'
  kept : ∀ ws, .terminate ws ∉ actions
  told : actions.count .onConnect + s.sockets.length = actions.count .onDisconnect + s'.sockets.length

theorem Inv.start (again : Bool) : Inv again (start again) := ⟨rfl, rfl, le_refl 1, fun _ => rfl, rfl⟩

/-- While a socket is awaited nothing else is. -/
theorem Inv.socket (h : Inv again s) {ws : Nat} (hw : ws ∈ s.sockets) :
    s.conn.currWs = some ws ∧ s.sockets = [ws] ∧ s.connecting = 0 ∧ s.conn.sleeping = false := by
  rw [h.sockets, Option.mem_toList] at hw
  have hs : s.sockets = [ws] := by rw [h.sockets, hw]; rfl
  have ha := h.awaited_le
  rw [awaited, hs, List.length_singleton] at ha
  have hb : s.conn.sleeping.toNat = 0 := by omega
  exact ⟨hw, hs, by omega, by simpa using hb⟩

/-- While an attempt is awaited nothing else is. -/
theorem Inv.attempt (h : Inv again s) (hc : 0 < s.connecting) :
    s.conn.currWs = none ∧ s.sockets = [] ∧ s.connecting = 1 ∧ s.conn.sleeping = false := by
  have ha := h.awaited_le
  unfold awaited at ha
  have hs : s.sockets = [] := List.eq_nil_of_length_eq_zero (by omega)
  have hb : s.conn.sleeping.toNat = 0 := by omega
  refine ⟨?_, hs, by omega, by simpa using hb⟩
  have hw := h.sockets.symm
  rw [hs] at hw
  simpa using hw

/-- During the delay nothing else is. -/
theorem Inv.delay (h : Inv again s) (hb : s.conn.sleeping = true) : s.sockets = [] ∧ s.connecting = 0 := by
  have ha := h.awaited_le
  rw [awaited, hb, Bool.toNat_true] at ha
  exact ⟨List.eq_nil_of_length_eq_zero (by omega), by omega⟩

theorem Inv.step (h : Inv again s) (ha : s.Allowed e) : ∃ s' actions, Stepped again s s' e actions := by
  cases e with
  | onConnection ws =>
    obtain ⟨hw, hs, hc, hb⟩ := h.attempt ha.2.1
    have hcb : s.conn.callback (.onConnection ws) = ({ s.conn with currWs := some ws }, [.onConnect]) := by
      simp [WSConnection.callback, WSConnection.onConnection, h.shutdown, hw]
    refine ⟨⟨{ s.conn with currWs := some ws }, [ws], 0⟩, [.onConnect], step_eq hcb ?_,
      fun _ => ⟨h.reconnect, rfl, ?_, fun _ => ?_, h.shutdown⟩, by simp, by simp [hs]⟩
    · simp [arrive, perform, hs, hc]
    · simp [awaited, hb]
    · simp [awaited, hb]
  | onDisconnection ws =>
    obtain ⟨hw, hs, hc, hb⟩ := h.socket ha.2
    have hcb : s.conn.callback (.onDisconnection ws) =
        ({ s.conn with currWs := none, sleeping := again }, [.onDisconnect]) := by
      simp [WSConnection.callback, WSConnection.onDisconnection, h.shutdown, hw, h.reconnect]
    refine ⟨⟨{ s.conn with currWs := none, sleeping := again }, [], 0⟩, [.onDisconnect], step_eq hcb ?_,
      fun _ => ⟨h.reconnect, rfl, ?_, fun hr => ?_, h.shutdown⟩, by simp, by simp [hs]⟩
    · simp [arrive, perform, hs, hc]
    · simp [awaited, Bool.toNat_le]
    · simp [awaited, hr]
  | onError =>
    obtain ⟨hw, hs, hc, hb⟩ := h.attempt ha.2
    refine ⟨⟨{ s.conn with sleeping := again }, [], 0⟩, [.onError], step_eq rfl ?_,
      fun _ => ⟨h.reconnect, ?_, ?_, fun hr => ?_, h.shutdown⟩, by simp, by simp [hs]⟩
    · simp [arrive, perform, hs, hc, h.reconnect]
    · simp [hw]
    · simp [awaited, Bool.toNat_le]
    · simp [awaited, hr]
  | onMessage2 ws msg => exact ⟨s, [.onMessage msg], step_eq rfl rfl, fun _ => h, by simp, by simp⟩
  | asyncCb =>
    have hcb : s.conn.callback .asyncCb = (s.conn, [.onTrigger]) := by
      simp [WSConnection.callback, WSConnection.asyncCb, h.shutdown]
    exact ⟨s, [.onTrigger], step_eq hcb rfl, fun _ => h, by simp, by simp⟩
  | wake =>
    obtain ⟨hs, hc⟩ := h.delay ha
    have hcb : s.conn.callback .wake = ({ s.conn with sleeping := false }, [.connect]) := by
      simp [WSConnection.callback, WSConnection.doConnect, h.shutdown]
    refine ⟨⟨{ s.conn with sleeping := false }, [], 1⟩, [.connect], step_eq hcb ?_,
      fun _ => ⟨h.reconnect, ?_, le_refl 1, fun _ => rfl, h.shutdown⟩, by simp, by simp [hs]⟩
    · simp [arrive, perform, hs, hc]
    · rw [← hs]; exact h.sockets
  | close =>
    exact ⟨⟨{ s.conn with shutdown := true }, s.sockets, s.connecting⟩, [], step_eq rfl rfl, fun hne => absurd rfl hne,
      by simp, by simp⟩

/-- A run without `close()`, as it goes. -/
theorem Run.inv (h : Run s tr s') (hi : Inv again s) (hc : .close ∉ tr.map Prod.fst) :
    Inv again s' ∧ (∀ ws, .terminate ws ∉ tr.flatMap Prod.snd) ∧
    (tr.flatMap Prod.snd).count .onConnect + s.sockets.length =
      (tr.flatMap Prod.snd).count .onDisconnect + s'.sockets.length := by
  induction h with
  | nil s => exact ⟨hi, by simp, by simp⟩
  | cons ha h _ ih =>
    obtain ⟨s1', actions', hs⟩ := hi.step ha
    cases hs.ok.symm.trans h
    rw [List.map_cons, List.mem_cons, not_or] at hc
    obtain ⟨hi', hk, ht⟩ := ih (hs.inv fun he => hc.1 he.symm) hc.2
    refine ⟨hi', fun ws => ?_, ?_⟩
    · rw [List.flatMap_cons, List.mem_append, not_or]
      exact ⟨hs.kept ws, hk ws⟩
    · have := hs.told
      simp only [List.flatMap_cons, List.count_append]
      omega

/-- **Until `close()` is called the connection waits for one thing at a time**, an attempt, the current
socket or the delay before the next attempt, and always for one of them when it is to reconnect.  The
sockets that are open are `currWs`, no socket is ended by the program, no callback goes wrong, and
`onConnect` and `onDisconnect` alternate. -/
theorem single {r : Bool} {tr : List (WSEvent × List WSAction)} {s : WSHub} (h : Run (start r) tr s)
    (hc : .close ∉ tr.map Prod.fst) :
    s.sockets = s.conn.currWs.toList ∧ s.awaited ≤ 1 ∧ (r = true → s.awaited = 1) ∧
    (∀ ws, .terminate ws ∉ tr.flatMap Prod.snd) ∧
    (tr.flatMap Prod.snd).count .onConnect = (tr.flatMap Prod.snd).count .onDisconnect + s.sockets.length ∧
    ∀ e, s.Allowed e → ∃ s' actions, s.step e = .ok (s', actions) := by
  obtain ⟨hi, hk, ht⟩ := h.inv (.start r) hc
  refine ⟨hi.sockets, hi.awaited_le, hi.awaited_eq, hk, by simpa [start] using ht, fun e ha => ?_⟩
  obtain ⟨s', actions, hs⟩ := hi.step ha
  exact ⟨s', actions, hs.ok⟩

/-- A connection is made, lost and asked for again. -/
def lostOnce : List (WSEvent × List WSAction) :=
  [(.onConnection 7, [.onConnect]), (.onMessage2 7 [1], [.onMessage [1]]), (.onDisconnection 7, [.onDisconnect]),
   (.wake, [.connect])]

theorem lostOnce_run : Run (start true) lostOnce (start true) :=
  .cons (by decide) rfl (.cons (by decide) rfl (.cons (by decide) rfl (.cons (by decide) rfl (.nil _))))

theorem single_one : (start true).awaited = 1 ∧ ∀ ws, .terminate ws ∉ lostOnce.flatMap Prod.snd :=
  have h := single lostOnce_run (by decide)
  ⟨h.2.2.1 rfl, h.2.2.2.1⟩

/-- What can still be called back. -/
def Told (a : WSAction) : Prop := a = .onError ∨ ∃ msg, a = .onMessage msg

/-- What one event does after `close()`. -/
structure Unheeded (was : Option Nat) (s s' : WSHub) (e : WSEvent) (actions : List WSAction) : Prop where
  inv : Closing was s'
  told : ∀ a ∈ actions, Told a
  still : ∀ ws, was = some ws → (ws ∈ s'.sockets ↔ ws ∈ s.sockets ∧ e ≠ .onDisconnection ws)

theorem Inv.close (h : Inv again s) : Closing s.conn.currWs { s with conn := { s.conn with shutdown := true } } := by
  refine ⟨rfl, rfl, fun ws hw => ?_⟩
  obtain ⟨-, hs, hc, hb⟩ := h.socket (by rw [h.sockets, hw]; exact List.mem_singleton_self ws)
  exact ⟨hc, hb, .inl hs⟩

/-- An attempt or a delay means that no socket was current. -/
theorem Closing.none_of (h : Closing was s) (hb : 0 < s.connecting ∨ s.conn.sleeping = true) : was = none := by
  cases was with
  | none => rfl
  | some ws =>
    obtain ⟨hc, hs, -⟩ := h.alone ws rfl
    obtain hb | hb := hb
    · omega
    · rw [hs] at hb; contradiction

/-- A socket can only be lost where it is the current one. -/
theorem Closing.disconnects (h : Closing was s) {ws x : Nat} (hm : ws ∈ s.sockets) (hx : was = some x) :
    x = ws ∧ s.sockets = [x] := by
  obtain ⟨-, -, hs | hs⟩ := h.alone x hx
  · rw [hs, List.mem_singleton] at hm
    exact ⟨hm.symm, hs⟩
  · rw [hs] at hm; cases hm

theorem Closing.step (h : Closing was s) (ha : s.Allowed e) (hne : e ≠ .asyncCb) :
    ∃ s' actions, s.step e = .ok (s', actions) ∧ Unheeded was s s' e actions := by
  cases e with
  | onConnection ws =>
    have hw := h.none_of (.inl ha.2.1)
    subst hw
    have hcb : s.conn.callback (.onConnection ws) = (s.conn, []) := by
      simp [WSConnection.callback, WSConnection.onConnection, h.shutdown]
    exact ⟨_, _, step_eq hcb rfl, ⟨h.shutdown, h.current, by simp⟩, by simp, by simp⟩
  | onDisconnection ws =>
    have hcb : s.conn.callback (.onDisconnection ws) = (s.conn, []) := by
      simp [WSConnection.callback, WSConnection.onDisconnection, h.shutdown]
    refine ⟨⟨s.conn, s.sockets.erase ws, s.connecting⟩, _, step_eq hcb rfl, ⟨h.shutdown, h.current, fun x hx => ?_⟩,
      by simp, fun x hx => ?_⟩
    · obtain ⟨hc, hb, -⟩ := h.alone x hx
      exact ⟨hc, hb, .inr (by rw [(h.disconnects ha.2 hx).2, (h.disconnects ha.2 hx).1]; simp)⟩
    · obtain ⟨rfl, hs⟩ := h.disconnects ha.2 hx
      simp [hs]
  | onError =>
    have hw := h.none_of (.inl ha.2)
    subst hw
    exact ⟨_, _, step_eq rfl rfl, ⟨h.shutdown, h.current, by simp⟩, by simp [Told], by simp⟩
  | onMessage2 ws msg => exact ⟨s, [.onMessage msg], step_eq rfl rfl, h, by simp [Told], by simp⟩
  | asyncCb => contradiction
  | wake =>
    have hw := h.none_of (.inr ha)
    subst hw
    have hcb : s.conn.callback .wake = ({ s.conn with sleeping := false }, []) := by
      simp [WSConnection.callback, WSConnection.doConnect, h.shutdown]
    exact ⟨_, _, step_eq hcb rfl, ⟨h.shutdown, h.current, by simp⟩, by simp, by simp⟩
  | close => exact ⟨_, _, step_eq rfl rfl, ⟨rfl, h.current, h.alone⟩, by simp, by simp [arrive]⟩

/-- A run after `close()`, until the trigger comes. -/
theorem Run.closing (h : Run s tr s') (hi : Closing was s) (ht : .asyncCb ∉ tr.map Prod.fst) :
    Closing was s' ∧ (∀ a ∈ tr.flatMap Prod.snd, Told a) ∧
    ∀ ws, was = some ws → (ws ∈ s'.sockets ↔ ws ∈ s.sockets ∧ .onDisconnection ws ∉ tr.map Prod.fst) := by
  induction h with
  | nil s => exact ⟨hi, by simp, by simp⟩
  | cons ha h _ ih =>
    rw [List.map_cons, List.mem_cons, not_or] at ht
    obtain ⟨s1', actions', hok, hu⟩ := hi.step ha fun he => ht.1 he.symm
    cases hok.symm.trans h
    obtain ⟨hi', ht', hs'⟩ := ih hu.inv ht.2
    refine ⟨hi', fun a ha => ?_, fun ws hw => ?_⟩
    · rw [List.flatMap_cons, List.mem_append] at ha
      exact ha.elim (hu.told a) (ht' a)
    · rw [hs' ws hw, hu.still ws hw, List.map_cons, List.mem_cons, not_or, and_assoc]
      exact and_congr_right fun _ => and_congr_left fun _ => ne_comm

/-- The trigger: the group and the trigger are closed, and `currWs` is ended. -/
theorem Closing.asyncCb_iff (h : Closing was s) :
    (∃ s' actions, s.step .asyncCb = .ok (s', actions)) ↔ ∀ ws, was = some ws → ws ∈ s.sockets := by
  have hcb : s.conn.callback .asyncCb =
      ({ s.conn with alive := false, currWs := none }, was.toList.map .terminate) := by
    simp [WSConnection.callback, WSConnection.asyncCb, WSConnection.terminate, h.shutdown, h.current]
  cases was with
  | none => exact iff_of_true ⟨_, _, step_eq hcb rfl⟩ (by simp)
  | some ws =>
    by_cases hw : ws ∈ s.sockets
    · refine iff_of_true ⟨_, _, step_eq hcb (bind_eq_ok.mpr ⟨_, if_pos hw, rfl⟩)⟩ fun x hx => ?_
      cases hx
      exact hw
    · refine iff_of_false (fun ⟨s', actions, hs⟩ => ?_) fun hx => hw (hx ws rfl)
      obtain ⟨rfl, hp⟩ := step_ok hs
      rw [hcb] at hp
      obtain ⟨s1, hp, -⟩ := bind_eq_ok.mp hp
      cases (if_neg hw).symm.trans hp

/-- **After `close()` nothing is begun any more**: no attempt, no `onConnect`, no `onTrigger`.  **The trigger that
follows ends the socket that was current at `close()`, and that socket is still open if and only if its
disconnection did not come first**: `onDisconnection` returns at once then, and `currWs` stays. -/
theorem terminate_iff {r : Bool} {tr tr' : List (WSEvent × List WSAction)} {s s1 s2 : WSHub} {was : List WSAction}
    (h : Run (start r) tr s) (hc : .close ∉ tr.map Prod.fst) (h1 : s.step .close = .ok (s1, was))
    (h2 : Run s1 tr' s2) (ht : .asyncCb ∉ tr'.map Prod.fst) :
    (∀ a ∈ tr'.flatMap Prod.snd, Told a) ∧
    ((∃ s3 actions, s2.step .asyncCb = .ok (s3, actions)) ↔
      ∀ ws, s.conn.currWs = some ws → .onDisconnection ws ∉ tr'.map Prod.fst) := by
  obtain ⟨hi, -, -⟩ := h.inv (.start r) hc
  cases (step_eq rfl rfl).symm.trans h1
  obtain ⟨hcl, htold, hs⟩ := h2.closing hi.close ht
  refine ⟨htold, hcl.asyncCb_iff.trans (forall₂_congr fun ws hw => (hs ws hw).trans (and_iff_right ?_))⟩
  show ws ∈ s.sockets
  rw [hi.sockets, hw]
  exact List.mem_singleton_self ws

/-- Connected to the socket 7, with `close()` called and the socket lost before the trigger comes. -/
def lostLate : WSHub := { conn := { currWs := some 7, shutdown := true }, sockets := [], connecting := 0 }

theorem terminate_iff_one : ¬∃ s3 actions, lostLate.step .asyncCb = .ok (s3, actions) := by
  have hr : Run (start true) [(.onConnection 7, [.onConnect])]
      { conn := { currWs := some 7 }, sockets := [7], connecting := 0 } := .cons (by decide) rfl (.nil _)
  have hl : Run { conn := { currWs := some 7, shutdown := true }, sockets := [7], connecting := 0 }
      [(.onDisconnection 7, [])] lostLate := .cons (by decide) rfl (.nil _)
  exact fun h => (terminate_iff hr (by decide) rfl hl (by decide)).2.mp h 7 rfl (by decide)

end

end WSHub

end Strfry
