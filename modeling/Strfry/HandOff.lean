import Strfry.RelayReq

/-!
# The hand-off

What becomes of a subscription, apart from how the two threads keep it: first it is queried for,
then it is in the mail of the monitor, then it is watched for.  `HandOff` is that view of the
system and `HandOff.Act` what may happen to it.

A REQ is held in one place at a time, and the REQs with one id are held in the order they came in
(`Held`): the one watched for is older than those in the mail, and these are older than the one
queried for.
-/

namespace Strfry

/-- A REQ that is queried for, with the events its query has seen. -/
structure Querying where
  reqNo : Nat
  sub : Subscription
  full : Finset Nat

/-- A REQ that is watched for. -/
structure Watching where
  reqNo : Nat
  sub : Subscription

structure HandOff where
  arrived : List MsgReqWorker
  handled : Nat
  querying : Nat × SubId → Option Querying
  batch : List MsgReqMonitor
  inbox : List MsgReqMonitor
  watching : Nat × SubId → Option Watching
  out : List ReqOut
  began : Nat → Nat
  cancelled : Set Nat
  /-- the database, and the last snapshot of the monitor -/
  now : Db
  seen : Db
  cursor : Nat
  turn : List MsgReqMonitor

/-- The ids a message is the end of. -/
def MsgReqMonitor.Ends : MsgReqMonitor → Nat × SubId → Prop
  | .newSub _ _, _ => False
  | .removeSub connId subId, k => k = (connId, subId)
  | .closeConn connId, k => k.1 = connId
  | .dbChange, _ => False

instance (msg : MsgReqMonitor) (k : Nat × SubId) : Decidable (msg.Ends k) := by
  cases msg <;> unfold MsgReqMonitor.Ends <;> infer_instance

/-- What the worker passes on at once. -/
def MsgReqWorker.forward : MsgReqWorker → Option MsgReqMonitor
  | .newSub _ => none
  | .removeSub connId subId => some (.removeSub connId subId)
  | .closeConn connId => some (.closeConn connId)

/-- The REQ something is sent for, with the id it is sent to. -/
def ReqOut.reqOf : ReqOut → Option (Nat × (Nat × SubId))
  | .event reqNo _ connId subId _ => some (reqNo, (connId, subId))
  | .eose reqNo connId subId => some (reqNo, (connId, subId))
  | .count reqNo connId subId _ _ => some (reqNo, (connId, subId))
  | .notice _ _ => none

/-- The number of the REQ a message hands over, when it has the id. -/
def MsgReqMonitor.reqNoOf (k : Nat × SubId) : MsgReqMonitor → Option Nat
  | .newSub reqNo sub => if sub.key = k then some reqNo else none
  | _ => none

/-- A message that ends ids hands nothing over. -/
theorem MsgReqWorker.reqNoOf_forward {msg : MsgReqWorker} {fwd : MsgReqMonitor} (h : msg.forward = some fwd)
    (k : Nat × SubId) : fwd.reqNoOf k = none := by
  cases msg with
  | newSub sub => cases h
  | removeSub connId subId =>
    cases h
    rfl
  | closeConn connId =>
    cases h
    rfl

namespace HandOff

/-- A connection has that many other ids in use. -/
def Crowded (used : Nat × SubId → Prop) (k : Nat × SubId) (n : Nat) : Prop :=
  ∃ ids : Finset SubId, n ≤ ids.card ∧ ∀ i ∈ ids, i ≠ k.2 ∧ used (k.1, i)

/-- The REQs cancelled when the queries of the ids `D` end. -/
def Cancels (v : HandOff) (D : Nat × SubId → Prop) (cancelled : Set Nat) : Prop :=
  ∀ n, n ∈ cancelled ↔ n ∈ v.cancelled ∨ ∃ k q, D k ∧ v.querying k = some q ∧ q.reqNo = n

/-- One thing that happens. -/
inductive Act (cfg : Cfg) (v : HandOff) : HandOff → Prop where
  | commit (db : Db) (h : Evolves v.now db) : Act cfg v { v with now := db }
  | arrive (msg : MsgReqWorker) : Act cfg v { v with arrived := v.arrived ++ [msg] }
  | post : Act cfg v { v with inbox := v.inbox ++ [.dbChange] }
  /-- the query of a REQ begins, or is turned down -/
  | begin (sub : Subscription) (added : Bool) (b : Nat) (querying : Nat × SubId → Option Querying)
      (cancelled : Set Nat) (hmsg : v.arrived[v.handled]? = some (.newSub sub)) (hb : b ≤ v.now.event.lastId)
      (hfull : added = false →
        Crowded (fun k => (v.querying k).isSome) sub.key cfg.relayMaxSubsPerConnection)
      (hq : ∀ k, querying k = if k = sub.key then
        (if added then some ⟨v.handled, { sub with latestEventId := b }, ∅⟩ else none) else v.querying k)
      (hc : v.Cancels (· = sub.key) cancelled) : Act cfg v { v with
        handled := v.handled + 1
        querying := querying
        began := Function.update v.began v.handled b
        cancelled := cancelled
        out := v.out ++ ReqSystem.refusal sub.connId added }
  /-- a CLOSE or a disconnect ends queries, and is passed on -/
  | close (msg : MsgReqWorker) (fwd : MsgReqMonitor) (querying : Nat × SubId → Option Querying)
      (cancelled : Set Nat) (hmsg : v.arrived[v.handled]? = some msg) (hfwd : msg.forward = some fwd)
      (hq : ∀ k, querying k = if fwd.Ends k then none else v.querying k)
      (hc : v.Cancels fwd.Ends cancelled) : Act cfg v { v with
        handled := v.handled + 1
        querying := querying
        inbox := v.inbox ++ [fwd]
        cancelled := cancelled }
  /-- a query sends events it had not seen -/
  | found (k : Nat × SubId) (q : Querying) (l sent : List Nat) (full : Finset Nat)
      (querying : Nat × SubId → Option Querying) (hk : v.querying k = some q) (hnd : l.Nodup)
      (hfresh : ∀ x ∈ l, x ∉ q.full) (hle : ∀ x ∈ l, x ≤ q.sub.latestEventId)
      (hfull : ∀ x, x ∈ full ↔ x ∈ q.full ∨ x ∈ l) (hsent : sent.Sublist l)
      (hq : ∀ k', querying k' = if k' = k then some { q with full := full } else v.querying k') :
      Act cfg v { v with
        querying := querying
        out := v.out ++ sent.map fun x => .event q.reqNo .query k.1 k.2 x }
  | complete (k : Nat × SubId) (q : Querying) (querying : Nat × SubId → Option Querying)
      (hk : v.querying k = some q) (hcount : q.sub.countOnly = false)
      (hq : ∀ k', querying k' = if k' = k then none else v.querying k') : Act cfg v { v with
        querying := querying
        inbox := v.inbox ++ [.newSub q.reqNo q.sub]
        out := v.out ++ [.eose q.reqNo k.1 k.2] }
  | counted (k : Nat × SubId) (q : Querying) (total : Nat) (limited : Bool)
      (querying : Nat × SubId → Option Querying) (hk : v.querying k = some q) (hcount : q.sub.countOnly = true)
      (hq : ∀ k', querying k' = if k' = k then none else v.querying k') : Act cfg v { v with
        querying := querying
        out := v.out ++ [.count q.reqNo k.1 k.2 total limited] }
  /-- the monitor takes a batch off its inbox and a snapshot -/
  | wake (batch rest : List MsgReqMonitor) (hidle : v.batch = []) (hin : v.inbox = batch ++ rest) :
      Act cfg v { v with
        batch := batch
        inbox := rest
        seen := v.now
        cursor := min v.cursor v.now.event.lastId
        turn := [] }
  /-- the REQ handed over is watched for, or is turned down -/
  | install (reqNo : Nat) (sub : Subscription) (rest : List MsgReqMonitor) (added : Bool)
      (watching : Nat × SubId → Option Watching) (hbatch : v.batch = .newSub reqNo sub :: rest)
      (hfull : added = false →
        Crowded (fun k => (v.watching k).isSome) sub.key cfg.relayMaxSubsPerConnection)
      (hw : ∀ k, watching k = if k = sub.key then
        (if added then some ⟨reqNo, { sub with latestEventId := v.seen.event.lastId }⟩ else none)
        else v.watching k) : Act cfg v { v with
        batch := rest
        turn := v.turn ++ [.newSub reqNo sub]
        watching := watching
        out := v.out ++ ReqSystem.catchUp v.seen reqNo sub ++ ReqSystem.refusal sub.connId added }
  | uninstall (msg : MsgReqMonitor) (rest : List MsgReqMonitor) (watching : Nat × SubId → Option Watching)
      (hbatch : v.batch = msg :: rest) (hmsg : ∀ k, msg.reqNoOf k = none) (hne : msg ≠ .dbChange)
      (hw : ∀ k, watching k = if msg.Ends k then none else v.watching k) : Act cfg v { v with
        batch := rest
        turn := v.turn ++ [msg]
        watching := watching }
  /-- a DBChange comes to the next event -/
  | row (r : Nat × PackedEventView) (rest : List MsgReqMonitor) (rs : List (Nat × SubId))
      (reqNoOf : Nat × SubId → Nat) (watching : Nat × SubId → Option Watching)
      (hbatch : v.batch = .dbChange :: rest) (hr : r ∈ v.seen.event.rows) (hlt : v.cursor < r.1)
      (hnext : ∀ r' ∈ v.seen.event.rows, v.cursor < r'.1 → r.1 ≤ r'.1) (hnd : rs.Nodup)
      (hmem : ∀ k, k ∈ rs ↔ ∃ w, v.watching k = some w ∧ w.sub.latestEventId < r.1 ∧
        w.sub.filterGroup.doesMatch r.2 = true)
      (hno : ∀ k w, v.watching k = some w → reqNoOf k = w.reqNo)
      (hw : ∀ k, watching k = (v.watching k).map fun w =>
        if k ∈ rs then { w with sub.latestEventId := r.1 } else w) : Act cfg v { v with
        cursor := r.1
        watching := watching
        out := v.out ++ rs.map fun k => .event (reqNoOf k) .monitor k.1 k.2 r.1 }
  /-- a DBChange has come to the end -/
  | caughtUp (rest : List MsgReqMonitor) (hbatch : v.batch = .dbChange :: rest)
      (hend : ∀ r ∈ v.seen.event.rows, r.1 ≤ v.cursor) : Act cfg v { v with
        batch := rest
        turn := v.turn ++ [.dbChange]
        cursor := v.seen.event.lastId }

/-- The view of an idle system. -/
def init (db : Db) (cursor : Nat) : HandOff where
  arrived := []
  handled := 0
  querying _ := none
  batch := []
  inbox := []
  watching _ := none
  out := []
  began _ := 0
  cancelled := ∅
  now := db
  seen := db
  cursor := cursor
  turn := []

inductive Reached (cfg : Cfg) : HandOff → Prop where
  | init (db : Db) (cursor : Nat) : Reached cfg (init db cursor)
  | act {v v' : HandOff} (h : Reached cfg v) (ha : Act cfg v v') : Reached cfg v'

/-- Some acts in a row. -/
abbrev Acts (cfg : Cfg) : HandOff → HandOff → Prop := Relation.ReflTransGen (Act cfg)

theorem Reached.acts {cfg : Cfg} {v v' : HandOff} (h : Reached cfg v) (ha : Acts cfg v v') : Reached cfg v' := by
  induction ha with
  | refl => exact h
  | tail _ ha ih => exact ih.act ha

/-- The mail of the monitor. -/
def mail (v : HandOff) : List MsgReqMonitor := v.batch ++ v.inbox

/-! ## Where a REQ is held -/

/-- The REQs held with an id, along their way back. -/
def line (v : HandOff) (k : Nat × SubId) : List Nat :=
  ((v.watching k).map Watching.reqNo).toList ++ v.mail.filterMap (MsgReqMonitor.reqNoOf k) ++
    ((v.querying k).map Querying.reqNo).toList

/-- The subscription of this number has this id and came in with this REQ. -/
def Came (v : HandOff) (k : Nat × SubId) (n : Nat) (sub : Subscription) : Prop :=
  sub.key = k ∧ ∃ sub0, v.arrived[n]? = some (.newSub sub0) ∧
    sub = { sub0 with latestEventId := sub.latestEventId }

structure Held (v : HandOff) : Prop where
  ordered : ∀ k, (v.line k).Pairwise (· < ·)
  handled : ∀ k, ∀ n ∈ v.line k, n < v.handled
  querying : ∀ k q, v.querying k = some q → v.Came k q.reqNo q.sub
  mailed : ∀ n sub, .newSub n sub ∈ v.mail → v.Came sub.key n sub
  watching : ∀ k w, v.watching k = some w → v.Came k w.reqNo w.sub

section
variable {v v' : HandOff} {k k' : Nat × SubId} {n : Nat} {sub : Subscription}

theorem mem_reqNoOf {msg : MsgReqMonitor} : msg.reqNoOf k = some n ↔ ∃ sub, msg = .newSub n sub ∧ sub.key = k := by
  cases msg with
  | newSub reqNo sub =>
    by_cases hk : sub.key = k
    · simp [MsgReqMonitor.reqNoOf, hk]
    · simp only [MsgReqMonitor.reqNoOf, if_neg hk, reduceCtorEq, MsgReqMonitor.newSub.injEq, false_iff]
      rintro ⟨sub', ⟨-, rfl⟩, h⟩
      exact hk h
  | removeSub => simp [MsgReqMonitor.reqNoOf]
  | closeConn => simp [MsgReqMonitor.reqNoOf]
  | dbChange => simp [MsgReqMonitor.reqNoOf]

theorem mem_line : n ∈ v.line k ↔ (∃ w, v.watching k = some w ∧ w.reqNo = n) ∨
    (∃ sub, .newSub n sub ∈ v.mail ∧ sub.key = k) ∨ ∃ q, v.querying k = some q ∧ q.reqNo = n := by
  unfold line
  rw [List.mem_append, List.mem_append, or_assoc, Option.mem_toList, Option.mem_toList,
    List.mem_filterMap, Option.map_eq_some_iff, Option.map_eq_some_iff]
  refine or_congr Iff.rfl (or_congr ⟨?_, ?_⟩ Iff.rfl)
  · rintro ⟨msg, hmsg, h⟩
    obtain ⟨sub, rfl, hk⟩ := mem_reqNoOf.mp h
    exact ⟨sub, hmsg, hk⟩
  · rintro ⟨sub, hmsg, hk⟩
    exact ⟨_, hmsg, mem_reqNoOf.mpr ⟨sub, rfl, hk⟩⟩

/-- A number is held for the id of its REQ. -/
theorem Held.came (h : Held v) (hn : n ∈ v.line k) : ∃ sub, v.Came k n sub := by
  rcases mem_line.mp hn with ⟨w, hw, rfl⟩ | ⟨sub, hmsg, rfl⟩ | ⟨q, hq, rfl⟩
  · exact ⟨_, h.watching k w hw⟩
  · exact ⟨sub, h.mailed n sub hmsg⟩
  · exact ⟨_, h.querying k q hq⟩

theorem Came.key_eq {sub' : Subscription} (h : v.Came k n sub) (h' : v.Came k' n sub') : k = k' := by
  obtain ⟨rfl, sub0, h0, hs⟩ := h
  obtain ⟨rfl, sub1, h1, hs'⟩ := h'
  rw [h0] at h1
  cases h1
  rw [hs, hs']
  rfl

theorem Came.request (h : v.Came k n sub) : ∃ sub0, v.arrived[n]? = some (.newSub sub0) ∧ sub0.key = k ∧
    sub0.filterGroup = sub.filterGroup := by
  obtain ⟨rfl, sub0, h0, hs⟩ := h
  refine ⟨sub0, h0, ?_, ?_⟩
  · rw [hs]
    rfl
  · rw [hs]

/-- **A REQ is held for one id.** -/
theorem Held.unique (h : Held v) (hn : n ∈ v.line k) (hn' : n ∈ v.line k') : k = k' := by
  obtain ⟨sub, hs⟩ := h.came hn
  obtain ⟨sub', hs'⟩ := h.came hn'
  exact hs.key_eq hs'

/-- More messages come in. -/
theorem Came.mono (h : v.Came k n sub) (harr : v.arrived <+: v'.arrived) : v'.Came k n sub := by
  obtain ⟨hk, sub0, h0, hs⟩ := h
  obtain ⟨l, hl⟩ := harr
  refine ⟨hk, sub0, ?_, hs⟩
  rw [← hl, List.getElem?_append_left (List.getElem?_eq_some_iff.mp h0).1]
  exact h0

/-- Fewer REQs are held. -/
theorem Held.fewer (h : Held v) (harr : v.arrived <+: v'.arrived) (hhandled : v.handled ≤ v'.handled)
    (hline : ∀ k, (v'.line k).Sublist (v.line k)) (hq : ∀ k q, v'.querying k = some q →
      ∃ q0, v.querying k = some q0 ∧ q0.reqNo = q.reqNo ∧ q0.sub = q.sub)
    (hm : ∀ n sub, .newSub n sub ∈ v'.mail → .newSub n sub ∈ v.mail ∨ v.Came sub.key n sub)
    (hw : ∀ k w, v'.watching k = some w → v.Came k w.reqNo w.sub) : Held v' where
  ordered k := (h.ordered k).sublist (hline k)
  handled k n hn := (h.handled k n ((hline k).subset hn)).trans_le hhandled
  querying k q hk := by
    obtain ⟨q0, h0, hn, hs⟩ := hq k q hk
    rw [← hn, ← hs]
    exact (h.querying k q0 h0).mono harr
  mailed n sub hmsg := by
    rcases hm n sub hmsg with hmsg | hcame
    · exact (h.mailed n sub hmsg).mono harr
    · exact hcame.mono harr
  watching k w hk := (hw k w hk).mono harr

/-! ## One step -/

theorem toList_sublist {α : Type} {o o' : Option α} (h : o' = none ∨ o' = o) : o'.toList.Sublist o.toList := by
  rcases h with rfl | rfl
  · exact List.nil_sublist _
  · exact List.Sublist.refl _

/-- An id that keeps what it has, or nothing. -/
theorem kept_of_ends {α : Type} {o o' : Option α} {D : Prop} [Decidable D] (h : o' = if D then none else o) :
    o' = none ∨ o' = o := by
  by_cases hD : D
  · exact Or.inl (h.trans (if_pos hD))
  · exact Or.inr (h.trans (if_neg hD))

/-- What an id still has it had before. -/
theorem some_of_ends {α : Type} {o o' : Option α} {D : Prop} [Decidable D] {a : α}
    (h : o' = if D then none else o) (ha : o' = some a) : o = some a := by
  rcases kept_of_ends h with hnone | heq
  · rw [hnone] at ha
    cases ha
  · rw [← heq]
    exact ha

theorem mem_mail_front {msg : MsgReqMonitor} {rest : List MsgReqMonitor} (h : v.batch = msg :: rest) :
    msg ∈ v.mail := by
  unfold mail
  rw [h]
  exact List.mem_cons_self

theorem mem_mail_rest {msg m : MsgReqMonitor} {rest : List MsgReqMonitor} (h : v.batch = msg :: rest)
    (hm : m ∈ rest ++ v.inbox) : m ∈ v.mail := by
  unfold mail
  rw [h]
  exact List.mem_cons_of_mem _ hm

/-- A batch is taken off the inbox. -/
theorem mail_wake {batch rest : List MsgReqMonitor} (hidle : v.batch = []) (hin : v.inbox = batch ++ rest) :
    batch ++ rest = v.mail := by
  unfold mail
  rw [hidle, hin]
  rfl

/-- What is left of the line of an id, by its three parts. -/
theorem line_sublist (hw : v'.watching k = none ∨ v'.watching k = v.watching k)
    (hm : (v'.mail.filterMap (MsgReqMonitor.reqNoOf k)).Sublist (v.mail.filterMap (MsgReqMonitor.reqNoOf k)))
    (hq : v'.querying k = none ∨ v'.querying k = v.querying k) : (v'.line k).Sublist (v.line k) := by
  refine ((toList_sublist ?_).append hm).append (toList_sublist ?_)
  · rcases hw with hw | hw <;> simp [hw]
  · rcases hq with hq | hq <;> simp [hq]

/-- A message that hands nothing over. -/
theorem mail_post {msg : MsgReqMonitor} (hmsg : ∀ k, msg.reqNoOf k = none) (hb : v'.batch = v.batch)
    (hi : v'.inbox = v.inbox ++ [msg]) :
    (v'.mail.filterMap (MsgReqMonitor.reqNoOf k)).Sublist (v.mail.filterMap (MsgReqMonitor.reqNoOf k)) := by
  unfold mail
  rw [hb, hi, ← List.append_assoc, List.filterMap_append, List.filterMap_cons, hmsg]
  simp

theorem mail_handled {msg : MsgReqMonitor} {rest : List MsgReqMonitor} (hmsg : ∀ k, msg.reqNoOf k = none)
    (hb : v.batch = msg :: rest) (hb' : v'.batch = rest) (hi : v'.inbox = v.inbox) :
    (v'.mail.filterMap (MsgReqMonitor.reqNoOf k)).Sublist (v.mail.filterMap (MsgReqMonitor.reqNoOf k)) := by
  unfold mail
  rw [hb, hb', hi, List.cons_append, List.filterMap_cons, hmsg]

theorem mem_mail_post {msg : MsgReqMonitor} (h : .newSub n sub ∈ v'.mail) (hmsg : ∀ k, msg.reqNoOf k = none)
    (hb : v'.batch = v.batch) (hi : v'.inbox = v.inbox ++ [msg]) : .newSub n sub ∈ v.mail := by
  unfold mail at h ⊢
  rw [hb, hi, ← List.append_assoc] at h
  rcases List.mem_append.mp h with h | h
  · exact h
  · have hnone := hmsg sub.key
    rw [← List.mem_singleton.mp h] at hnone
    simp [MsgReqMonitor.reqNoOf] at hnone

/-- The query of a REQ begins. -/
theorem Held.begin (h : Held v) {sub : Subscription} {added : Bool} {b : Nat} (harr : v'.arrived = v.arrived)
    (hmsg : v.arrived[v.handled]? = some (.newSub sub)) (hhandled : v'.handled = v.handled + 1)
    (hmail : v'.mail = v.mail) (hwatch : v'.watching = v.watching)
    (hq : ∀ k, v'.querying k = if k = sub.key then
      (if added then some ⟨v.handled, { sub with latestEventId := b }, ∅⟩ else none) else v.querying k) :
    Held v' := by
  have hcame : ∀ {k n sub}, v.Came k n sub → v'.Came k n sub := fun hc => hc.mono (by rw [harr])
  have hline : ∀ k, (v'.line k).Sublist (v.line k ++ [v.handled]) := by
    intro k
    have hrest : (((v'.watching k).map Watching.reqNo).toList ++
        v'.mail.filterMap (MsgReqMonitor.reqNoOf k)).Sublist (v.line k) := by
      unfold line
      rw [hmail, hwatch]
      exact List.sublist_append_left _ _
    by_cases hk : k = sub.key
    · refine hrest.append ?_
      rw [hq, if_pos hk]
      cases added with
      | true => exact List.Sublist.refl _
      | false => exact List.nil_sublist _
    · refine (line_sublist (Or.inr (by rw [hwatch])) (by rw [hmail]) ?_).trans (List.sublist_append_left _ _)
      right
      rw [hq, if_neg hk]
  refine ⟨fun k => ?_, fun k n hn => ?_, fun k q hk => ?_, fun n sub hm => ?_, fun k w hk => ?_⟩
  · refine List.Pairwise.sublist (hline k) (List.pairwise_append.mpr ⟨h.ordered k, by simp, ?_⟩)
    intro a ha b hb
    rw [List.mem_singleton.mp hb]
    exact h.handled k a ha
  · rw [hhandled]
    rcases List.mem_append.mp ((hline k).subset hn) with hn | hn
    · exact (h.handled k n hn).trans (Nat.lt_succ_self _)
    · rw [List.mem_singleton.mp hn]
      exact Nat.lt_succ_self _
  · rw [hq] at hk
    split at hk
    · rename_i hkey
      split at hk
      · cases hk
        exact hcame ⟨hkey.symm, sub, hmsg, rfl⟩
      · cases hk
    · exact hcame (h.querying k q hk)
  · rw [hmail] at hm
    exact hcame (h.mailed n sub hm)
  · rw [hwatch] at hk
    exact hcame (h.watching k w hk)

/-- The line moves on when a query is complete. -/
theorem line_complete {k0 : Nat × SubId} {q : Querying} (hk0 : v.querying k0 = some q) (hsub : q.sub.key = k0)
    (hb : v'.batch = v.batch) (hi : v'.inbox = v.inbox ++ [.newSub q.reqNo q.sub]) (hw : v'.watching = v.watching)
    (hq : ∀ k, v'.querying k = if k = k0 then none else v.querying k) : (v'.line k).Sublist (v.line k) := by
  have hmail : v'.mail = v.mail ++ [.newSub q.reqNo q.sub] := by
    unfold mail
    rw [hb, hi, List.append_assoc]
  unfold line
  rw [hmail, hw, hq, List.filterMap_append, List.filterMap_cons, MsgReqMonitor.reqNoOf, hsub]
  by_cases hk : k0 = k
  · subst hk
    rw [if_pos rfl, if_pos rfl, hk0]
    simp
  · rw [if_neg hk, if_neg (Ne.symm hk)]
    simp

/-- The line moves on when a REQ is installed, which takes the place of the one watched for. -/
theorem line_install {rest : List MsgReqMonitor} {w : Option Watching} (hbatch : v.batch = .newSub n sub :: rest)
    (hb : v'.batch = rest) (hi : v'.inbox = v.inbox) (hq : v'.querying = v.querying)
    (hw : ∀ k, v'.watching k = if k = sub.key then w else v.watching k)
    (hn : ∀ w', w = some w' → w'.reqNo = n) : (v'.line k).Sublist (v.line k) := by
  unfold line mail
  rw [hb, hi, hq, hbatch, hw, List.cons_append, List.filterMap_cons, MsgReqMonitor.reqNoOf]
  refine List.Sublist.append ?_ (List.Sublist.refl _)
  by_cases hk : k = sub.key
  · rw [if_pos hk, if_pos hk.symm]
    refine List.Sublist.trans ?_ (List.sublist_append_right _ _)
    cases w with
    | none => exact (List.Sublist.refl _).cons _
    | some w' =>
      rw [← hn w' rfl]
      exact List.Sublist.refl _
  · rw [if_neg hk, if_neg (Ne.symm hk)]

/-- **One step** keeps the order of the REQs. -/
theorem Held.act {cfg : Cfg} (h : Held v) (ha : Act cfg v v') : Held v' := by
  have hrefl : v.arrived <+: v.arrived := List.prefix_refl _
  cases ha with
  | commit db _ =>
    exact h.fewer hrefl le_rfl (fun _ => List.Sublist.refl _) (fun k q hk => ⟨q, hk, rfl, rfl⟩)
      (fun n sub hm => Or.inl hm) h.watching
  | arrive msg =>
    exact h.fewer (List.prefix_append _ _) le_rfl (fun _ => List.Sublist.refl _)
      (fun k q hk => ⟨q, hk, rfl, rfl⟩) (fun n sub hm => Or.inl hm) h.watching
  | post =>
    exact h.fewer hrefl le_rfl
      (fun k => line_sublist (Or.inr rfl) (mail_post (fun _ => rfl) rfl rfl) (Or.inr rfl))
      (fun k q hk => ⟨q, hk, rfl, rfl⟩) (fun n sub hm => Or.inl (mem_mail_post hm (fun _ => rfl) rfl rfl)) h.watching
  | begin sub added b querying cancelled hmsg hb hfull hq hc =>
    exact h.begin rfl hmsg rfl rfl rfl hq
  | close msg fwd querying cancelled hmsg hfwd hq hc =>
    have hnot := MsgReqWorker.reqNoOf_forward hfwd
    refine h.fewer hrefl (Nat.le_succ _) (fun k => line_sublist (Or.inr rfl) ?_ (kept_of_ends (hq k)))
      (fun k q hk => ⟨q, some_of_ends (hq k) hk, rfl, rfl⟩)
      (fun n sub hm => Or.inl (mem_mail_post hm hnot rfl rfl)) h.watching
    exact mail_post hnot rfl rfl
  | found k0 q l sent full querying hk0 _ _ _ _ _ hq =>
    have hkept : ∀ k q', querying k = some q' → ∃ q0, v.querying k = some q0 ∧ q0.reqNo = q'.reqNo ∧
        q0.sub = q'.sub := by
      intro k q' hk
      rw [hq] at hk
      split at hk
      · rename_i he
        cases hk
        exact ⟨q, he ▸ hk0, rfl, rfl⟩
      · exact ⟨q', hk, rfl, rfl⟩
    refine h.fewer hrefl le_rfl (fun k => ?_) hkept (fun n sub hm => Or.inl hm) h.watching
    refine ((List.Sublist.refl _).append (List.Sublist.refl _)).append (toList_sublist (Or.inr ?_))
    show (querying k).map Querying.reqNo = _
    rw [hq]
    by_cases he : k = k0
    · rw [if_pos he, he, hk0]
      rfl
    · rw [if_neg he]
  | complete k0 q querying hk0 _ hq =>
    have hcame := h.querying k0 q hk0
    refine h.fewer hrefl le_rfl (fun k => line_complete hk0 hcame.1 rfl rfl rfl hq)
      (fun k q' hk => ⟨q', some_of_ends (hq k) hk, rfl, rfl⟩) (fun n sub hm => ?_) h.watching
    unfold mail at hm
    rw [← List.append_assoc] at hm
    rcases List.mem_append.mp hm with hm | hm
    · exact Or.inl hm
    · cases List.mem_singleton.mp hm
      rw [hcame.1]
      exact Or.inr hcame
  | counted k0 q total limited querying hk0 _ hq =>
    exact h.fewer hrefl le_rfl (fun k => line_sublist (Or.inr rfl) (List.Sublist.refl _) (kept_of_ends (hq k)))
      (fun k q' hk => ⟨q', some_of_ends (hq k) hk, rfl, rfl⟩) (fun n sub hm => Or.inl hm) h.watching
  | wake batch rest hidle hin =>
    have hmail := mail_wake hidle hin
    refine h.fewer hrefl le_rfl (fun k => line_sublist (Or.inr rfl) ?_ (Or.inr rfl))
      (fun k q hk => ⟨q, hk, rfl, rfl⟩) (fun n sub hm => Or.inl (hmail ▸ hm)) h.watching
    show List.Sublist ((batch ++ rest).filterMap _) _
    rw [hmail]
  | install reqNo sub rest added watching hbatch hfull hw =>
    refine h.fewer hrefl le_rfl (fun k => line_install hbatch rfl rfl rfl hw ?_)
      (fun k q hk => ⟨q, hk, rfl, rfl⟩) (fun n sub hm => Or.inl (mem_mail_rest hbatch hm)) (fun k w hk => ?_)
    · intro w hw
      split at hw
      · cases hw
        rfl
      · cases hw
    · replace hk : watching k = some w := hk
      rw [hw] at hk
      split at hk
      · rename_i he
        split at hk
        · cases hk
          obtain ⟨-, sub0, h0, hs⟩ := h.mailed reqNo sub (mem_mail_front hbatch)
          refine ⟨he.symm, sub0, h0, ?_⟩
          rw [hs]
        · cases hk
      · exact h.watching k w hk
  | uninstall msg rest watching hbatch hmsg _ hw =>
    refine h.fewer hrefl le_rfl (fun k => line_sublist (kept_of_ends (hw k)) ?_ (Or.inr rfl))
      (fun k q hk => ⟨q, hk, rfl, rfl⟩) (fun n sub hm => Or.inl (mem_mail_rest hbatch hm))
      (fun k w hk => h.watching k w (some_of_ends (hw k) hk))
    exact mail_handled hmsg hbatch rfl rfl
  | row r rest rs reqNoOf watching _ _ _ _ _ _ _ hw =>
    have hline : ∀ k, (watching k).map Watching.reqNo = (v.watching k).map Watching.reqNo := by
      intro k
      rw [hw, Option.map_map]
      congr 1
      funext w
      by_cases hk : k ∈ rs
      · simp [hk]
      · simp [hk]
    refine h.fewer hrefl le_rfl (fun k => ?_) (fun k q hk => ⟨q, hk, rfl, rfl⟩) (fun n sub hm => Or.inl hm)
      (fun k w hk => ?_)
    · exact ((toList_sublist (Or.inr (hline k))).append (List.Sublist.refl _)).append (List.Sublist.refl _)
    · replace hk : watching k = some w := hk
      rw [hw] at hk
      obtain ⟨w0, h0, rfl⟩ := Option.map_eq_some_iff.mp hk
      obtain ⟨hkey, sub0, hsub0, hs⟩ := h.watching k w0 h0
      by_cases hin : k ∈ rs
      · rw [if_pos hin]
        refine ⟨hkey, sub0, hsub0, ?_⟩
        show { w0.sub with latestEventId := r.1 } = _
        rw [hs]
      · rw [if_neg hin]
        exact ⟨hkey, sub0, hsub0, hs⟩
  | caughtUp rest hbatch _ =>
    refine h.fewer hrefl le_rfl (fun k => line_sublist (Or.inr rfl) ?_ (Or.inr rfl))
      (fun k q hk => ⟨q, hk, rfl, rfl⟩) (fun n sub hm => Or.inl (mem_mail_rest hbatch hm)) h.watching
    exact mail_handled (fun _ => rfl) hbatch rfl rfl

theorem Reached.held {cfg : Cfg} (h : Reached cfg v) : Held v := by
  induction h with
  | init db cursor =>
    exact ⟨fun _ => .nil, by simp [line, mail, HandOff.init], by simp [HandOff.init],
      by simp [mail, HandOff.init], by simp [HandOff.init]⟩
  | act _ ha ih => exact ih.act ha

/-! ## No REQ is held twice -/

/-- The parts of a line are apart. -/
theorem Held.apart (h : Held v) (k : Nat × SubId) :
    (∀ w, v.watching k = some w → ∀ n sub, .newSub n sub ∈ v.mail → sub.key = k → w.reqNo < n) ∧
    (∀ w, v.watching k = some w → ∀ q, v.querying k = some q → w.reqNo < q.reqNo) ∧
    ∀ n sub, .newSub n sub ∈ v.mail → sub.key = k → ∀ q, v.querying k = some q → n < q.reqNo := by
  have hord := h.ordered k
  unfold line at hord
  obtain ⟨hfirst, -, hlast⟩ := List.pairwise_append.mp hord
  have hmail : ∀ n sub, .newSub n sub ∈ v.mail → sub.key = k → n ∈ v.mail.filterMap (MsgReqMonitor.reqNoOf k) :=
    fun n sub hm hk => List.mem_filterMap.mpr ⟨_, hm, mem_reqNoOf.mpr ⟨sub, rfl, hk⟩⟩
  have hw : ∀ w, v.watching k = some w → w.reqNo ∈ ((v.watching k).map Watching.reqNo).toList := by
    intro w hw
    rw [hw]
    simp
  have hq : ∀ q, v.querying k = some q → q.reqNo ∈ ((v.querying k).map Querying.reqNo).toList := by
    intro q hq
    rw [hq]
    simp
  refine ⟨fun w hk n sub hm hkey => ?_, fun w hk q hk' => ?_, fun n sub hm hkey q hk' => ?_⟩
  · exact (List.pairwise_append.mp hfirst).2.2 _ (hw w hk) _ (hmail n sub hm hkey)
  · exact hlast _ (List.mem_append_left _ (hw w hk)) _ (hq q hk')
  · exact hlast _ (List.mem_append_right _ (hmail n sub hm hkey)) _ (hq q hk')

theorem mem_line_querying {q : Querying} (hq : v.querying k = some q) : q.reqNo ∈ v.line k :=
  mem_line.mpr (Or.inr (Or.inr ⟨q, hq, rfl⟩))

theorem mem_line_mailed (hm : .newSub n sub ∈ v.mail) : n ∈ v.line sub.key :=
  mem_line.mpr (Or.inr (Or.inl ⟨sub, hm, rfl⟩))

theorem mem_line_watching {w : Watching} (hw : v.watching k = some w) : w.reqNo ∈ v.line k :=
  mem_line.mpr (Or.inl ⟨w, hw, rfl⟩)

theorem Held.querying_ne_mailed (h : Held v) {q : Querying} (hq : v.querying k = some q)
    (hm : .newSub n sub ∈ v.mail) : n ≠ q.reqNo := by
  rintro rfl
  have hk := h.unique (mem_line_querying hq) (mem_line_mailed hm)
  exact (Nat.lt_irrefl _) ((h.apart k).2.2 _ _ hm hk.symm q hq)

theorem Held.querying_ne_watching (h : Held v) {q : Querying} {w : Watching} (hq : v.querying k = some q)
    (hw : v.watching k' = some w) : w.reqNo ≠ q.reqNo := by
  intro he
  have hk := h.unique (mem_line_querying hq) (he ▸ mem_line_watching hw)
  subst hk
  exact absurd he ((h.apart k).2.1 w hw q hq).ne

theorem Held.mailed_ne_watching (h : Held v) {w : Watching} (hm : .newSub n sub ∈ v.mail)
    (hw : v.watching k = some w) : w.reqNo ≠ n := by
  rintro rfl
  have hk := h.unique (mem_line_mailed hm) (mem_line_watching hw)
  exact (Nat.lt_irrefl _) ((h.apart k).1 w hw _ _ hm hk)

theorem Held.querying_inj (h : Held v) {q q' : Querying} (hq : v.querying k = some q)
    (hq' : v.querying k' = some q') (he : q'.reqNo = q.reqNo) : k' = k :=
  h.unique (he ▸ mem_line_querying hq') (mem_line_querying hq)

theorem Held.watching_inj (h : Held v) {w w' : Watching} (hw : v.watching k = some w)
    (hw' : v.watching k' = some w') (he : w'.reqNo = w.reqNo) : k' = k :=
  h.unique (he ▸ mem_line_watching hw') (mem_line_watching hw)

/-- The REQ at the front of the mail is not in the rest of it. -/
theorem Held.front_ne_mailed (h : Held v) {rest : List MsgReqMonitor} {n' : Nat} {sub' : Subscription}
    (hbatch : v.batch = .newSub n sub :: rest) (hm : .newSub n' sub' ∈ rest ++ v.inbox) : n' ≠ n := by
  rintro rfl
  have hmail : v.mail = .newSub n' sub :: (rest ++ v.inbox) := by
    unfold mail
    rw [hbatch]
    rfl
  have hk : sub.key = sub'.key :=
    h.unique (mem_line_mailed (hmail ▸ List.mem_cons_self)) (mem_line_mailed (hmail ▸ List.mem_cons_of_mem _ hm))
  have hord := h.ordered sub.key
  unfold line at hord
  have hmid := (List.pairwise_append.mp (List.pairwise_append.mp hord).1).2.1
  rw [hmail, List.filterMap_cons, MsgReqMonitor.reqNoOf, if_pos rfl] at hmid
  exact Nat.lt_irrefl _ ((List.pairwise_cons.mp hmid).1 n'
    (List.mem_filterMap.mpr ⟨_, hm, mem_reqNoOf.mpr ⟨sub', rfl, hk.symm⟩⟩))

end

end HandOff

end Strfry
