import Strfry.HandOff

/-!
# From REQ to CLOSE

What is held with an id follows from the messages about it (`Lifecycle`): the query is for the
last REQ, and when none is running, what the monitor will hold once it has gone through its mail
is the open REQ, if there is one.  At every point of the mail the ids held are among those open at
some point of the messages, so a connection that keeps within its limit is never turned down.
-/

namespace Strfry

namespace ReqSystem

/-! ## The open REQ of an id -/

theorem openReq_append (l : List MsgReqWorker) (msg : MsgReqWorker) (k : Nat × SubId) :
    openReq (l ++ [msg]) k = reopen k (openReq l k) (msg, l.length) := by
  unfold openReq
  rw [List.zipIdx_append, List.foldl_append]
  simp

theorem openReq_take {arrived : List MsgReqWorker} {n : Nat} {msg : MsgReqWorker} (h : arrived[n]? = some msg)
    (k : Nat × SubId) : openReq (arrived.take (n + 1)) k = reopen k (openReq (arrived.take n) k) (msg, n) := by
  have hlt := (List.getElem?_eq_some_iff.mp h).1
  rw [List.take_add_one, h]
  have hlen : (arrived.take n).length = n := List.length_take_of_le hlt.le
  have happ := openReq_append (arrived.take n) msg k
  rw [hlen] at happ
  exact happ

/-- What a message that is passed on at once does. -/
theorem reopen_forward {msg : MsgReqWorker} {fwd : MsgReqMonitor} (h : msg.forward = some fwd) (k : Nat × SubId)
    (opened : Option Nat) (n : Nat) : reopen k opened (msg, n) = if fwd.Ends k then none else opened := by
  cases msg with
  | newSub sub => cases h
  | removeSub connId subId =>
    cases h
    by_cases hk : (connId, subId) = k
    · rw [if_pos (show (MsgReqMonitor.removeSub connId subId).Ends k from hk.symm)]
      exact if_pos hk
    · rw [if_neg (show ¬ (MsgReqMonitor.removeSub connId subId).Ends k from fun he => hk he.symm)]
      exact if_neg hk
  | closeConn connId =>
    cases h
    by_cases hk : connId = k.1
    · rw [if_pos (show (MsgReqMonitor.closeConn connId).Ends k from hk.symm)]
      exact if_pos hk
    · rw [if_neg (show ¬ (MsgReqMonitor.closeConn connId).Ends k from fun he => hk he.symm)]
      exact if_neg hk

/-- No connection ever has more ids open than it may have. -/
def Fits (max : Nat) (arrived : List MsgReqWorker) : Prop :=
  ∀ n c (ids : Finset SubId), (∀ i ∈ ids, (openReq (arrived.take n) (c, i)).isSome) → ids.card ≤ max

theorem Fits.of_append {max : Nat} {arrived l : List MsgReqWorker} (h : Fits max (arrived ++ l)) : Fits max arrived := by
  intro n c ids hids
  refine h (min n arrived.length) c ids fun i hi => ?_
  rw [List.take_append_of_le_length (min_le_right _ _), ← List.take_eq_take_min]
  exact hids i hi

end ReqSystem

namespace HandOff

open ReqSystem

/-! ## What the monitor will hold -/

/-- What a message of the mail does to the REQ watched for. -/
def rewatch (k : Nat × SubId) (watched : Option Nat) : MsgReqMonitor → Option Nat
  | .newSub n sub => if sub.key = k then some n else watched
  | msg => if msg.Ends k then none else watched

/-- The REQ watched for after some mail. -/
def afterMail (v : HandOff) (k : Nat × SubId) (l : List MsgReqMonitor) : Option Nat :=
  l.foldl (rewatch k) ((v.watching k).map Watching.reqNo)

section
variable {v v' : HandOff} {k : Nat × SubId}

theorem rewatch_of_not_newSub {msg : MsgReqMonitor} (h : ∀ k, msg.reqNoOf k = none) (k : Nat × SubId)
    (watched : Option Nat) : rewatch k watched msg = if msg.Ends k then none else watched := by
  cases msg with
  | newSub n sub =>
    have := h sub.key
    simp [MsgReqMonitor.reqNoOf] at this
  | removeSub => rfl
  | closeConn => rfl
  | dbChange => rfl

theorem afterMail_append (v : HandOff) (k : Nat × SubId) (l : List MsgReqMonitor) (msg : MsgReqMonitor) :
    v.afterMail k (l ++ [msg]) = rewatch k (v.afterMail k l) msg := by
  unfold afterMail
  rw [List.foldl_append]
  rfl

/-- A message of the mail is handled. -/
theorem afterMail_cons {msg : MsgReqMonitor} (l : List MsgReqMonitor)
    (h : (v'.watching k).map Watching.reqNo = rewatch k ((v.watching k).map Watching.reqNo) msg) :
    v'.afterMail k l = v.afterMail k (msg :: l) := by
  unfold afterMail
  rw [List.foldl_cons, h]

theorem afterMail_congr (l : List MsgReqMonitor)
    (h : (v'.watching k).map Watching.reqNo = (v.watching k).map Watching.reqNo) :
    v'.afterMail k l = v.afterMail k l := by
  unfold afterMail
  rw [h]

/-! ## The invariant -/

/-- The open REQ of an id, by the messages the worker has handled. -/
def opened (v : HandOff) (k : Nat × SubId) : Option Nat := openReq (v.arrived.take v.handled) k

structure Lifecycle (v : HandOff) : Prop where
  bound : v.handled ≤ v.arrived.length
  queried : ∀ k q, v.querying k = some q → v.opened k = some q.reqNo
  settled : ∀ k, v.querying k = none → v.afterMail k v.mail = v.opened k
  was : ∀ l, l <+: v.mail → ∃ n ≤ v.handled, ∀ k, (v.afterMail k l).isSome →
    (openReq (v.arrived.take n) k).isSome

/-- What the monitor will hold is open. -/
theorem Lifecycle.isSome_opened (h : Lifecycle v) (hk : (v.afterMail k v.mail).isSome) : (v.opened k).isSome := by
  cases hq : v.querying k with
  | none =>
    rw [← h.settled k hq]
    exact hk
  | some q =>
    rw [h.queried k q hq]
    rfl

/-- More mail, at the end of which only open ids are held. -/
theorem Lifecycle.was_append (h : Lifecycle v) {msg : MsgReqMonitor} (hmail : v'.mail = v.mail ++ [msg])
    (hwatch : v'.watching = v.watching) (harr : v'.arrived = v.arrived) (hhandled : v.handled ≤ v'.handled)
    (hlast : ∀ k, (v'.afterMail k v'.mail).isSome → (v'.opened k).isSome) :
    ∀ l, l <+: v'.mail → ∃ n ≤ v'.handled, ∀ k, (v'.afterMail k l).isSome →
      (openReq (v'.arrived.take n) k).isSome := by
  intro l hl
  rw [hmail] at hl
  rcases List.prefix_concat_iff.mp hl with rfl | hl
  · rw [← hmail]
    exact ⟨v'.handled, le_rfl, hlast⟩
  · obtain ⟨n, hn, hall⟩ := h.was l hl
    refine ⟨n, hn.trans hhandled, fun k hk => ?_⟩
    rw [afterMail_congr (v := v) l (by rw [hwatch])] at hk
    rw [harr]
    exact hall k hk

/-- A message of the mail is handled. -/
theorem Lifecycle.handle (h : Lifecycle v) {msg : MsgReqMonitor} {rest : List MsgReqMonitor}
    (hbatch : v.batch = msg :: rest) (hb' : v'.batch = rest) (hi : v'.inbox = v.inbox)
    (hq : v'.querying = v.querying) (harr : v'.arrived = v.arrived) (hhandled : v'.handled = v.handled)
    (hw : ∀ k, (v'.watching k).map Watching.reqNo = rewatch k ((v.watching k).map Watching.reqNo) msg) :
    Lifecycle v' := by
  have hmail : v.mail = msg :: v'.mail := by
    unfold mail
    rw [hbatch, hb', hi]
    rfl
  have hopened : ∀ k, v'.opened k = v.opened k := by
    intro k
    unfold opened
    rw [harr, hhandled]
  refine ⟨by rw [harr, hhandled]; exact h.bound, fun k q hk => ?_, fun k hk => ?_, fun l hl => ?_⟩
  · rw [hopened]
    rw [hq] at hk
    exact h.queried k q hk
  · rw [hq] at hk
    rw [hopened, afterMail_cons _ (hw k), ← hmail]
    exact h.settled k hk
  · obtain ⟨n, hn, hall⟩ := h.was (msg :: l) (by rw [hmail]; exact (List.prefix_cons_inj msg).mpr hl)
    refine ⟨n, hhandled ▸ hn, fun k hk => ?_⟩
    rw [afterMail_cons _ (hw k)] at hk
    rw [harr]
    exact hall k hk

/-- A connection within its limit is not crowded. -/
theorem not_crowded {max n : Nat} {arrived : List MsgReqWorker} (h : Fits max arrived) {used : Nat × SubId → Prop}
    (hself : (openReq (arrived.take n) k).isSome)
    (hused : ∀ i, i ≠ k.2 → used (k.1, i) → (openReq (arrived.take n) (k.1, i)).isSome) :
    ¬ Crowded used k max := by
  rintro ⟨ids, hcard, hids⟩
  have hnot : k.2 ∉ ids := fun hin => (hids k.2 hin).1 rfl
  have hle := h n k.1 (insert k.2 ids) fun i hi => by
    rcases Finset.mem_insert.mp hi with rfl | hi
    · exact hself
    · exact hused i (hids i hi).1 (hids i hi).2
  rw [Finset.card_insert_of_notMem hnot] at hle
  omega

/-- A REQ takes the place of the one open. -/
theorem reopen_newSub (sub : Subscription) (opened : Option Nat) (n : Nat) :
    reopen k opened (.newSub sub, n) = if k = sub.key then some n else opened := by
  by_cases hk : k = sub.key
  · rw [if_pos hk]
    exact if_pos hk.symm
  · rw [if_neg hk]
    exact if_neg (Ne.symm hk)

/-- A connection within its limit is not turned down. -/
theorem Lifecycle.begin_added (h : Lifecycle v) {max : Nat} {sub : Subscription} {added : Bool}
    (hfits : Fits max v.arrived) (hmsg : v.arrived[v.handled]? = some (.newSub sub))
    (hfull : added = false → Crowded (fun k => (v.querying k).isSome) sub.key max) : added = true := by
  rw [← Bool.not_eq_false]
  intro hf
  refine not_crowded (n := v.handled + 1) (k := sub.key) hfits ?_ (fun i hi hused => ?_) (hfull hf)
  · rw [openReq_take hmsg, reopen_newSub, if_pos rfl]
    rfl
  · obtain ⟨q, hk⟩ := Option.isSome_iff_exists.mp hused
    have hopen := h.queried _ q hk
    unfold opened at hopen
    rw [openReq_take hmsg, reopen_newSub, if_neg fun he => hi (congrArg Prod.snd he), hopen]
    rfl

/-- **A query begins**: the REQ is the open one now. -/
theorem Lifecycle.begin (h : Lifecycle v) {max b : Nat} {sub : Subscription} {added : Bool}
    (hfits : Fits max v.arrived) (hmsg : v.arrived[v.handled]? = some (.newSub sub))
    (hfull : added = false → Crowded (fun k => (v.querying k).isSome) sub.key max)
    (hq : ∀ k, v'.querying k = if k = sub.key then
      (if added then some ⟨v.handled, { sub with latestEventId := b }, ∅⟩ else none) else v.querying k)
    (harr : v'.arrived = v.arrived) (hhandled : v'.handled = v.handled + 1) (hmail : v'.mail = v.mail)
    (hw : v'.watching = v.watching) : Lifecycle v' := by
  have hopened : ∀ k, v'.opened k = if k = sub.key then some v.handled else v.opened k := by
    intro k
    unfold opened
    rw [harr, hhandled, openReq_take hmsg, reopen_newSub]
  obtain rfl := h.begin_added hfits hmsg hfull
  simp only [if_true] at hq
  refine ⟨?_, fun k q hk => ?_, fun k hk => ?_, fun l hl => ?_⟩
  · rw [harr, hhandled]
    exact (List.getElem?_eq_some_iff.mp hmsg).1
  · rw [hq] at hk
    rw [hopened]
    split at hk
    · rename_i he
      rw [if_pos he]
      cases hk
      rfl
    · rename_i he
      rw [if_neg he]
      exact h.queried k q hk
  · rw [hq] at hk
    rw [hopened, hmail, afterMail_congr (v := v) _ (by rw [hw])]
    split at hk
    · cases hk
    · rename_i he
      rw [if_neg he]
      exact h.settled k hk
  · rw [hmail] at hl
    obtain ⟨n, hn, hall⟩ := h.was l hl
    refine ⟨n, by omega, fun k hk => ?_⟩
    rw [afterMail_congr (v := v) l (by rw [hw])] at hk
    rw [harr]
    exact hall k hk

/-- **A CLOSE or a disconnect** ends what is open, and is at the end of the mail. -/
theorem Lifecycle.close (h : Lifecycle v) {msg : MsgReqWorker} {fwd : MsgReqMonitor}
    (hmsg : v.arrived[v.handled]? = some msg) (hfwd : msg.forward = some fwd)
    (hq : ∀ k, v'.querying k = if fwd.Ends k then none else v.querying k) (harr : v'.arrived = v.arrived)
    (hhandled : v'.handled = v.handled + 1) (hmail : v'.mail = v.mail ++ [fwd]) (hw : v'.watching = v.watching) :
    Lifecycle v' := by
  have hopened : ∀ k, v'.opened k = if fwd.Ends k then none else v.opened k := by
    intro k
    unfold opened
    rw [harr, hhandled, openReq_take hmsg, reopen_forward hfwd]
  have hafter : ∀ k, v'.afterMail k v'.mail = if fwd.Ends k then none else v.afterMail k v.mail := by
    intro k
    rw [hmail, afterMail_append, rewatch_of_not_newSub (MsgReqWorker.reqNoOf_forward hfwd),
      afterMail_congr (v := v) _ (by rw [hw])]
  refine ⟨?_, fun k q hk => ?_, fun k hk => ?_, h.was_append hmail hw harr (by omega) fun k hk => ?_⟩
  · rw [harr, hhandled]
    exact (List.getElem?_eq_some_iff.mp hmsg).1
  · rw [hq] at hk
    rw [hopened]
    split at hk
    · cases hk
    · rename_i he
      rw [if_neg he]
      exact h.queried k q hk
  · rw [hq] at hk
    rw [hopened, hafter]
    split at hk
    · rename_i he
      rw [if_pos he, if_pos he]
    · rename_i he
      rw [if_neg he, if_neg he]
      exact h.settled k hk
  · rw [hafter] at hk
    rw [hopened]
    split at hk
    · cases hk
    · rename_i he
      rw [if_neg he]
      exact h.isSome_opened hk

/-- **A query is complete**: its REQ is at the end of the mail. -/
theorem Lifecycle.complete (h : Lifecycle v) {k0 : Nat × SubId} {q0 : Querying} (hk0 : v.querying k0 = some q0)
    (hkey : q0.sub.key = k0) (hq : ∀ k, v'.querying k = if k = k0 then none else v.querying k)
    (harr : v'.arrived = v.arrived) (hhandled : v'.handled = v.handled)
    (hmail : v'.mail = v.mail ++ [.newSub q0.reqNo q0.sub]) (hw : v'.watching = v.watching) : Lifecycle v' := by
  have hopened : ∀ k, v'.opened k = v.opened k := by
    intro k
    unfold opened
    rw [harr, hhandled]
  have hafter : ∀ k, v'.afterMail k v'.mail = if k = k0 then some q0.reqNo else v.afterMail k v.mail := by
    intro k
    rw [hmail, afterMail_append, afterMail_congr (v := v) _ (by rw [hw]), rewatch, hkey]
    by_cases hk : k = k0
    · rw [if_pos hk, if_pos hk.symm]
    · rw [if_neg hk, if_neg (Ne.symm hk)]
  refine ⟨by rw [harr, hhandled]; exact h.bound, fun k q hk => ?_, fun k hk => ?_,
    h.was_append hmail hw harr hhandled.ge fun k hk => ?_⟩
  · rw [hq] at hk
    rw [hopened]
    split at hk
    · cases hk
    · exact h.queried k q hk
  · rw [hq] at hk
    rw [hopened, hafter]
    split at hk
    · rename_i he
      rw [if_pos he, he, h.queried k0 q0 hk0]
    · rename_i he
      rw [if_neg he]
      exact h.settled k hk
  · rw [hafter] at hk
    rw [hopened]
    split at hk
    · rename_i he
      rw [he, h.queried k0 q0 hk0]
      rfl
    · exact h.isSome_opened hk

/-- The same REQs are held, in the same places. -/
theorem Lifecycle.congr (h : Lifecycle v) (harr : v.arrived <+: v'.arrived) (hhandled : v'.handled = v.handled)
    (hmail : v'.mail = v.mail) (hq : ∀ k, (v'.querying k).map Querying.reqNo = (v.querying k).map Querying.reqNo)
    (hw : ∀ k, (v'.watching k).map Watching.reqNo = (v.watching k).map Watching.reqNo) : Lifecycle v' := by
  have htake : ∀ n ≤ v.handled, v'.arrived.take n = v.arrived.take n := by
    intro n hn
    obtain ⟨l, hl⟩ := harr
    rw [← hl, List.take_append_of_le_length (hn.trans h.bound)]
  have hopened : ∀ k, v'.opened k = v.opened k := by
    intro k
    unfold opened
    rw [hhandled, htake _ le_rfl]
  refine ⟨hhandled ▸ h.bound.trans harr.length_le, fun k q hk => ?_, fun k hk => ?_, fun l hl => ?_⟩
  · have hk' := hq k
    rw [hk] at hk'
    obtain ⟨q0, hq0, he⟩ := Option.map_eq_some_iff.mp hk'.symm
    rw [hopened, h.queried k q0 hq0, he]
  · have hk' := hq k
    rw [hk] at hk'
    rw [hopened, hmail, afterMail_congr _ (hw k)]
    exact h.settled k (Option.map_eq_none_iff.mp hk'.symm)
  · rw [hmail] at hl
    obtain ⟨n, hn, hall⟩ := h.was l hl
    refine ⟨n, hhandled ▸ hn, fun k hk => ?_⟩
    rw [afterMail_congr _ (hw k)] at hk
    rw [htake n hn]
    exact hall k hk

/-- **A REQ is installed**: its connection was within its limit when the mail was sent. -/
theorem Lifecycle.install (h : Lifecycle v) {max n : Nat} {sub : Subscription} {added : Bool}
    {rest : List MsgReqMonitor} {watching : Nat × SubId → Option Watching} (hfits : Fits max v.arrived)
    (hbatch : v.batch = .newSub n sub :: rest)
    (hfull : added = false → Crowded (fun k => (v.watching k).isSome) sub.key max)
    (hw : ∀ k, watching k = if k = sub.key then
      (if added then some ⟨n, { sub with latestEventId := v.seen.event.lastId }⟩ else none) else v.watching k)
    (hb' : v'.batch = rest) (hi : v'.inbox = v.inbox) (hq : v'.querying = v.querying)
    (harr : v'.arrived = v.arrived) (hhandled : v'.handled = v.handled) (hw' : v'.watching = watching) :
    Lifecycle v' := by
  have hfront : [MsgReqMonitor.newSub n sub] <+: v.mail := by
    unfold mail
    rw [hbatch]
    exact ⟨rest ++ v.inbox, rfl⟩
  obtain ⟨j, -, hopen⟩ := h.was _ hfront
  have hadded : added = true := by
    rw [← Bool.not_eq_false]
    intro hf
    refine not_crowded (n := j) (k := sub.key) hfits (hopen _ ?_) (fun i hi hused => hopen _ ?_) (hfull hf)
    · show (if sub.key = sub.key then some n else _).isSome = true
      rw [if_pos rfl]
      rfl
    · show (if sub.key = (sub.key.1, i) then some n else _).isSome = true
      rw [if_neg fun he => hi (congrArg Prod.snd he).symm, Option.isSome_map]
      exact hused
  subst hadded
  simp only [if_true] at hw
  refine h.handle hbatch hb' hi hq harr hhandled fun k => ?_
  rw [hw', hw, rewatch]
  by_cases hk : k = sub.key
  · rw [if_pos hk, if_pos hk.symm]
    rfl
  · rw [if_neg hk, if_neg (Ne.symm hk)]

/-- A DBChange holds nothing. -/
theorem Lifecycle.post (h : Lifecycle v) (hmail : v'.mail = v.mail ++ [.dbChange]) (hq : v'.querying = v.querying)
    (harr : v'.arrived = v.arrived) (hhandled : v'.handled = v.handled) (hw : v'.watching = v.watching) :
    Lifecycle v' := by
  have hopened : ∀ k, v'.opened k = v.opened k := by
    intro k
    unfold opened
    rw [harr, hhandled]
  have hafter : ∀ k, v'.afterMail k v'.mail = v.afterMail k v.mail := by
    intro k
    rw [hmail, afterMail_append, afterMail_congr (v := v) _ (by rw [hw])]
    rfl
  refine ⟨by rw [harr, hhandled]; exact h.bound, fun k q hk => ?_, fun k hk => ?_,
    h.was_append hmail hw harr hhandled.ge fun k hk => ?_⟩
  · rw [hq] at hk
    rw [hopened]
    exact h.queried k q hk
  · rw [hq] at hk
    rw [hopened, hafter]
    exact h.settled k hk
  · rw [hafter] at hk
    rw [hopened]
    exact h.isSome_opened hk

/-- **One step**, when no connection has more ids open than it may and there are no COUNTs. -/
theorem Lifecycle.act {cfg : Cfg} (h : Lifecycle v) (hheld : Held v)
    (hfits : Fits cfg.relayMaxSubsPerConnection v.arrived)
    (hreq : ∀ sub, .newSub sub ∈ v.arrived → sub.countOnly = false) (ha : Act cfg v v') : Lifecycle v' := by
  have hrefl : v.arrived <+: v.arrived := List.prefix_refl _
  cases ha with
  | commit db hev => exact h.congr hrefl rfl rfl (fun _ => rfl) fun _ => rfl
  | arrive msg => exact h.congr (List.prefix_append _ _) rfl rfl (fun _ => rfl) fun _ => rfl
  | post => exact h.post (List.append_assoc _ _ _).symm rfl rfl rfl rfl
  | begin sub added b querying cancelled hmsg hb hfull hq hc =>
    exact h.begin hfits hmsg hfull hq rfl rfl rfl rfl
  | close msg fwd querying cancelled hmsg hfwd hq hc =>
    exact h.close hmsg hfwd hq rfl rfl (List.append_assoc _ _ _).symm rfl
  | found k0 q0 l sent full querying hk0 _ _ _ _ _ hq =>
    refine h.congr hrefl rfl rfl (fun k => ?_) fun _ => rfl
    show (querying k).map _ = _
    rw [hq]
    by_cases hk : k = k0
    · rw [if_pos hk, hk, hk0]
      rfl
    · rw [if_neg hk]
  | complete k0 q0 querying hk0 hcount hq =>
    exact h.complete hk0 (hheld.querying k0 q0 hk0).1 hq rfl rfl (List.append_assoc _ _ _).symm rfl
  | counted k0 q0 total limited querying hk0 hcount hq =>
    obtain ⟨-, sub0, h0, hs⟩ := hheld.querying k0 q0 hk0
    rw [hs] at hcount
    rw [hreq sub0 (List.mem_of_getElem? h0)] at hcount
    cases hcount
  | wake batch rest hidle hin =>
    refine h.congr hrefl rfl ?_ (fun _ => rfl) fun _ => rfl
    unfold mail
    rw [hidle, hin]
    rfl
  | install n sub rest added watching hbatch hfull hw =>
    exact h.install hfits hbatch hfull hw rfl rfl rfl rfl rfl rfl
  | uninstall msg rest watching hbatch hmsg hne hw =>
    refine h.handle hbatch rfl rfl rfl rfl rfl fun k => ?_
    rw [rewatch_of_not_newSub hmsg]
    show (watching k).map _ = _
    rw [hw]
    split <;> rfl
  | row r rest rs reqNoOf watching _ _ _ _ _ _ _ hw =>
    refine h.congr hrefl rfl rfl (fun _ => rfl) fun k => ?_
    show (watching k).map _ = _
    rw [hw, Option.map_map]
    congr 1
    funext w
    show (if k ∈ rs then _ else _ : Watching).reqNo = _
    split <;> rfl
  | caughtUp rest hbatch hend => exact h.handle hbatch rfl rfl rfl rfl rfl fun k => rfl

end

/-! ## The EOSE of a REQ -/

theorem eoses_append (n : Nat) (out out' : List ReqOut) : eoses n (out ++ out') = eoses n out ++ eoses n out' :=
  List.filterMap_append

theorem eoses_events {α : Type} (n : Nat) (f : α → ReqOut) (l : List α)
    (hf : ∀ a, ∃ m stage c i lev, f a = .event m stage c i lev) : eoses n (l.map f) = [] := by
  unfold eoses
  rw [List.filterMap_map, List.filterMap_eq_nil_iff]
  intro a _
  obtain ⟨m, stage, c, i, lev, he⟩ := hf a
  rw [Function.comp, he]

theorem eoses_refusal (n c : Nat) (added : Bool) : eoses n (refusal c added) = [] := by
  cases added <;> rfl

/-- The monitor sent it for the REQ. -/
def ByMonitor (n : Nat) : ReqOut → Prop
  | .event m .monitor _ _ _ => m = n
  | _ => False

/-- What the monitor sends for the REQ comes after its EOSE. -/
def AfterEose (n : Nat) (out : List ReqOut) : Prop :=
  ∀ before x after, out = before ++ x :: after → ByMonitor n x → eoses n before ≠ []

theorem AfterEose.append {n : Nat} {out new : List ReqOut} (h : AfterEose n out)
    (hnew : ∀ x ∈ new, ByMonitor n x → eoses n out ≠ []) : AfterEose n (out ++ new) := by
  intro before x after he hx
  rcases List.append_eq_append_iff.mp he with ⟨l, rfl, hl⟩ | ⟨l, hout, hl⟩
  · have hne := hnew x (by rw [hl]; simp) hx
    rw [eoses_append]
    exact fun hnil => hne (List.append_eq_nil_iff.mp hnil).1
  · cases l with
    | nil =>
      rw [List.append_nil] at hout
      rw [← hout]
      exact hnew x (by rw [List.nil_append] at hl; rw [← hl]; exact List.mem_cons_self) hx
    | cons y l =>
      rw [List.cons_append] at hl
      injection hl with hxy hl
      subst hxy
      exact h before x l hout hx

structure Eosed (v : HandOff) : Prop where
  fresh : ∀ n, v.handled ≤ n → eoses n v.out = [] ∧ n ∉ v.cancelled
  queried : ∀ k q, v.querying k = some q → eoses q.reqNo v.out = [] ∧ q.reqNo ∉ v.cancelled
  mailed : ∀ n sub, .newSub n sub ∈ v.mail → eoses n v.out ≠ []
  watched : ∀ k w, v.watching k = some w → eoses w.reqNo v.out ≠ []
  once : ∀ n sub, n < v.handled → v.arrived[n]? = some (.newSub sub) → n ∉ v.cancelled →
    (∀ k q, v.querying k = some q → q.reqNo ≠ n) → eoses n v.out = [n]
  order : ∀ n, AfterEose n v.out

section
variable {v v' : HandOff}

/-- No query begins or ends, and the monitor sends only for REQs it was handed. -/
theorem Eosed.keep (h : Eosed v) (hbound : v.handled ≤ v.arrived.length) (new : List ReqOut)
    (hout : v'.out = v.out ++ new) (heose : ∀ n, eoses n new = [])
    (hsent : ∀ n, ∀ x ∈ new, ByMonitor n x → eoses n v.out ≠ []) (harr : v.arrived <+: v'.arrived)
    (hhandled : v'.handled = v.handled) (hc : v'.cancelled = v.cancelled)
    (hq : ∀ k, (v'.querying k).map Querying.reqNo = (v.querying k).map Querying.reqNo)
    (hm : ∀ n sub, .newSub n sub ∈ v'.mail → .newSub n sub ∈ v.mail)
    (hw : ∀ k w, v'.watching k = some w → eoses w.reqNo v.out ≠ []) : Eosed v' := by
  have hsame : ∀ n, eoses n v'.out = eoses n v.out := by
    intro n
    rw [hout, eoses_append, heose, List.append_nil]
  have hquery : ∀ k q, v'.querying k = some q → ∃ q0, v.querying k = some q0 ∧ q0.reqNo = q.reqNo := by
    intro k q hk
    have hk' := hq k
    rw [hk] at hk'
    exact Option.map_eq_some_iff.mp hk'.symm
  refine ⟨fun n hn => ?_, fun k q hk => ?_, fun n sub hmail => ?_, fun k w hk => ?_,
    fun n sub hn hsub hnot hne => ?_, fun n => ?_⟩
  · rw [hsame, hc]
    exact h.fresh n (hhandled ▸ hn)
  · obtain ⟨q0, hq0, he⟩ := hquery k q hk
    rw [hsame, hc, ← he]
    exact h.queried k q0 hq0
  · rw [hsame]
    exact h.mailed n sub (hm n sub hmail)
  · rw [hsame]
    exact hw k w hk
  · rw [hhandled] at hn
    rw [hc] at hnot
    obtain ⟨l, hl⟩ := harr
    rw [← hl, List.getElem?_append_left (hn.trans_le hbound)] at hsub
    rw [hsame]
    refine h.once n sub hn hsub hnot fun k q hk => ?_
    have hk' := hq k
    rw [hk] at hk'
    obtain ⟨q', hq', he⟩ := Option.map_eq_some_iff.mp hk'
    rw [← he]
    exact hne k q' hq'
  · rw [hout]
    exact (h.order n).append (hsent n)

/-- A message is handled: the queries of the ids `D` are cancelled, and a REQ begins its own. -/
theorem Eosed.handle (h : Eosed v) (hheld : Held v) {D : Nat × SubId → Prop} (new : List ReqOut)
    (hout : v'.out = v.out ++ new) (heose : ∀ n, eoses n new = []) (hsent : ∀ n, ∀ x ∈ new, ¬ ByMonitor n x)
    (harr : v'.arrived = v.arrived) (hhandled : v'.handled = v.handled + 1) (hc : v.Cancels D v'.cancelled)
    (hq : ∀ k q, v'.querying k = some q → (¬ D k ∧ v.querying k = some q) ∨ q.reqNo = v.handled)
    (hkept : ∀ k q, ¬ D k → v.querying k = some q → v'.querying k = some q)
    (hbegun : ∀ sub, v.arrived[v.handled]? = some (.newSub sub) → ∃ k q, v'.querying k = some q ∧ q.reqNo = v.handled)
    (hm : ∀ n sub, .newSub n sub ∈ v'.mail → .newSub n sub ∈ v.mail) (hw : v'.watching = v.watching) : Eosed v' := by
  have hsame : ∀ n, eoses n v'.out = eoses n v.out := by
    intro n
    rw [hout, eoses_append, heose, List.append_nil]
  have hfresh : ∀ n, v.handled ≤ n → n ∉ v'.cancelled := by
    intro n hn hin
    rcases (hc n).mp hin with hin | ⟨k, q, -, hk, rfl⟩
    · exact (h.fresh n hn).2 hin
    · exact absurd (hheld.handled k _ (mem_line_querying hk)) (Nat.not_lt.mpr hn)
  refine ⟨fun n hn => ?_, fun k q hk => ?_, fun n sub hmail => ?_, fun k w hk => ?_,
    fun n sub hn hsub hnot hne => ?_, fun n => ?_⟩
  · rw [hhandled] at hn
    rw [hsame]
    exact ⟨(h.fresh n (by omega)).1, hfresh n (by omega)⟩
  · rw [hsame]
    rcases hq k q hk with ⟨hD, hk⟩ | hnew
    · refine ⟨(h.queried k q hk).1, fun hin => ?_⟩
      rcases (hc _).mp hin with hin | ⟨k', q', hD', hk', he⟩
      · exact (h.queried k q hk).2 hin
      · exact hD (hheld.querying_inj hk hk' he ▸ hD')
    · rw [hnew]
      exact ⟨(h.fresh _ le_rfl).1, hfresh _ le_rfl⟩
  · rw [hsame]
    exact h.mailed n sub (hm n sub hmail)
  · rw [hw] at hk
    rw [hsame]
    exact h.watched k w hk
  · rw [hhandled] at hn
    rw [harr] at hsub
    rw [hsame]
    by_cases he : n = v.handled
    · subst he
      obtain ⟨k, q, hk, he⟩ := hbegun sub hsub
      exact absurd he (hne k q hk)
    · refine h.once n sub (by omega) hsub (fun hin => hnot ((hc n).mpr (Or.inl hin))) fun k q hk he' => ?_
      -- a query that ended cancelled its REQ
      by_cases hD : D k
      · exact hnot ((hc n).mpr (Or.inr ⟨k, q, hD, hk, he'⟩))
      · exact hne k q (hkept k q hD hk) he'
  · rw [hout]
    exact (h.order n).append fun x hx hby => absurd hby (hsent n x hx)

/-- A query is complete: its REQ gets its EOSE. -/
theorem Eosed.complete (h : Eosed v) (hheld : Held v) {k0 : Nat × SubId} {q0 : Querying}
    (hk0 : v.querying k0 = some q0) (hout : v'.out = v.out ++ [.eose q0.reqNo k0.1 k0.2])
    (harr : v'.arrived = v.arrived) (hhandled : v'.handled = v.handled) (hc : v'.cancelled = v.cancelled)
    (hq : ∀ k, v'.querying k = if k = k0 then none else v.querying k)
    (hmail : v'.mail = v.mail ++ [.newSub q0.reqNo q0.sub]) (hw : v'.watching = v.watching) : Eosed v' := by
  have hlt := hheld.handled k0 _ (mem_line_querying hk0)
  have heose : ∀ n, eoses n v'.out = eoses n v.out ++ if q0.reqNo = n then [q0.reqNo] else [] := by
    intro n
    rw [hout, eoses_append]
    congr 1
    unfold eoses
    by_cases hn : q0.reqNo = n
    · simp [hn]
    · simp [hn]
  have hother : ∀ n, n ≠ q0.reqNo → eoses n v'.out = eoses n v.out := by
    intro n hn
    rw [heose, if_neg (Ne.symm hn), List.append_nil]
  have hgrow : ∀ n, eoses n v.out ≠ [] → eoses n v'.out ≠ [] := by
    intro n hn hnil
    rw [heose] at hnil
    exact hn (List.append_eq_nil_iff.mp hnil).1
  refine ⟨fun n hn => ?_, fun k q hk => ?_, fun n sub hin => ?_, fun k w hk => ?_,
    fun n sub hn hsub hnot hne => ?_, fun n => ?_⟩
  · rw [hhandled] at hn
    rw [hother n (by omega), hc]
    exact h.fresh n hn
  · rw [hq] at hk
    split at hk
    · cases hk
    · rename_i hk'
      rw [hc, hother]
      · exact h.queried k q hk
      · exact fun he => hk' (hheld.querying_inj hk0 hk he)
  · rw [hmail] at hin
    rcases List.mem_append.mp hin with hin | hin
    · exact hgrow n (h.mailed n sub hin)
    · cases List.mem_singleton.mp hin
      rw [heose, if_pos rfl]
      simp
  · rw [hw] at hk
    exact hgrow _ (h.watched k w hk)
  · rw [hhandled] at hn
    rw [harr] at hsub
    rw [hc] at hnot
    by_cases he : n = q0.reqNo
    · rw [heose, if_pos he.symm, he, (h.queried k0 q0 hk0).1, List.nil_append]
    · rw [hother n he]
      refine h.once n sub hn hsub hnot fun k q hk he' => ?_
      by_cases hk' : k = k0
      · rw [hk', hk0] at hk
        cases hk
        exact he he'.symm
      · exact hne k q (by rw [hq, if_neg hk']; exact hk) he'
  · rw [hout]
    refine (h.order n).append fun x hx hby => ?_
    rw [List.mem_singleton.mp hx] at hby
    cases hby

/-- **One step**, when no connection has more ids open than it may and there are no COUNTs. -/
theorem Eosed.act {cfg : Cfg} (h : Eosed v) (hheld : Held v) (hlife : Lifecycle v)
    (hfits : Fits cfg.relayMaxSubsPerConnection v.arrived)
    (hreq : ∀ sub, .newSub sub ∈ v.arrived → sub.countOnly = false) (ha : Act cfg v v') : Eosed v' := by
  have hrefl : v.arrived <+: v.arrived := List.prefix_refl _
  have hbound := hlife.bound
  have hrefused : ∀ (c : Nat) (added : Bool) (n : Nat), ∀ x ∈ refusal c added, ¬ ByMonitor n x := by
    intro c added n x hx hby
    cases added with
    | true => cases hx
    | false =>
      rw [List.mem_singleton.mp hx] at hby
      cases hby
  cases ha with
  | commit db hev =>
    exact h.keep hbound [] (List.append_nil _).symm (fun _ => rfl) (by simp) hrefl rfl rfl (fun _ => rfl)
      (fun _ _ hm => hm) h.watched
  | arrive msg =>
    exact h.keep hbound [] (List.append_nil _).symm (fun _ => rfl) (by simp) (List.prefix_append _ _) rfl rfl
      (fun _ => rfl) (fun _ _ hm => hm) h.watched
  | post =>
    exact h.keep hbound [] (List.append_nil _).symm (fun _ => rfl) (by simp) hrefl rfl rfl (fun _ => rfl)
      (fun _ _ hm => mem_mail_post hm (fun _ => rfl) rfl rfl) h.watched
  | begin sub added b querying cancelled hmsg hb hfull hq hc =>
    obtain rfl := hlife.begin_added hfits hmsg hfull
    simp only [if_true] at hq
    refine h.handle hheld _ rfl (fun n => eoses_refusal n _ _) (hrefused _ _) rfl rfl hc (fun k q hk => ?_)
      (fun k q hk hk' => ?_) (fun sub' _ => ⟨sub.key, _, (hq _).trans (if_pos rfl), rfl⟩) (fun _ _ hm => hm) rfl
    · replace hk : querying k = some q := hk
      rw [hq] at hk
      split at hk
      · cases hk
        exact Or.inr rfl
      · rename_i hne
        exact Or.inl ⟨hne, hk⟩
    · show querying k = some q
      rw [hq, if_neg hk]
      exact hk'
  | close msg fwd querying cancelled hmsg hfwd hq hc =>
    refine h.handle hheld [] (List.append_nil _).symm (fun _ => rfl) (by simp) rfl rfl hc (fun k q hk => ?_)
      (fun k q hk hk' => ?_) (fun sub hsub => ?_)
      (fun _ _ hm => mem_mail_post hm (MsgReqWorker.reqNoOf_forward hfwd) rfl rfl) rfl
    · replace hk : querying k = some q := hk
      rw [hq] at hk
      split at hk
      · cases hk
      · rename_i hne
        exact Or.inl ⟨hne, hk⟩
    · show querying k = some q
      rw [hq, if_neg hk]
      exact hk'
    · rw [hmsg] at hsub
      cases hsub
      cases hfwd
  | found k0 q0 l sent full querying hk0 _ _ _ _ _ hq =>
    refine h.keep hbound _ rfl (fun n => eoses_events n _ _ fun x => ⟨_, _, _, _, _, rfl⟩) (fun n x hx hby => ?_)
      hrefl rfl rfl (fun k => ?_) (fun _ _ hm => hm) h.watched
    · obtain ⟨lev, -, rfl⟩ := List.mem_map.mp hx
      cases hby
    · show (querying k).map _ = _
      rw [hq]
      by_cases hk : k = k0
      · rw [if_pos hk, hk, hk0]
        rfl
      · rw [if_neg hk]
  | complete k0 q0 querying hk0 hcount hq =>
    exact h.complete hheld hk0 rfl rfl rfl rfl hq (List.append_assoc _ _ _).symm rfl
  | counted k0 q0 total limited querying hk0 hcount hq =>
    obtain ⟨-, sub0, h0, hs⟩ := hheld.querying k0 q0 hk0
    rw [hs, hreq sub0 (List.mem_of_getElem? h0)] at hcount
    cases hcount
  | wake batch rest hidle hin =>
    exact h.keep hbound [] (List.append_nil _).symm (fun _ => rfl) (by simp) hrefl rfl rfl (fun _ => rfl)
      (fun n sub hm => mail_wake hidle hin ▸ hm) h.watched
  | install n sub rest added watching hbatch hfull hw =>
    have hin : .newSub n sub ∈ v.mail := mem_mail_front hbatch
    refine h.keep hbound _ (List.append_assoc _ _ _) (fun m => ?_) (fun m x hx hby => ?_) hrefl rfl rfl (fun _ => rfl)
      (fun m sub' hm => mem_mail_rest hbatch hm) (fun k w hk => ?_)
    · rw [eoses_append, eoses_refusal, List.append_nil]
      exact eoses_events m _ _ fun r => ⟨_, _, _, _, _, rfl⟩
    · rcases List.mem_append.mp hx with hx | hx
      · obtain ⟨r, -, rfl⟩ := List.mem_map.mp hx
        have he : n = m := hby
        rw [← he]
        exact h.mailed n sub hin
      · exact absurd hby (hrefused _ _ m x hx)
    · replace hk : watching k = some w := hk
      rw [hw] at hk
      split at hk
      · split at hk
        · cases hk
          exact h.mailed n sub hin
        · cases hk
      · exact h.watched k w hk
  | uninstall msg rest watching hbatch hmsg hne hw =>
    exact h.keep hbound [] (List.append_nil _).symm (fun _ => rfl) (by simp) hrefl rfl rfl (fun _ => rfl)
      (fun n sub hm => mem_mail_rest hbatch hm) (fun k w hk => h.watched k w (some_of_ends (hw k) hk))
  | row r rest rs reqNoOf watching _ _ _ _ _ hmem hno hw =>
    refine h.keep hbound _ rfl (fun n => eoses_events n _ _ fun k => ⟨_, _, _, _, _, rfl⟩) (fun n x hx hby => ?_)
      hrefl rfl rfl (fun _ => rfl) (fun _ _ hm => hm) (fun k w hk => ?_)
    · obtain ⟨k, hk, rfl⟩ := List.mem_map.mp hx
      obtain ⟨w, hwatch, -⟩ := (hmem k).mp hk
      have he : reqNoOf k = n := hby
      rw [← he, hno k w hwatch]
      exact h.watched k w hwatch
    · replace hk : watching k = some w := hk
      rw [hw] at hk
      obtain ⟨w0, h0, rfl⟩ := Option.map_eq_some_iff.mp hk
      have hne := h.watched k w0 h0
      split
      · exact hne
      · exact hne
  | caughtUp rest hbatch hend =>
    exact h.keep hbound [] (List.append_nil _).symm (fun _ => rfl) (by simp) hrefl rfl rfl (fun _ => rfl)
      (fun n sub hm => mem_mail_rest hbatch hm) h.watched

theorem Act.arrived {cfg : Cfg} (ha : Act cfg v v') : v.arrived <+: v'.arrived := by
  cases ha with
  | arrive msg => exact List.prefix_append _ _
  | _ => exact List.prefix_refl _

theorem Reached.lifecycle {cfg : Cfg} (h : Reached cfg v) (hfits : Fits cfg.relayMaxSubsPerConnection v.arrived)
    (hreq : ∀ sub, .newSub sub ∈ v.arrived → sub.countOnly = false) : Lifecycle v ∧ Eosed v := by
  induction h with
  | init db cursor =>
    refine ⟨⟨le_rfl, fun k q hk => ?_, fun k _ => rfl, fun l hl => ⟨0, le_rfl, fun k hk => ?_⟩⟩,
      ⟨fun n _ => ⟨rfl, fun hin => hin⟩, fun k q hk => ?_, fun n sub hm => ?_, fun k w hk => ?_,
        fun n sub hn => ?_, fun n before x after he => ?_⟩⟩
    · cases hk
    · rw [List.prefix_nil.mp hl] at hk
      cases hk
    · cases hk
    · cases hm
    · cases hk
    · cases hn
    · replace he : [] = before ++ x :: after := he
      simp at he
  | @act v v' h ha ih =>
    obtain ⟨l, hl⟩ := ha.arrived
    rw [← hl] at hfits
    have hold : ∀ sub, MsgReqWorker.newSub sub ∈ v.arrived → sub.countOnly = false := by
      intro sub hin
      refine hreq sub ?_
      rw [← hl]
      exact List.mem_append_left _ hin
    obtain ⟨hlife, heose⟩ := ih hfits.of_append hold
    exact ⟨hlife.act h.held hfits.of_append hold ha, heose.act h.held hlife hfits.of_append hold ha⟩

end

end HandOff

end Strfry
