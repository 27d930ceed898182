import Strfry.PackedEventCodec
import Strfry.RelayServer

/-!
# Every EVENT is answered

An EVENT owes its client one OK.  The ingester sends it, or makes an AddEvent of the event, and
then the writer owes it; so along its way an OK that is owed is in one place at a time
(`Books.balance`).  It gets lost only where the writer drops the AddEvents of connections that
were closed, and these are gone for good since no connection id is used twice.

Hence the OKs of a connection answer different EVENTs of it, and when nothing is under way every
EVENT of a connection that is open has been answered (`each_event_answered`).
-/

namespace Strfry

/-- A value that comes from a text, or is put together from such values. -/
inductive FromText [TaoJson] : Json → Prop where
  | text (s : Bytes) (json : Json) (h : TaoJson.fromString s = some json) : FromText json
  | elem (l : List Json) (json : Json) (h : FromText (.array l)) (hin : json ∈ l) : FromText json
  | field (kvs : List (Bytes × Json)) (kv : Bytes × Json) (h : FromText (.object kvs)) (hin : kv ∈ kvs) :
      FromText kv.2
  | object (kvs : List (Bytes × Json)) (h : ∀ kv ∈ kvs, FromText kv.2) : FromText (.object kvs)

/-- What is written can be read. -/
def TaoJson.ReadsBack [TaoJson] : Prop :=
  ∀ json, FromText json → ∃ json', TaoJson.fromString (TaoJson.toString json) = some json'

section
variable [TaoJson]

theorem FromText.atKey {v v' : Json} {key : Bytes} (h : FromText v) (hv : v.atKey key = .ok v') : FromText v' := by
  unfold Json.atKey at hv
  split at hv
  · rename_i kvs
    cases hf : kvs.find? fun kv => kv.1 == key with
    | none =>
      rw [hf] at hv
      cases hv
    | some kv =>
      rw [hf] at hv
      cases hv
      exact .field kvs kv h (List.mem_of_find?_eq_some hf)
  · cases hv

theorem FromText.atKey_map {v : Json} {key : Bytes} {kv : Bytes × Json} (h : FromText v)
    (hkv : (v.atKey key).map (fun v => (key, v)) = .ok kv) : FromText kv.2 := by
  cases hv : v.atKey key with
  | error e =>
    rw [hv] at hkv
    cases hkv
  | ok v' =>
    rw [hv] at hkv
    cases hkv
    exact h.atKey hv

/-- The text of an accepted event can be read back. -/
theorem parseAndVerifyEvent_reads [Golpe] [Crypto] {cfg : Cfg} {now : Nat} {verifyMsg verifyTime : Bool} {origJson : Json}
    {p : Bytes × Bytes} (htao : TaoJson.ReadsBack) (hfrom : FromText origJson)
    (h : parseAndVerifyEvent cfg now verifyMsg verifyTime origJson = .ok p) : ∃ json, parseJson p.2 = .ok json := by
  have hfields : ∃ fields, p.2 = TaoJson.toString (.object fields) ∧ ∀ kv ∈ fields, FromText kv.2 := by
    unfold parseAndVerifyEvent at h
    split at h
    · obtain ⟨_, -, h⟩ := bind_eq_ok.mp h
      obtain ⟨_, -, h⟩ := bind_eq_ok.mp h
      cases verifyTime <;> cases verifyMsg <;>
      · simp only [Bool.false_eq_true, if_false, if_true] at h
        obtain ⟨_, -, h⟩ := bind_eq_ok.mp h
        obtain ⟨_, -, h⟩ := bind_eq_ok.mp h
        obtain ⟨fields, hf, h⟩ := bind_eq_ok.mp h
        obtain ⟨_, -, h⟩ := bind_eq_ok.mp h
        cases h
        refine ⟨fields, rfl, fun kv hkv => ?_⟩
        obtain ⟨key, -, hkey⟩ := (mapM_eq_ok hf).2 kv hkv
        exact hfrom.atKey_map hkey
    · cases h
  obtain ⟨fields, hp, hall⟩ := hfields
  obtain ⟨json, hjson⟩ := htao _ (.object fields hall)
  refine ⟨json, ?_⟩
  rw [hp]
  unfold parseJson
  rw [hjson]

end

namespace RelayServer

section
variable [Golpe] [TaoJson] [Crypto]

/-! ## What the ingester does with a message -/

/-- What an ingester makes of a message: the replies and what was collected for the writer. -/
inductive Handles (w : List MsgWriter) : MsgIngester → IngesterState → Prop where
  /-- an EVENT is answered at once -/
  | answered (m : MsgIngester) (origJson : Json) (id : Bytes) (written : Bool) (text : String) (what : Option Err)
      (st : IngesterState) (he : eventOf m = some origJson) (hid : Names origJson id)
      (hsent : st.sent = [.okResponse m.connId id written text what]) (hw : st.writerMsgs = w) : Handles w m st
  /-- it is collected for the writer -/
  | passed (m : MsgIngester) (origJson : Json) (packedStr jsonStr : Bytes) (st : IngesterState)
      (he : eventOf m = some origJson) (hid : Names origJson (toHex (packedStr.take 32)))
      (hwell : (MsgWriter.addEvent m.connId packedStr jsonStr).WellFormed) (hsent : st.sent = [])
      (hw : st.writerMsgs = w ++ [.addEvent m.connId packedStr jsonStr]) : Handles w m st
  /-- an event that cannot be named is answered with a NOTICE -/
  | unnamed (m : MsgIngester) (origJson : Json) (e e' : Err) (st : IngesterState) (he : eventOf m = some origJson)
      (hid : invalidId origJson = .error e) (hsent : st.sent = [.notice m.connId "bad msg: " e'])
      (hw : st.writerMsgs = w) : Handles w m st
  /-- any other message of a client -/
  | unrelated (m : MsgIngester) (st : IngesterState) (he : eventOf m = none)
      (hok : ∀ x ∈ st.sent, (∀ c id b t e, x ≠ .okResponse c id b t e) ∧ x.toWriter = []) (hw : st.writerMsgs = w) :
      Handles w m st
  | closed (k : Nat) (st : IngesterState)
      (hsent : st.sent = [.writer [.closeConn k], .reqWorker (.closeConn k), .negentropy (.closeConn k)])
      (hw : st.writerMsgs = w) : Handles w (.closeConn k) st

omit [TaoJson] [Crypto] in
theorem invalidId_names {origJson : Json} {id : Bytes} (h : invalidId origJson = .ok id) : Names origJson id := by
  refine Or.inl ?_
  unfold invalidId at h
  unfold replyId
  cases origJson with
  | object kvs =>
    simp only [Json.atKey, Json.find] at h ⊢
    cases hf : (kvs.find? fun kv => kv.1 == ascii "id").map Prod.snd with
    | none =>
      rw [hf] at h
      cases h
    | some v =>
      rw [hf] at h
      cases v
      all_goals
        cases h
        rfl
  | _ =>
    cases h
    rfl

/-- The id of an accepted event. -/
theorem parseAndVerifyEvent_names {cfg : Cfg} {now : Nat} {verifyMsg verifyTime : Bool} {origJson : Json}
    {p : Bytes × Bytes} (h : parseAndVerifyEvent cfg now verifyMsg verifyTime origJson = .ok p) :
    ∃ packed, PackedEventView.ofBytes p.1 = .ok packed ∧ packed.id = p.1.take 32 ∧ Names origJson (toHex packed.id) := by
  obtain ⟨view, hview, hbuf, -, hdec⟩ := nostrJsonToPackedEvent_decodes cfg (parseAndVerifyEvent_ok h).1
  obtain ⟨s, hs, hid⟩ := hdec.id
  exact ⟨view, hview, by rw [← hbuf]; rfl, Or.inr ⟨s, view.id, hs, fromHex_eq_ok.mpr hid, rfl⟩⟩

variable (cfg : IngesterCfg) (txn : Db) (tracker : EphemeralSubTracker) (now : Nat)

theorem ingesterProcessEvent_okResponse {origJson : Json} {id : Bytes} {written : Bool} {text : String}
    (h : ingesterProcessEvent cfg.toCfg txn tracker now origJson = .ok (.okResponse id written text)) :
    Names origJson id := by
  unfold ingesterProcessEvent at h
  obtain ⟨dropped, -, h⟩ := bind_eq_ok.mp h
  split at h
  · cases h
    exact Or.inl rfl
  · unfold ingesterVerifyEvent at h
    obtain ⟨p, hp, h⟩ := bind_eq_ok.mp h
    obtain ⟨packed, hpacked, h⟩ := bind_eq_ok.mp h
    obtain ⟨packed', hpacked', -, hnames⟩ := parseAndVerifyEvent_names hp
    rw [hpacked] at hpacked'
    cases hpacked'
    split at h
    · cases h
      exact hnames
    · split at h
      · cases h
        exact hnames
      · cases h

theorem ingesterProcessEvent_addEvent {origJson : Json} {packedStr jsonStr : Bytes} (htao : TaoJson.ReadsBack)
    (hfrom : FromText origJson)
    (h : ingesterProcessEvent cfg.toCfg txn tracker now origJson = .ok (.addEvent packedStr jsonStr)) (connId : Nat) :
    Names origJson (toHex (packedStr.take 32)) ∧ (MsgWriter.addEvent connId packedStr jsonStr).WellFormed := by
  unfold ingesterProcessEvent at h
  obtain ⟨dropped, -, h⟩ := bind_eq_ok.mp h
  split at h
  · cases h
  · unfold ingesterVerifyEvent at h
    obtain ⟨p, hp, h⟩ := bind_eq_ok.mp h
    obtain ⟨packed, hpacked, h⟩ := bind_eq_ok.mp h
    obtain ⟨packed', hpacked', hid, hnames⟩ := parseAndVerifyEvent_names hp
    rw [hpacked] at hpacked'
    cases hpacked'
    rw [hid] at hnames
    split at h
    · cases h
    · split at h
      · cases h
      · cases h
        exact ⟨hnames, ⟨packed, hpacked⟩, parseAndVerifyEvent_reads htao hfrom hp⟩

omit [Golpe] [TaoJson] [Crypto] in
@[simp] theorem sent_incClientMsg (st : IngesterState) (verb : Bytes) : (st.incClientMsg verb).sent = st.sent := rfl

omit [Golpe] [TaoJson] [Crypto] in
@[simp] theorem writerMsgs_incClientMsg (st : IngesterState) (verb : Bytes) :
    (st.incClientMsg verb).writerMsgs = st.writerMsgs := rfl

theorem sent_countKind (origJson : Json) (st : IngesterState) :
    (countKind cfg tracker now origJson st).sent = st.sent := by
  unfold countKind
  split
  · rfl
  · rfl

theorem writerMsgs_countKind (origJson : Json) (st : IngesterState) :
    (countKind cfg tracker now origJson st).writerMsgs = st.writerMsgs := by
  unfold countKind
  split
  · rfl
  · rfl

/-- An EVENT, from a state in which nothing was sent. -/
theorem runEvent_cases (htao : TaoJson.ReadsBack) {origJson : Json} (hfrom : FromText origJson) (connId : Nat)
    {st : IngesterState} (hst : st.sent = []) :
    let r := runEvent cfg txn tracker now connId origJson st
    (∃ id written text what, Names origJson id ∧ r.2 = none ∧ r.1.sent = [.okResponse connId id written text what] ∧
      r.1.writerMsgs = st.writerMsgs) ∨
    (∃ packedStr jsonStr, Names origJson (toHex (packedStr.take 32)) ∧
      (MsgWriter.addEvent connId packedStr jsonStr).WellFormed ∧ r.2 = none ∧ r.1.sent = [] ∧
      r.1.writerMsgs = st.writerMsgs ++ [.addEvent connId packedStr jsonStr]) ∨
    ∃ e, invalidId origJson = .error e ∧ r.2 = some e ∧ r.1.sent = [] ∧ r.1.writerMsgs = st.writerMsgs := by
  have hsent := (sent_countKind cfg tracker now origJson st).trans hst
  have hw := writerMsgs_countKind cfg tracker now origJson st
  unfold runEvent
  dsimp only
  generalize countKind cfg tracker now origJson st = st' at hsent hw
  cases hp : ingesterProcessEvent cfg.toCfg txn tracker now origJson with
  | ok res =>
    cases res with
    | okResponse id written text =>
      refine Or.inl ⟨id, written, text, none, ingesterProcessEvent_okResponse cfg txn tracker now hp, rfl, ?_, hw⟩
      show st'.sent ++ _ = _
      rw [hsent]
      rfl
    | addEvent packedStr jsonStr =>
      obtain ⟨hnames, hwell⟩ := ingesterProcessEvent_addEvent cfg txn tracker now htao hfrom hp connId
      refine Or.inr (Or.inl ⟨packedStr, jsonStr, hnames, hwell, rfl, hsent, ?_⟩)
      show st'.writerMsgs ++ _ = _
      rw [hw]
  | error e =>
    cases hid : invalidId origJson with
    | ok id =>
      refine Or.inl ⟨id, false, "invalid: ", some e, invalidId_names hid, rfl, ?_, hw⟩
      show st'.sent ++ _ = _
      rw [hsent]
      rfl
    | error e' => exact Or.inr (Or.inr ⟨e', rfl, rfl, hsent, hw⟩)

/-- Nothing was sent but what is no OK and not for the writer. -/
structure Quietly (st st' : IngesterState) : Prop where
  writerMsgs : st'.writerMsgs = st.writerMsgs
  sent : ∀ x ∈ st'.sent, x ∈ st.sent ∨ ((∀ c id b t e, x ≠ .okResponse c id b t e) ∧ x.toWriter = [])

namespace Quietly

variable {st st' : IngesterState}

omit [Golpe] [TaoJson] [Crypto] in
theorem refl (st : IngesterState) : Quietly st st := ⟨rfl, fun _ hx => Or.inl hx⟩

omit [Golpe] [TaoJson] [Crypto] in
theorem dispatch (h : Quietly st st') {x : IngesterSend} (hok : ∀ c id b t e, x ≠ .okResponse c id b t e)
    (hx : x.toWriter = []) : Quietly st (st'.dispatch x) := by
  refine ⟨h.writerMsgs, fun y hy => ?_⟩
  rcases List.mem_append.mp hy with hy | hy
  · exact h.sent y hy
  · rw [List.mem_singleton.mp hy]
    exact Or.inr ⟨hok, hx⟩

omit [Golpe] [TaoJson] [Crypto] in
theorem notice (h : Quietly st st') (connId : Nat) (text : String) (e : Err) :
    Quietly st (st'.sendNoticeError connId text e) :=
  (show Quietly st (st'.incRelayMsg .notice) from ⟨h.writerMsgs, h.sent⟩).dispatch (by simp) rfl

omit [Golpe] [TaoJson] [Crypto] in
theorem closed (h : Quietly st st') (connId : Nat) (subId : Bytes) (text : String) (e : Err) :
    Quietly st (st'.sendClosedError connId subId text e) :=
  (show Quietly st (st'.incRelayMsg .closed) from ⟨h.writerMsgs, h.sent⟩).dispatch (by simp) rfl

omit [Golpe] [TaoJson] [Crypto] in
theorem incClientMsg (st : IngesterState) (verb : Bytes) : Quietly st (st.incClientMsg verb) :=
  ⟨rfl, fun _ hx => Or.inl hx⟩

end Quietly

/-- Any other command. -/
theorem runCommand_quietly {cmd : Bytes} (hcmd : cmd ≠ ascii "EVENT") (connId : Nat) (second : Json) (arr : List Json)
    (st : IngesterState) : Quietly st (runCommand cfg txn tracker now connId cmd second arr st).1 := by
  have hq := Quietly.incClientMsg st cmd
  unfold runCommand
  rw [if_neg hcmd]
  split
  · split
    · exact hq.dispatch (by simp) rfl
    · split
      · exact hq.closed _ _ _ _
      · exact hq.notice _ _ _
  · split
    · split
      · exact hq.dispatch (by simp) rfl
      · exact hq.notice _ _ _
    · split
      · split
        · exact hq
        · split
          · exact hq.dispatch (by simp) rfl
          · exact hq.notice _ _ _
      · exact .refl st

omit [Golpe] [Crypto] in
theorem parseCommand_fromText {payload cmd : Bytes} {second : Json} {arr : List Json}
    (h : parseCommand payload = .ok (cmd, second, arr)) : FromText second := by
  unfold parseCommand at h
  obtain ⟨json, hjson, h⟩ := bind_eq_ok.mp h
  obtain ⟨l, hl, h⟩ := bind_eq_ok.mp h
  have hfrom : FromText (.array l) := by
    rw [← jsonGetArray_ok hl]
    cases hs : TaoJson.fromString payload with
    | none =>
      rw [hs] at hjson
      cases hjson
    | some v =>
      rw [hs] at hjson
      cases hjson
      exact .text payload json hs
  split at h
  · rename_i first v rest
    obtain ⟨c, -, h⟩ := bind_eq_ok.mp h
    cases h
    exact .elem _ _ hfrom (List.mem_cons_of_mem _ List.mem_cons_self)
  · cases h

omit [Crypto] in
theorem Handles.of_quietly {w : List MsgWriter} {m : MsgIngester} {st : IngesterState} (he : eventOf m = none)
    (h : Quietly { writerMsgs := w } st) : Handles w m st :=
  .unrelated m st he (fun x hx => (h.sent x hx).elim (fun h0 => absurd h0 List.not_mem_nil) id) h.writerMsgs

omit [Golpe] [Crypto] in
theorem eventOf_eq (connId : Nat) (payload : Bytes) : eventOf (.clientMessage connId payload) =
    if startsWith payload (ascii "[") then eventOfCommand (parseCommand payload) else none := rfl

/-- **What an ingester does with a message**, in five cases. -/
theorem ingest_handles (htao : TaoJson.ReadsBack) (w : List MsgWriter) (m : MsgIngester) :
    Handles w m (ingest cfg txn tracker now { writerMsgs := w } m) := by
  cases m with
  | closeConn connId => exact .closed connId _ rfl rfl
  | clientMessage connId payload =>
    have hq := Quietly.refl { writerMsgs := w }
    show Handles w _ (runPayload cfg txn tracker now connId payload { writerMsgs := w })
    unfold runPayload
    by_cases hbracket : startsWith payload (ascii "[") = true
    · rw [if_pos hbracket]
      cases hparse : parseCommand payload with
      | error e =>
        refine .of_quietly ?_ (hq.notice _ _ _)
        rw [eventOf_eq, if_pos hbracket, hparse]
        rfl
      | ok c =>
        obtain ⟨cmd, second, arr⟩ := c
        by_cases hcmd : cmd = ascii "EVENT"
        · have he : eventOf (.clientMessage connId payload) = some second := by
            rw [eventOf_eq, if_pos hbracket, hparse]
            exact if_pos hcmd
          have hrun : runCommand cfg txn tracker now connId cmd second arr { writerMsgs := w } =
              runEvent cfg txn tracker now connId second
                (IngesterState.incClientMsg { writerMsgs := w } cmd) := if_pos hcmd
          have hcases := runEvent_cases cfg txn tracker now htao (parseCommand_fromText hparse) connId
            (show (IngesterState.incClientMsg { writerMsgs := w } cmd).sent = [] from rfl)
          dsimp only
          rw [hrun]
          generalize runEvent cfg txn tracker now connId second _ = r at hcases
          obtain ⟨st, thrown⟩ := r
          rcases hcases with ⟨id, written, text, what, hid, rfl, hsent, hw⟩ |
            ⟨packedStr, jsonStr, hid, hwell, rfl, hsent, hw⟩ | ⟨e, hid, rfl, hsent, hw⟩
          · exact .answered _ second id written text what st he hid hsent hw
          · exact .passed _ second packedStr jsonStr st he hid hwell hsent hw
          · refine .unnamed _ second e e _ he hid ?_ hw
            show st.sent ++ _ = _
            rw [show st.sent = [] from hsent]
            rfl
        · have he : eventOf (.clientMessage connId payload) = none := by
            rw [eventOf_eq, if_pos hbracket, hparse]
            exact if_neg hcmd
          have hrun := runCommand_quietly cfg txn tracker now hcmd connId second arr { writerMsgs := w }
          dsimp only
          generalize runCommand cfg txn tracker now connId cmd second arr { writerMsgs := w } = r at hrun
          obtain ⟨st, thrown⟩ := r
          cases thrown with
          | none => exact .of_quietly he hrun
          | some e => exact .of_quietly he (hrun.notice connId "bad msg: " e)
    · have he : eventOf (.clientMessage connId payload) = none := by
        rw [eventOf_eq, if_neg hbracket]
      rw [if_neg hbracket]
      split
      · exact .of_quietly he hq
      · exact .of_quietly he (hq.notice _ _ _)

end

/-! ## What the writer does with a batch -/

section
variable [Golpe] [TaoJson] [StdSort] (policy : WritePolicy) (db : Db) (cache : NegentropyFilterCache)
  {newMsgs : List MsgWriter}

omit [Golpe] [StdSort] in
/-- Refused and accepted AddEvents are all there are. -/
theorem prepare_each (ms : List (MsgWriter × Nat)) (hms : ∀ m ∈ ms, m.1.WellFormed) : ∃ oks,
    prepare policy ms = .ok (acceptedOf policy ms, oks) ∧
    (oks.map OkResponse.addressee ++ (acceptedOf policy ms).map fun ev => addressOf ev.connId ev.packedStr).Perm
      ((ms.map Prod.fst).filterMap MsgWriter.addressee) := by
  induction ms with
  | nil => exact ⟨[], rfl, .refl _⟩
  | cons m ms ih =>
    obtain ⟨oks, hprep, hperm⟩ := ih fun m' hm' => hms m' (List.mem_cons_of_mem _ hm')
    obtain ⟨m, n⟩ := m
    cases m with
    | closeConn connId => exact ⟨oks, hprep, hperm⟩
    | addEvent connId packedStr jsonStr =>
      obtain ⟨hview, json, hjson⟩ := hms _ List.mem_cons_self
      by_cases hacc : accepts policy n = true
      · have hev : acceptedOf policy ((.addEvent connId packedStr jsonStr, n) :: ms) =
            { packedStr := packedStr, jsonStr := jsonStr, connId := connId } :: acceptedOf policy ms := by
          simp [acceptedOf, hacc]
        refine ⟨oks, ?_, ?_⟩
        · rw [hev]
          cases policy with
          | none =>
            simp only [prepare, hprep]
            rfl
          | some acceptEvent =>
            have hres : (acceptEvent n).1 = .accept := by simpa [accepts] using hacc
            simp only [prepare, hjson, hprep]
            exact if_pos hres
        · rw [hev]
          exact List.perm_middle.trans (hperm.cons _)
      · have hev : acceptedOf policy ((.addEvent connId packedStr jsonStr, n) :: ms) = acceptedOf policy ms := by
          simp [acceptedOf, hacc]
        cases policy with
        | none => exact absurd rfl hacc
        | some acceptEvent =>
          have hres : (acceptEvent n).1 ≠ .accept := by simpa [accepts] using hacc
          refine ⟨⟨connId, toHex (packedStr.take 32), (acceptEvent n).1 == .shadowReject,
            .plugin (acceptEvent n).2⟩ :: oks, ?_, ?_⟩
          · rw [hev]
            simp only [prepare, hjson, hprep, eventIdHex_ok hview]
            exact if_neg hres
          · rw [hev]
            exact hperm.cons _

/-- **The writer's turn** does not fail, and answers every AddEvent that it does not drop. -/
theorem runWriterTurn_each (hmsgs : ∀ m ∈ newMsgs, m.WellFormed) : ∃ r, runWriterTurn policy db cache newMsgs = .ok r ∧
    (r.oks.map OkResponse.addressee).Perm (addressees newMsgs) := by
  obtain ⟨oks, hprep, hperm⟩ := prepare_each policy (openMsgs newMsgs).zipIdx fun m hm =>
    hmsgs _ (mem_openMsgs (List.fst_mem_of_mem_zipIdx hm))
  rw [List.zipIdx_map_fst, openMsgs_addressees] at hperm
  have hprep : prepare policy (openMsgs newMsgs).zipIdx = .ok (accepted policy newMsgs, oks) := hprep
  have hperm : (oks.map OkResponse.addressee ++
    (accepted policy newMsgs).map fun ev => addressOf ev.connId ev.packedStr).Perm (addressees newMsgs) := hperm
  by_cases hnil : accepted policy newMsgs = []
  · refine ⟨_, runWriterTurn_idle hprep hnil, ?_⟩
    rw [hnil, List.map_nil, List.append_nil] at hperm
    exact hperm
  have hview : ∀ ev ∈ accepted policy newMsgs, ∃ v, PackedEventView.ofBytes ev.packedStr = .ok v :=
    fun ev hev => (hmsgs _ (mem_accepted hev).1).1
  obtain ⟨l, hl, hfst, -⟩ := viewBatch_total _ hview
  have hmem : ∀ e ∈ StdSort.sort batchLt l, e.1 ∈ accepted policy newMsgs := fun e he =>
    hfst ▸ List.mem_map.mpr ⟨e, (StdSort.mem_sort batchLt l e).mp he, rfl⟩
  -- the events in the order of the writes
  have hsorted : ((StdSort.sort batchLt l).map fun e => addressOf e.1.connId e.1.packedStr).Perm
      ((accepted policy newMsgs).map fun ev => addressOf ev.connId ev.packedStr) := by
    rw [← hfst, List.map_map]
    exact (StdSort.perm batchLt l).map _
  cases hfresh : cache.freshenCache db with
  | error e =>
    have herr : writeEvents db cache (accepted policy newMsgs) = .error e := by
      unfold writeEvents
      rw [hl, hfresh]
      rfl
    have heq : sortedEvents (accepted policy newMsgs) = (StdSort.sort batchLt l).map Prod.fst := by
      unfold sortedEvents
      rw [hl]
    refine ⟨_, runWriterTurn_error hprep hnil herr fun ev hev => ?_, ?_⟩
    · rw [heq] at hev
      obtain ⟨x, hx, rfl⟩ := List.mem_map.mp hev
      exact hview _ (hmem x hx)
    · rw [List.map_append, heq, List.map_map, List.map_map]
      exact (hsorted.append_left _).trans hperm
  | ok cache' =>
    obtain ⟨db', evs', hloop, hturns, hmap⟩ := writeLoop_turns cache' (StdSort.sort batchLt l)
      (fun e he => (mem_accepted (hmem e he)).2) db none
    have hok : writeEvents db cache (accepted policy newMsgs) = .ok (db', cache', evs') := by
      unfold writeEvents
      rw [hl, hfresh]
      show (writeLoop cache' db none (StdSort.sort batchLt l) >>= _) = _
      rw [hloop]
      rfl
    have hevs : evs'.map (fun ev => addressOf ev.connId ev.packedStr) =
        (StdSort.sort batchLt l).map fun e => addressOf e.1.connId e.1.packedStr := by
      have := congrArg (List.map fun p : Nat × Bytes => addressOf p.1 p.2) hturns.connIds
      rw [List.map_map, List.map_map] at this
      refine this.trans ?_
      conv_rhs => rw [← hmap, List.map_map]
      rfl
    refine ⟨_, runWriterTurn_ok hprep hnil hok fun ev hev => ?_, ?_⟩
    · obtain ⟨t, ht, hr⟩ := hturns.turn ev hev
      rw [hr.packedStr]
      refine hview _ (hmem (t.ev, t.packed) ?_)
      rw [← hmap]
      exact List.mem_map.mpr ⟨t, ht, rfl⟩
    · have hresp : (evs'.map fun ev => writeResponse ev ev.idHex).map OkResponse.addressee =
          evs'.map fun ev => addressOf ev.connId ev.packedStr := by
        rw [List.map_map]
        exact List.map_congr_left fun ev _ => writeResponse_addressee ev ev.idHex
      rw [List.map_append, hresp, hevs]
      exact (hsorted.append_left _).trans hperm

end

/-! ## The books -/

section
variable [Golpe] [TaoJson] {n : Nat} [NeZero n]

/-- What a message that was handled owes: one OK when it is an EVENT that can be named. -/
def Owes (x : MsgIngester × List (Nat × Bytes)) : Prop :=
  (∃ origJson id, eventOf x.1 = some origJson ∧ Names origJson id ∧ x.2 = [(x.1.connId, id)]) ∨
    (x.2 = [] ∧ ∀ origJson, eventOf x.1 = some origJson → ∃ e, invalidId origJson = .error e)

structure Books (s : RelayServer n) : Prop where
  inv : s.websocket.Inv
  fifo : Pool.Fifo MsgIngester.connId s.tpIngester s.log.dispatched s.log.taken
  handled : ∀ i, (s.log.handled i).map Prod.fst ++ s.turnMsgs i = s.log.taken i
  owes : ∀ i, ∀ x ∈ s.log.handled i, Owes x
  born : ∀ m ∈ s.log.dispatched, m.connId < s.websocket.nextConnectionId
  gone : ∀ k, .closeConn k ∈ s.log.dispatched → ∀ ws, ¬ s.websocket.Serves k ws
  /-- a CloseConn is the last message of its connection -/
  last : ∀ k a b, s.log.dispatched = a ++ .closeConn k :: b → ∀ m ∈ b, m.connId ≠ k
  inboxWell : ∀ m ∈ s.tpWriter 0, m.WellFormed
  turnWell : ∀ i, ∀ m ∈ s.turnWriterMsgs i, m.WellFormed ∧ ∃ x, m.addressee = some x ∧ Pool.who n x.1 = i
  closing : ∀ k, .closeConn k ∈ s.tpWriter 0 → .closeConn k ∈ s.log.dispatched
  lost : ∀ x ∈ s.log.dropped, .closeConn x.1 ∈ s.log.dispatched
  /-- an OK that is owed is in one place -/
  balance : ∀ k, (ofConn k ((s.log.handled (Pool.who n k)).flatMap Prod.snd)).Perm
    (ofConn k (s.log.posted.filterMap Reply.addressee ++ (s.underWay (Pool.who n k) ++ s.log.dropped)))
  popped : s.log.posted = s.log.popped ++ s.tpWebsocket 0
  sent : ∀ k ws, s.websocket.Serves k ws →
    (s.log.popped.filterMap (Reply.okFor k)).Sublist (s.log.sent.filter fun x => x.connId = k)

theorem Books.init (db : Db) : Books (n := n) { db := db } where
  inv := .init
  fifo := .empty
  handled _ := rfl
  owes _ := by simp
  born := by simp
  gone := by simp
  last := by simp
  inboxWell m hm := absurd hm List.not_mem_nil
  turnWell _ m hm := absurd hm List.not_mem_nil
  closing k hk := absurd hk List.not_mem_nil
  lost := by simp
  balance _ := .refl _
  popped := rfl
  sent _ _ _ := .refl _

variable {s : RelayServer n}

/-- An OK that was sent was owed for a message of its connection. -/
theorem Books.unborn (h : Books s) {k : Nat} (hk : s.websocket.nextConnectionId ≤ k) :
    s.log.posted.filterMap (Reply.okFor k) = [] := by
  refine List.filterMap_eq_nil_iff.mpr fun reply hreply => ?_
  cases reply with
  | ok connId id written message =>
    refine if_neg ?_
    rintro rfl
    have hin : (connId, id) ∈ ofConn connId (s.log.posted.filterMap Reply.addressee ++
        (s.underWay (Pool.who n connId) ++ s.log.dropped)) :=
      List.mem_filter.mpr ⟨List.mem_append_left _ (List.mem_filterMap.mpr ⟨_, hreply, rfl⟩), by simp⟩
    obtain ⟨hin, -⟩ := List.mem_filter.mp ((h.balance connId).mem_iff.mpr hin)
    obtain ⟨x, hx, hxin⟩ := List.mem_flatMap.mp hin
    -- the message that owes it was dispatched, so its connection is there
    have hdisp : x.1 ∈ s.log.dispatched := by
      refine (h.fifo.who_of_taken (i := Pool.who n connId) ?_).2
      rw [← h.handled]
      exact List.mem_append_left _ (List.mem_map.mpr ⟨x, hx, rfl⟩)
    rcases h.owes _ x hx with ⟨origJson, id', -, -, he⟩ | ⟨he, -⟩
    · rw [he] at hxin
      cases List.mem_singleton.mp hxin
      exact absurd (h.born _ hdisp) (Nat.not_lt.mpr hk)
    · rw [he] at hxin
      cases hxin
  | notice => rfl
  | closed => rfl
  | other => rfl

/-- The websocket thread is at another point. -/
theorem Books.websocket (h : Books s) {websocket : RelayWebsocket} (hinv : websocket.Inv)
    (hnext : s.websocket.nextConnectionId ≤ websocket.nextConnectionId)
    (hs : ∀ k ws, websocket.Serves k ws → s.websocket.Serves k ws ∨ s.websocket.nextConnectionId ≤ k) :
    Books { s with websocket := websocket } :=
  { h with
    inv := hinv
    born := fun m hm => (h.born m hm).trans_le hnext
    gone := fun k hk ws hserves => by
      rcases hs k ws hserves with hold | hnew
      · exact h.gone k hk ws hold
      · exact absurd (h.born _ hk) (Nat.not_lt.mpr hnew)
    sent := fun k ws hserves => by
      rcases hs k ws hserves with hold | hnew
      · exact h.sent k ws hold
      · have hnil := h.unborn hnew
        rw [h.popped, List.filterMap_append] at hnil
        show (s.log.popped.filterMap _).Sublist _
        rw [(List.append_eq_nil_iff.mp hnil).1]
        exact List.nil_sublist _ }

theorem Books.dispatch (h : Books s) (m : MsgIngester) (hborn : m.connId < s.websocket.nextConnectionId)
    (hopen : .closeConn m.connId ∉ s.log.dispatched)
    (hgone : ∀ k, m = .closeConn k → ∀ ws, ¬ s.websocket.Serves k ws) : Books (s.dispatchAll [m]) :=
  { h with
    fifo := h.fifo.dispatch m
    born := fun m' hm' => (List.mem_append.mp hm').elim (h.born m') fun hm' => List.mem_singleton.mp hm' ▸ hborn
    gone := fun k hk => (List.mem_append.mp hk).elim (h.gone k) fun hk => hgone k (List.mem_singleton.mp hk).symm
    last := fun k a b hab m' hm' hk => by
      -- the CloseConn was there before, and `m` is behind it
      have hab : s.log.dispatched ++ [m] = a ++ .closeConn k :: b := hab
      obtain ⟨b', rfl⟩ : ∃ b', b = b' ++ [m] := by
        rcases List.eq_nil_or_concat b with rfl | ⟨b', x, rfl⟩
        · cases hm'
        · refine ⟨b', ?_⟩
          rw [List.concat_eq_append, ← List.cons_append, ← List.append_assoc] at hab
          rw [List.concat_eq_append, (List.append_inj' hab rfl).2]
      rw [← List.cons_append, ← List.append_assoc] at hab
      have hold := (List.append_inj' hab rfl).1
      rcases List.mem_append.mp hm' with hm' | hm'
      · exact h.last k a b' hold m' hm' hk
      · rw [List.mem_singleton.mp hm'] at hk
        refine hopen ?_
        rw [hk, hold]
        exact List.mem_append_right _ List.mem_cons_self
    closing := fun k hk => List.mem_append_left _ (h.closing k hk)
    lost := fun x hx => List.mem_append_left _ (h.lost x hx) }

/-- **A callback of the hub.** -/
theorem Books.callback (h : Books s) {e : WebsocketEvent} {websocket : RelayWebsocket} {out : WebsocketOut}
    (he : ∀ newMsgs, e ≠ .asyncCb newMsgs) (ha : s.websocket.Allowed e)
    (hs : s.websocket.step e = .ok (websocket, out)) :
    Books (dispatchAll { s with websocket := websocket } out.dispatched) := by
  obtain ⟨hinv, hdoes⟩ := h.inv.step ha hs
  cases hdoes with
  | connection ws p s' hfree hserves hnext =>
    refine h.websocket hinv (by omega) fun k ws' hk => ?_
    rcases (hserves k ws').mp hk with hk | ⟨rfl, -⟩
    · exact Or.inl hk
    · exact Or.inr le_rfl
  | disconnection ws k s' hk hserves hnext =>
    have hb := h.websocket hinv hnext.ge fun k' ws' hk' => Or.inl ((hserves k' ws').mp hk').1
    refine hb.dispatch (.closeConn k) ?_ ?_ ?_
    · exact (h.inv.serves_lt hk).trans_eq hnext.symm
    · exact fun hin => h.gone k hin ws hk
    · rintro k' ⟨⟩ ws' hk'
      exact ((hserves _ ws').mp hk').2 rfl
  | message ws k text hk =>
    refine h.dispatch (.clientMessage k text) (h.inv.serves_lt hk) (fun hin => h.gone k hin ws hk) ?_
    rintro k' ⟨⟩
  | async newMsgs => exact absurd rfl (he newMsgs)

omit [Golpe] in
/-- The OKs among the replies for a connection. -/
theorem okFor_sublist (k : Nat) (replies : List Reply) : (replies.filterMap (Reply.okFor k)).Sublist
    (((replies.map Reply.msg).flatMap MsgWebsocket.addressed).filter fun x => x.connId = k) := by
  induction replies with
  | nil => exact .refl _
  | cons reply replies ih =>
    rw [List.map_cons, List.flatMap_cons, List.filter_append]
    cases reply with
    | ok connId id written message =>
      by_cases hk : connId = k
      · subst hk
        have hok : Reply.okFor connId (.ok connId id written message) = some ⟨connId, TaoJson.toString
            (.array [.string (ascii "OK"), .string id, .bool written, .string message]), .text⟩ := if_pos rfl
        rw [List.filterMap_cons_some hok]
        refine List.Sublist.append (?_ : ([_] : List Sent).Sublist _) ih
        simp [Reply.msg, RelaySender.sendOKResponse, MsgWebsocket.addressed, MsgWebsocket.sent, doSend]
      · have hok : Reply.okFor k (.ok connId id written message) = none := if_neg hk
        rw [List.filterMap_cons_none hok]
        exact ih.trans (List.sublist_append_right _ _)
    | notice => exact ih.trans (List.sublist_append_right _ _)
    | closed => exact ih.trans (List.sublist_append_right _ _)
    | other => exact ih.trans (List.sublist_append_right _ _)

/-- **The websocket thread** takes the replies. -/
theorem Books.async (h : Books s) {websocket : RelayWebsocket} {out : WebsocketOut}
    (hs : s.websocket.step (.asyncCb ((s.tpWebsocket 0).map Reply.msg)) = .ok (websocket, out)) :
    Books { s with
      websocket := websocket
      tpWebsocket := (s.tpWebsocket.takeAll 0).2
      log.popped := s.log.popped ++ s.tpWebsocket 0
      log.sent := s.log.sent ++ (((s.tpWebsocket 0).map Reply.msg).flatMap MsgWebsocket.addressed).filter
        fun x => (s.websocket.frameOf x).isSome } := by
  obtain ⟨hinv, hdoes⟩ := h.inv.step (e := .asyncCb ((s.tpWebsocket 0).map Reply.msg)) trivial hs
  cases hdoes with
  | async newMsgs s' hserves hnext =>
    have hb := h.websocket hinv hnext.ge fun k ws hk => Or.inl ((hserves k ws).mp hk)
    refine { hb with popped := ?_, sent := fun k ws hk => ?_ }
    · show s.log.posted = s.log.popped ++ s.tpWebsocket 0 ++ (s.tpWebsocket.takeAll 0).2 0
      rw [Pool.takeAll_apply, if_pos rfl, List.append_nil]
      exact h.popped
    · show ((s.log.popped ++ s.tpWebsocket 0).filterMap _).Sublist ((s.log.sent ++ _).filter _)
      rw [List.filterMap_append, List.filter_append]
      refine List.Sublist.append (h.sent k ws ((hserves k ws).mp hk)) ((okFor_sublist k _).trans ?_)
      rw [List.filter_filter]
      refine (List.filter_congr fun x _ => ?_) ▸ List.Sublist.refl _
      by_cases hx : x.connId = k
      · have hf : (s.websocket.frameOf x).isSome = true := by
          rw [RelayWebsocket.frameOf, hx, h.inv.socketOf_eq.mpr ((hserves k ws).mp hk)]
          rfl
        rw [hf, Bool.and_true]
      · simp [hx]

omit [Golpe] [TaoJson] [NeZero n] in
theorem elim_update {β : Type} (f : Fin n → Option IngesterTurn) (i j : Fin n) (t : Option IngesterTurn)
    (g : IngesterTurn → List β) : (Function.update f i t j).elim [] g = if j = i then t.elim [] g else (f j).elim [] g := by
  by_cases hj : j = i
  · subst hj
    rw [Function.update_self, if_pos rfl]
  · rw [Function.update_of_ne hj, if_neg hj]

omit [Golpe] [TaoJson] [NeZero n] in
theorem ofConn_append (k : Nat) (l l' : List (Nat × Bytes)) : ofConn k (l ++ l') = ofConn k l ++ ofConn k l' :=
  List.filter_append ..

omit [Golpe] [TaoJson] in
/-- What is for the connections of another ingester. -/
theorem ofConn_other {k : Nat} {i : Fin n} {l : List (Nat × Bytes)} (hl : ∀ x ∈ l, Pool.who n x.1 = i)
    (hk : Pool.who n k ≠ i) : ofConn k l = [] := by
  refine List.filter_eq_nil_iff.mpr fun x hx hxk => hk ?_
  rw [← hl x hx, of_decide_eq_true hxk]

/-- **An ingester wakes** and takes what is in its inbox. -/
theorem Books.wake (h : Books s) (i : Fin n) (hidle : s.ingesters i = none) : Books { s with
    tpIngester := (s.tpIngester.takeAll i).2
    ingesters := Function.update s.ingesters i (some { newMsgs := s.tpIngester i, txn := s.db })
    log.taken := Function.update s.log.taken i (s.log.taken i ++ s.tpIngester i) } := by
  have hw : ∀ j, turnWriterMsgs { s with
      ingesters := Function.update s.ingesters i (some { newMsgs := s.tpIngester i, txn := s.db }) } j =
        s.turnWriterMsgs j := by
    intro j
    refine (elim_update ..).trans ?_
    by_cases hj : j = i
    · rw [if_pos hj, turnWriterMsgs, hj, hidle]
      rfl
    · rw [if_neg hj]
      rfl
  refine { h with fifo := h.fifo.takeAll i, handled := fun j => ?_, turnWell := fun j m hm => ?_, balance := fun k => ?_ }
  · show (s.log.handled j).map Prod.fst ++ (Function.update s.ingesters i
      (some { newMsgs := s.tpIngester i, txn := s.db }) j).elim [] IngesterTurn.newMsgs =
        Function.update s.log.taken i (s.log.taken i ++ s.tpIngester i) j
    rw [elim_update]
    by_cases hj : j = i
    · subst hj
      rw [if_pos rfl, Function.update_self, ← h.handled j, turnMsgs, hidle]
      simp
    · rw [if_neg hj, Function.update_of_ne hj]
      exact h.handled j
  · refine h.turnWell j m ?_
    rw [← hw j]
    exact hm
  · have := h.balance k
    unfold underWay at this ⊢
    rw [← hw] at this
    exact this

/-- **A turn ends**: what was collected goes to the writer. -/
theorem Books.turnEnd (h : Books s) {i : Fin n} {turn : IngesterTurn} (hturn : s.ingesters i = some turn)
    (hmsgs : turn.newMsgs = []) : Books { s with
      tpWriter := s.tpWriter.dispatchMulti 0 turn.writerMsgs
      ingesters := Function.update s.ingesters i none } := by
  have hwi : s.turnWriterMsgs i = turn.writerMsgs := by
    unfold turnWriterMsgs
    rw [hturn]
    rfl
  have hw : ∀ j, turnWriterMsgs { s with ingesters := Function.update s.ingesters i none } j =
      if j = i then [] else s.turnWriterMsgs j := fun j => elim_update ..
  have hcollected : ∀ m ∈ turn.writerMsgs, m.WellFormed ∧ ∃ x, m.addressee = some x ∧ Pool.who n x.1 = i := by
    rw [← hwi]
    exact h.turnWell i
  refine { h with
    handled := fun j => ?_
    inboxWell := fun m hm => ?_
    turnWell := fun j m hm => ?_
    closing := fun k hk => ?_
    balance := fun k => ?_ }
  · show (s.log.handled j).map Prod.fst ++ (Function.update s.ingesters i none j).elim [] _ = _
    rw [elim_update, ← h.handled j]
    by_cases hj : j = i
    · subst hj
      rw [if_pos rfl, turnMsgs, hturn]
      exact congrArg (_ ++ ·) hmsgs.symm
    · rw [if_neg hj]
      rfl
  · have hm : m ∈ s.tpWriter.dispatchMulti 0 turn.writerMsgs 0 := hm
    rw [Pool.dispatchMulti_one] at hm
    exact (List.mem_append.mp hm).elim (h.inboxWell m) fun hm => (hcollected m hm).1
  · have hm : m ∈ if j = i then [] else s.turnWriterMsgs j := hw j ▸ hm
    split at hm
    · cases hm
    · exact h.turnWell j m hm
  · have hk : .closeConn k ∈ s.tpWriter.dispatchMulti 0 turn.writerMsgs 0 := hk
    rw [Pool.dispatchMulti_one] at hk
    rcases List.mem_append.mp hk with hk | hk
    · exact h.closing k hk
    · obtain ⟨x, hx, -⟩ := (hcollected _ hk).2
      cases hx
  · have hb := h.balance k
    show (ofConn k _).Perm (ofConn k (_ ++ ((_ ++ ((s.tpWriter.dispatchMulti 0 turn.writerMsgs 0).filterMap _ ++
      (turnWriterMsgs { s with ingesters := Function.update s.ingesters i none } (Pool.who n k)).filterMap _)) ++ _)))
    rw [Pool.dispatchMulti_one, hw, List.filterMap_append]
    unfold underWay at hb
    by_cases hk : Pool.who n k = i
    · rw [if_pos hk, List.filterMap_nil, List.append_nil]
      rw [hk, hwi] at hb
      rw [hk]
      exact hb
    · have hnil : ofConn k (turn.writerMsgs.filterMap MsgWriter.addressee) = [] := by
        refine ofConn_other (fun x hx => ?_) hk
        obtain ⟨m, hm, hx⟩ := List.mem_filterMap.mp hx
        obtain ⟨y, hy, hwho⟩ := (hcollected m hm).2
        rw [hx] at hy
        cases hy
        exact hwho
      rw [if_neg hk]
      simp only [ofConn_append, hnil, List.append_nil] at hb ⊢
      exact hb

/-- A message is handled, with these replies, these messages for the writer and this collected. -/
theorem Books.handle (h : Books s) {i : Fin n} {turn : IngesterTurn} {m : MsgIngester} {rest : List MsgIngester}
    (hturn : s.ingesters i = some turn) (hmsgs : turn.newMsgs = m :: rest) (replies : List Reply)
    (toWriter new : List MsgWriter) (o : List (Nat × Bytes)) (howes : Owes (m, o))
    (ho : o = replies.filterMap Reply.addressee ++ new.filterMap MsgWriter.addressee)
    (hnew : ∀ x ∈ new, x.WellFormed ∧ ∃ y, x.addressee = some y)
    (hto : ∀ x ∈ toWriter, ∃ k, x = .closeConn k ∧ m = .closeConn k) : Books { s.post replies with
      tpWriter := s.tpWriter.dispatchMulti m.connId toWriter
      ingesters := Function.update s.ingesters i
        (some { turn with newMsgs := rest, writerMsgs := turn.writerMsgs ++ new })
      log.handled := Function.update s.log.handled i (s.log.handled i ++ [(m, o)]) } := by
  have hwi : s.turnWriterMsgs i = turn.writerMsgs := by
    unfold turnWriterMsgs
    rw [hturn]
    rfl
  have hw : ∀ j, turnWriterMsgs { s with
      ingesters := Function.update s.ingesters i (some ⟨rest, turn.txn, turn.writerMsgs ++ new⟩) } j =
        if j = i then turn.writerMsgs ++ new else s.turnWriterMsgs j := fun j => elim_update ..
  -- the message is one of this ingester's, and so is what it owes
  have hmine : m ∈ s.log.taken i := by
    rw [← h.handled i, turnMsgs, hturn]
    refine List.mem_append_right _ ?_
    show m ∈ turn.newMsgs
    rw [hmsgs]
    exact List.mem_cons_self
  obtain ⟨hwho, hdisp⟩ := h.fifo.who_of_taken hmine
  have howho : ∀ x ∈ o, Pool.who n x.1 = i := by
    intro x hx
    rcases howes with ⟨origJson, id, -, -, he⟩ | ⟨he, -⟩
    · rw [show o = _ from he] at hx
      rw [List.mem_singleton.mp hx]
      exact hwho
    · rw [show o = _ from he] at hx
      cases hx
  refine { h with
    handled := fun j => ?_
    owes := fun j x hx => ?_
    inboxWell := fun x hx => ?_
    turnWell := fun j x hx => ?_
    closing := fun k hk => ?_
    balance := fun k => ?_
    popped := ?_ }
  · show (Function.update s.log.handled i (s.log.handled i ++ [(m, o)]) j).map Prod.fst ++ (Function.update s.ingesters i
      (some ⟨rest, turn.txn, turn.writerMsgs ++ new⟩) j).elim [] IngesterTurn.newMsgs = s.log.taken j
    rw [elim_update, ← h.handled j]
    by_cases hj : j = i
    · subst hj
      rw [if_pos rfl, Function.update_self, List.map_append, List.append_assoc, turnMsgs, hturn]
      exact congrArg (_ ++ ·) hmsgs.symm
    · rw [if_neg hj, Function.update_of_ne hj]
      rfl
  · have hx : x ∈ Function.update s.log.handled i (s.log.handled i ++ [(m, o)]) j := hx
    by_cases hj : j = i
    · subst hj
      rw [Function.update_self] at hx
      exact (List.mem_append.mp hx).elim (h.owes j x) fun hx => List.mem_singleton.mp hx ▸ howes
    · rw [Function.update_of_ne hj] at hx
      exact h.owes j x hx
  · have hx : x ∈ s.tpWriter.dispatchMulti m.connId toWriter 0 := hx
    rw [Pool.dispatchMulti_one] at hx
    rcases List.mem_append.mp hx with hx | hx
    · exact h.inboxWell x hx
    · obtain ⟨k, rfl, -⟩ := hto x hx
      trivial
  · have hx : x ∈ if j = i then turn.writerMsgs ++ new else s.turnWriterMsgs j := hw j ▸ hx
    by_cases hj : j = i
    · rw [if_pos hj] at hx
      rcases List.mem_append.mp hx with hx | hx
      · rw [← hwi, ← hj] at hx
        exact h.turnWell j x hx
      · obtain ⟨hwell, y, hy⟩ := hnew x hx
        refine ⟨hwell, y, hy, hj.symm ▸ howho y ?_⟩
        rw [ho]
        exact List.mem_append_right _ (List.mem_filterMap.mpr ⟨x, hx, hy⟩)
    · rw [if_neg hj] at hx
      exact h.turnWell j x hx
  · have hk : .closeConn k ∈ s.tpWriter.dispatchMulti m.connId toWriter 0 := hk
    rw [Pool.dispatchMulti_one] at hk
    rcases List.mem_append.mp hk with hk | hk
    · exact h.closing k hk
    · obtain ⟨k', hkk, hm⟩ := hto _ hk
      cases hkk
      rw [hm] at hdisp
      exact hdisp
  · have hb := h.balance k
    have hto' : toWriter.filterMap MsgWriter.addressee = [] := by
      refine List.filterMap_eq_nil_iff.mpr fun x hx => ?_
      obtain ⟨k', rfl, -⟩ := hto x hx
      rfl
    show (ofConn k ((Function.update s.log.handled i (s.log.handled i ++ [(m, o)]) (Pool.who n k)).flatMap _)).Perm
      (ofConn k ((s.log.posted ++ replies).filterMap _ ++ ((s.answering.filterMap _ ++
        ((s.tpWriter.dispatchMulti m.connId toWriter 0).filterMap _ ++ (turnWriterMsgs { s with
          ingesters := Function.update s.ingesters i (some ⟨rest, turn.txn, turn.writerMsgs ++ new⟩) }
            (Pool.who n k)).filterMap _)) ++ s.log.dropped)))
    rw [Pool.dispatchMulti_one, hw, List.filterMap_append, List.filterMap_append, hto', List.append_nil]
    unfold underWay at hb
    by_cases hk : Pool.who n k = i
    · rw [hk, hwi] at hb
      rw [hk, if_pos rfl, Function.update_self, List.flatMap_append, List.filterMap_append]
      simp only [List.flatMap_cons, List.flatMap_nil, List.append_nil]
      rw [ho]
      simp only [ofConn_append] at hb ⊢
      rw [List.perm_iff_count] at hb ⊢
      intro x
      have := hb x
      simp only [List.count_append] at this ⊢
      omega
    · have hnil := ofConn_other (k := k) howho hk
      rw [ho, ofConn_append, List.append_eq_nil_iff] at hnil
      rw [if_neg hk, Function.update_of_ne hk]
      simp only [ofConn_append, hnil.1, List.append_nil] at hb ⊢
      exact hb
  · show s.log.posted ++ replies = s.log.popped ++ s.tpWebsocket.dispatchMulti 0 replies 0
    rw [Pool.dispatchMulti_one, ← List.append_assoc, h.popped]

/-- **A message** is handled. -/
theorem Books.ingest [What] (h : Books s) {i : Fin n} {turn : IngesterTurn} {m : MsgIngester} {rest : List MsgIngester}
    (hturn : s.ingesters i = some turn) (hmsgs : turn.newMsgs = m :: rest) {st : IngesterState}
    (hst : Handles turn.writerMsgs m st) : Books { s.post (st.sent.filterMap IngesterSend.reply) with
      tpWriter := s.tpWriter.dispatchMulti m.connId (st.sent.flatMap IngesterSend.toWriter)
      ingesters := Function.update s.ingesters i (some { turn with newMsgs := rest, writerMsgs := st.writerMsgs })
      log.handled := Function.update s.log.handled i (s.log.handled i ++ [(m, owed turn.writerMsgs st)]) } := by
  cases hst with
  | answered m origJson id written text what st he hid hsent hw =>
    have ho : owed turn.writerMsgs st = [(m.connId, id)] := by
      unfold owed
      rw [hsent, hw, List.drop_length]
      rfl
    have := h.handle hturn hmsgs (st.sent.filterMap IngesterSend.reply) [] [] (owed turn.writerMsgs st)
      (Or.inl ⟨origJson, id, he, hid, ho⟩)
      (by rw [ho, hsent]; rfl) (by simp) (by simp)
    rw [List.append_nil] at this
    rw [hw]
    rw [show st.sent.flatMap IngesterSend.toWriter = [] by rw [hsent]; rfl]
    exact this
  | passed m origJson packedStr jsonStr st he hid hwell hsent hw =>
    have ho : owed turn.writerMsgs st = [(m.connId, toHex (packedStr.take 32))] := by
      unfold owed
      rw [hsent, hw, List.drop_left]
      rfl
    have := h.handle hturn hmsgs [] [] [.addEvent m.connId packedStr jsonStr] (owed turn.writerMsgs st)
      (Or.inl ⟨origJson, _, he, hid, ho⟩) ho
      (fun x hx => List.mem_singleton.mp hx ▸ ⟨hwell, _, rfl⟩) (by simp)
    rw [hw, hsent]
    exact this
  | unnamed m origJson e e' st he hid hsent hw =>
    have ho : owed turn.writerMsgs st = [] := by
      unfold owed
      rw [hsent, hw, List.drop_length]
      rfl
    have := h.handle hturn hmsgs (st.sent.filterMap IngesterSend.reply) [] [] (owed turn.writerMsgs st)
      (Or.inr ⟨ho, fun origJson' he' => ⟨e, by rw [he] at he'; cases he'; exact hid⟩⟩)
      (by rw [ho, hsent]; rfl) (by simp) (by simp)
    rw [List.append_nil] at this
    rw [hw]
    rw [show st.sent.flatMap IngesterSend.toWriter = [] by rw [hsent]; rfl]
    exact this
  | unrelated m st he hok hw =>
    have hnone : (st.sent.filterMap IngesterSend.reply).filterMap Reply.addressee = [] := by
      refine List.filterMap_eq_nil_iff.mpr fun reply hreply => ?_
      obtain ⟨x, hx, hr⟩ := List.mem_filterMap.mp hreply
      cases x with
      | okResponse c id b t e => exact absurd rfl ((hok _ hx).1 c id b t e)
      | closed =>
        cases hr
        rfl
      | notice =>
        cases hr
        rfl
      | writer => cases hr
      | reqWorker => cases hr
      | negentropy => cases hr
    have ho : owed turn.writerMsgs st = [] := by
      unfold owed
      rw [hnone, hw, List.drop_length]
      rfl
    have := h.handle hturn hmsgs (st.sent.filterMap IngesterSend.reply) [] [] (owed turn.writerMsgs st)
      (Or.inr ⟨ho, fun origJson' he' => by rw [he] at he'; cases he'⟩)
      (by rw [ho, hnone]; rfl) (by simp) (by simp)
    rw [List.append_nil] at this
    rw [hw]
    rw [List.flatMap_eq_nil_iff.mpr fun x hx => (hok x hx).2]
    exact this
  | closed k st hsent hw =>
    have ho : owed turn.writerMsgs st = [] := by
      unfold owed
      rw [hsent, hw, List.drop_length]
      rfl
    have := h.handle hturn hmsgs [] [.closeConn k] [] (owed turn.writerMsgs st)
      (Or.inr ⟨ho, fun origJson' he' => by cases he'⟩)
      (by rw [ho]; rfl) (by simp) (fun x hx => ⟨k, List.mem_singleton.mp hx, rfl⟩)
    rw [List.append_nil] at this
    rw [hw, hsent]
    exact this

omit [Golpe] [TaoJson] [NeZero n] in
/-- The AddEvents of the connections that are not closed. -/
theorem filterMap_addressee_filter (closed : List Nat) {p : MsgWriter → Bool}
    (hadd : ∀ connId packedStr jsonStr, p (.addEvent connId packedStr jsonStr) = decide (connId ∉ closed))
    (hclose : ∀ connId, p (.closeConn connId) = false) (l : List MsgWriter) :
    (l.filter p).filterMap MsgWriter.addressee =
      (l.filterMap MsgWriter.addressee).filter fun x => !decide (x.1 ∈ closed) := by
  induction l with
  | nil => rfl
  | cons m l ih =>
    cases m with
    | closeConn k =>
      rw [List.filter_cons_of_neg (by simp [hclose])]
      exact ih
    | addEvent connId packedStr jsonStr =>
      have hm : MsgWriter.addressee (.addEvent connId packedStr jsonStr) = some (addressOf connId packedStr) := rfl
      rw [List.filterMap_cons_some hm]
      by_cases hc : connId ∈ closed
      · rw [List.filter_cons_of_neg (by simp [hadd, hc]), List.filter_cons_of_neg (by simp [addressOf, hc])]
        exact ih
      · rw [List.filter_cons_of_pos (by simp [hadd, hc]), List.filter_cons_of_pos (by simp [addressOf, hc]),
          List.filterMap_cons_some hm, ih]

omit [Golpe] [TaoJson] [NeZero n] in
/-- The AddEvents of a batch: those that are answered, and those that are dropped. -/
theorem addressees_dropped (batch : List MsgWriter) :
    (addressees batch ++ droppedOf batch).Perm (batch.filterMap MsgWriter.addressee) := by
  unfold addressees droppedOf
  rw [filterMap_addressee_filter (closedConns batch) (fun _ _ _ => rfl) (fun _ => rfl)]
  exact List.perm_append_comm.trans (List.filter_append_perm _ _)

/-- **A batch of the writer.** -/
theorem Books.writerTurn [What] (h : Books s) {r : WriterTurn} (hidle : s.answering = [])
    (hr : (r.oks.map OkResponse.addressee).Perm (addressees (s.tpWriter 0))) : Books { s with
      tpWriter := (s.tpWriter.takeAll 0).2
      answering := r.oks.map OkResponse.reply
      db := r.db
      log.dropped := s.log.dropped ++ droppedOf (s.tpWriter 0) } := by
  have hempty : (s.tpWriter.takeAll 0).2 0 = [] := by rw [Pool.takeAll_apply, if_pos rfl]
  refine { h with inboxWell := fun m hm => ?_, closing := fun k hk => ?_, lost := fun x hx => ?_, balance := fun k => ?_ }
  · have hm : m ∈ (s.tpWriter.takeAll 0).2 0 := hm
    rw [hempty] at hm
    cases hm
  · have hk : .closeConn k ∈ (s.tpWriter.takeAll 0).2 0 := hk
    rw [hempty] at hk
    cases hk
  · rcases List.mem_append.mp hx with hx | hx
    · exact h.lost x hx
    · obtain ⟨m, hm, he⟩ := List.mem_filterMap.mp (of_decide_eq_true (List.mem_filter.mp hx).2)
      cases m with
      | addEvent => cases he
      | closeConn k =>
        cases he
        exact h.closing _ hm
  · have hb := h.balance k
    have hanswers : (r.oks.map OkResponse.reply).filterMap Reply.addressee = r.oks.map OkResponse.addressee := by
      rw [List.filterMap_map, ← List.filterMap_eq_map]
      rfl
    have hperm := ((hr.append_right (droppedOf (s.tpWriter 0))).trans (addressees_dropped _)).filter fun x => x.1 = k
    show (ofConn k ((s.log.handled (Pool.who n k)).flatMap _)).Perm (ofConn k (s.log.posted.filterMap _ ++
      (((r.oks.map OkResponse.reply).filterMap _ ++ (((s.tpWriter.takeAll 0).2 0).filterMap _ ++
        (s.turnWriterMsgs (Pool.who n k)).filterMap _)) ++ (s.log.dropped ++ droppedOf (s.tpWriter 0)))))
    rw [hempty, hanswers, List.filterMap_nil, List.nil_append]
    unfold underWay at hb
    rw [hidle, List.filterMap_nil, List.nil_append] at hb
    rw [List.filter_append] at hperm
    simp only [ofConn_append] at hb ⊢
    rw [List.perm_iff_count] at hb ⊢ hperm
    intro x
    have hx := hb x
    have hy := hperm x
    simp only [List.count_append] at hx hy ⊢
    unfold ofConn at hx ⊢
    omega

/-- **The writer sends an answer**, or another thread something else. -/
theorem Books.post (h : Books s) (replies answering : List Reply)
    (ha : s.answering.filterMap Reply.addressee =
      replies.filterMap Reply.addressee ++ answering.filterMap Reply.addressee) :
    Books { s.post replies with answering := answering } := by
  refine { h with balance := fun k => ?_, popped := ?_ }
  · have hb := h.balance k
    show (ofConn k ((s.log.handled (Pool.who n k)).flatMap _)).Perm (ofConn k ((s.log.posted ++ replies).filterMap _ ++
      ((answering.filterMap _ ++ ((s.tpWriter 0).filterMap _ ++ (s.turnWriterMsgs (Pool.who n k)).filterMap _)) ++
        s.log.dropped)))
    unfold underWay at hb
    rw [ha] at hb
    rw [List.filterMap_append, List.append_assoc]
    simpa only [List.append_assoc] using hb
  · show s.log.posted ++ replies = s.log.popped ++ s.tpWebsocket.dispatchMulti 0 replies 0
    rw [Pool.dispatchMulti_one, ← List.append_assoc, h.popped]

end

/-! ## Runs -/

section
variable [Golpe] [TaoJson] [Crypto] [StdSort] [What] {cfg : IngesterCfg} {n : Nat} [NeZero n] {s s' : RelayServer n}

theorem Books.step (htao : TaoJson.ReadsBack) (h : Books s) (hs : Step cfg s s') : Books s' := by
  cases hs with
  | callback e websocket out hex he ha hstep => exact h.callback he ha hstep
  | async replies tpWebsocket websocket out hex htake hstep =>
    cases htake
    exact h.async hstep
  | ingesterWake i newMsgs tpIngester hidle htake =>
    cases htake
    exact h.wake i hidle
  | ingesterMsg i turn newMsg rest tracker now st hturn hmsgs hst =>
    rw [hst]
    exact h.ingest hturn hmsgs (ingest_handles cfg turn.txn tracker now htao _ _)
  | ingesterEnd i turn hturn hmsgs => exact h.turnEnd hturn hmsgs
  | writerTurn policy cache newMsgs tpWriter r hidle htake hrun =>
    cases htake
    obtain ⟨r', hr', hperm⟩ := runWriterTurn_each policy s.db cache h.inboxWell
    have hrun : runWriterTurn policy s.db cache (s.tpWriter 0) = .ok r := hrun
    rw [hrun] at hr'
    cases hr'
    exact h.writerTurn hidle hperm
  | writerSend reply rest hanswering =>
    refine h.post [reply] rest ?_
    rw [hanswering, ← List.singleton_append, List.filterMap_append]
  | other msg => exact h.post [.other msg] s.answering rfl
  | commit db => exact { h with }

theorem Reached.books (htao : TaoJson.ReadsBack) (h : Reached cfg s) : Books s := by
  induction h with
  | init db => exact .init db
  | step _ hs ih => exact ih.step htao hs

/-- **The messages of a connection** are handled by one ingester, in the order they came in, and none
comes behind the CloseConn. -/
theorem ingested_in_order (htao : TaoJson.ReadsBack) (h : Reached cfg s) (k : Nat) :
    ((((s.log.handled (Pool.who n k)).map Prod.fst ++ s.turnMsgs (Pool.who n k) ++
      s.tpIngester (Pool.who n k)).filter fun m => m.connId = k) = s.log.dispatched.filter fun m => m.connId = k) ∧
    (∀ i ≠ Pool.who n k, ∀ x ∈ s.log.handled i, x.1.connId ≠ k) ∧
    ∀ a b, s.log.dispatched = a ++ .closeConn k :: b → ∀ m ∈ b, m.connId ≠ k := by
  have hb := h.books htao
  refine ⟨?_, fun i hi x hx hxk => hi ?_, hb.last k⟩
  · rw [hb.handled, List.filter_append]
    exact hb.fifo.stream k
  · have htaken : x.1 ∈ s.log.taken i := by
      rw [← hb.handled]
      exact List.mem_append_left _ (List.mem_map.mpr ⟨x, hx, rfl⟩)
    rw [← (hb.fifo.who_of_taken htaken).1, hxk]

/-! ## The answers to one connection -/

/-- An EVENT with an id that can be read. -/
def named (origJson : Json) : Bool := okAnd (fun _ => true) (invalidId origJson)

/-- The EVENTs of a connection with the ids of their OKs. -/
def answersOf (k : Nat) (hs : List (MsgIngester × List (Nat × Bytes))) : List (Json × Bytes) :=
  (hs.filter fun x => x.1.connId = k).flatMap fun x =>
    (eventOf x.1).toList.flatMap fun origJson => x.2.map fun y => (origJson, y.2)

omit [Crypto] [StdSort] [What] in
theorem answersOf_spec (k : Nat) {hs : List (MsgIngester × List (Nat × Bytes))} (hall : ∀ x ∈ hs, Owes x) :
    (answersOf k hs).map Prod.snd = (ofConn k (hs.flatMap Prod.snd)).map Prod.snd ∧
    ((answersOf k hs).map Prod.fst).Sublist (((hs.map Prod.fst).filter fun m => m.connId = k).filterMap eventOf) ∧
    ((((hs.map Prod.fst).filter fun m => m.connId = k).filterMap eventOf).filter named).Sublist
      ((answersOf k hs).map Prod.fst) ∧
    ∀ x ∈ answersOf k hs, Names x.1 x.2 := by
  induction hs with
  | nil => exact ⟨rfl, .refl _, .refl _, by simp [answersOf]⟩
  | cons x hs ih =>
    obtain ⟨hsnd, hfst, hnamed, hnames⟩ := ih fun y hy => hall y (List.mem_cons_of_mem _ hy)
    obtain ⟨m, o⟩ := x
    rw [List.flatMap_cons, ofConn_append, List.map_append, List.map_cons]
    rcases hall _ List.mem_cons_self with ⟨origJson, id, he, hid, ho⟩ | ⟨ho, hbad⟩
    · have he : eventOf m = some origJson := he
      have ho : o = [(m.connId, id)] := ho
      by_cases hk : m.connId = k
      · have hcons : answersOf k ((m, o) :: hs) = (origJson, id) :: answersOf k hs := by
          unfold answersOf
          rw [List.filter_cons_of_pos (by simpa using hk), List.flatMap_cons, he, ho]
          rfl
        have hof : ofConn k o = [(k, id)] := by
          rw [ho, hk]
          exact List.filter_cons_of_pos (by simp)
        rw [hcons, hof, List.filter_cons_of_pos (by simpa using hk), List.filterMap_cons_some he]
        refine ⟨congrArg (id :: ·) hsnd, hfst.cons_cons _, ?_, ?_⟩
        · cases hn : named origJson with
          | true =>
            rw [List.filter_cons_of_pos hn]
            exact hnamed.cons_cons _
          | false =>
            rw [List.filter_cons_of_neg (by rw [hn]; decide)]
            exact hnamed.cons _
        · intro y hy
          rcases List.mem_cons.mp hy with rfl | hy
          · exact hid
          · exact hnames y hy
      · have hskip : answersOf k ((m, o) :: hs) = answersOf k hs := by
          unfold answersOf
          rw [List.filter_cons_of_neg (by simpa using hk)]
        have hof : ofConn k o = [] := by
          rw [ho]
          exact List.filter_cons_of_neg (by simpa using hk)
        rw [hskip, hof, List.filter_cons_of_neg (by simpa using hk)]
        exact ⟨hsnd, hfst, hnamed, hnames⟩
    · have ho : o = [] := ho
      have hskip : answersOf k ((m, o) :: hs) = answersOf k hs := by
        unfold answersOf
        rw [ho]
        by_cases hk : m.connId = k
        · rw [List.filter_cons_of_pos (by simpa using hk), List.flatMap_cons]
          simp
        · rw [List.filter_cons_of_neg (by simpa using hk)]
      rw [hskip, ho]
      refine ⟨hsnd, ?_, ?_, hnames⟩
      · exact hfst.trans (((List.sublist_cons_self m _).filter _).filterMap _)
      · -- an EVENT that owes nothing cannot be named
        have hsame : (((m :: hs.map Prod.fst).filter fun m => m.connId = k).filterMap eventOf).filter named =
            (((hs.map Prod.fst).filter fun m => m.connId = k).filterMap eventOf).filter named := ?_
        · rw [hsame]
          exact hnamed
        by_cases hk : m.connId = k
        · rw [List.filter_cons_of_pos (by simpa using hk)]
          cases he : eventOf m with
          | none => rw [List.filterMap_cons_none he]
          | some origJson =>
            obtain ⟨e, hid⟩ := hbad origJson he
            have hno : named origJson = false := by
              unfold named
              rw [hid]
              rfl
            rw [List.filterMap_cons_some he, List.filter_cons_of_neg (by rw [hno]; decide)]
        · rw [List.filter_cons_of_neg (by simpa using hk)]

omit [Golpe] [TaoJson] [Crypto] [StdSort] [What] in
/-- A rearrangement of the values is one of the entries. -/
theorem exists_perm_of_map {α β : Type} {f : α → β} {l : List α} {r : List β} (h : r.Perm (l.map f)) :
    ∃ l' : List α, l'.Perm l ∧ l'.map f = r := by
  have hall : List.Forall₂ (fun b a => b = f a) (l.map f) l :=
    List.forall₂_map_left_iff.mpr (List.forall₂_same.mpr fun _ _ => rfl)
  obtain ⟨l', hl', hperm⟩ := List.perm_comp_forall₂ h hall
  have heq : List.Forall₂ Eq r (l'.map f) := List.forall₂_map_right_iff.mpr hl'
  rw [List.forall₂_eq_eq_eq] at heq
  exact ⟨l', hperm, heq.symm⟩

/-- **Every EVENT is answered.**  The OKs of a connection answer different EVENTs of it, each by its
name; when nothing is under way, every EVENT that can be named has its OK if the connection is open,
and what was taken by the websocket thread was sent.  The writer fails on no batch. -/
theorem each_event_answered (htao : TaoJson.ReadsBack) (h : Reached cfg s) (k : Nat) :
    (∃ l : List (Json × Bytes), l.map Prod.snd = s.oksTo k ∧ (l.map Prod.fst).Subperm (s.eventsFrom k) ∧
      (∀ x ∈ l, Names x.1 x.2) ∧ (s.Settled → (∃ ws, s.websocket.Serves k ws) →
        ((s.eventsFrom k).filter named).Subperm (l.map Prod.fst))) ∧
    (∀ ws, s.websocket.Serves k ws → s.tpWebsocket 0 = [] →
      (s.log.posted.filterMap (Reply.okFor k)).Sublist (s.log.sent.filter fun x => x.connId = k)) ∧
    ∀ policy cache, ∃ r, runWriterTurn policy s.db cache (s.tpWriter 0) = .ok r := by
  have hb := h.books htao
  refine ⟨?_, ?_, ?_⟩
  · obtain ⟨hsnd, hfst, hnamed, hnames⟩ := answersOf_spec k (hb.owes (Pool.who n k))
    have hbal := (hb.balance k).map Prod.snd
    rw [← hsnd, ofConn_append, List.map_append] at hbal
    obtain ⟨l, hl, hlsnd⟩ := exists_perm_of_map hbal.symm
    -- the entries whose OKs were sent, and those under way
    obtain ⟨l1, l2, rfl, hl1, hl2⟩ := List.map_eq_append_iff.mp hlsnd
    have hfst1 : (l1.map Prod.fst).Subperm ((answersOf k (s.log.handled (Pool.who n k))).map Prod.fst) :=
      ((List.sublist_append_left l1 l2).map Prod.fst).subperm.trans (hl.map Prod.fst).subperm
    have hstream := (ingested_in_order htao h k).1
    have hevents : ((((s.log.handled (Pool.who n k)).map Prod.fst).filter fun m => m.connId = k).filterMap
        eventOf).Sublist (s.eventsFrom k) := by
      unfold eventsFrom
      rw [← hstream, List.append_assoc]
      exact ((List.sublist_append_left _ _).filter _).filterMap _
    refine ⟨l1, hl1, hfst1.trans (hfst.trans hevents).subperm,
      fun x hx => hnames x (hl.subset (List.mem_append_left _ hx)), fun hsettled hopen => ?_⟩
    obtain ⟨ws, hws⟩ := hopen
    obtain ⟨hidle, hwriter, hanswering⟩ := hsettled
    obtain ⟨hinbox, hturn⟩ := hidle (Pool.who n k)
    have hl2nil : l2 = [] := by
      refine List.map_eq_nil_iff.mp (hl2.trans (List.map_eq_nil_iff.mpr (List.filter_eq_nil_iff.mpr ?_)))
      intro x hx hxk
      have hx : x ∈ s.log.dropped := by
        unfold underWay turnWriterMsgs at hx
        rw [hanswering, hwriter, hturn] at hx
        simpa using hx
      rw [← of_decide_eq_true hxk] at hws
      exact hb.gone _ (hb.lost x hx) ws hws
    rw [hl2nil, List.append_nil] at hl
    refine (List.Sublist.subperm ?_).trans (hl.map Prod.fst).symm.subperm
    have hall : s.eventsFrom k =
        (((s.log.handled (Pool.who n k)).map Prod.fst).filter fun m => m.connId = k).filterMap eventOf := by
      unfold eventsFrom
      rw [← hstream, turnMsgs, hturn, hinbox, Option.elim_none, List.append_nil, List.append_nil]
    rw [hall]
    exact hnamed
  · intro ws hws hempty
    rw [hb.popped, hempty, List.append_nil]
    exact hb.sent k ws hws
  · intro policy cache
    obtain ⟨r, hr, -⟩ := runWriterTurn_each policy s.db cache hb.inboxWell
    exact ⟨r, hr⟩

end

/-! ## A client with an invalid event -/

/-- A JSON library that knows one message, and writes the answer to it. -/
@[reducible] def oneEventJson : TaoJson where
  fromString b := if b = ascii "[\"EVENT\",1]" then some (.array [.string (ascii "EVENT"), .unsigned 1]) else some .null
  toString
    | .array [.string a, .string b, .bool c, .string d] => ascii "[\"" ++ a ++ ascii "\",\"" ++ b ++ ascii "\"," ++
        ascii (if c then "true" else "false") ++ ascii ",\"" ++ d ++ ascii "\"]"
    | _ => ascii "null"

theorem oneEventJson_readsBack : @TaoJson.ReadsBack oneEventJson := by
  intro json _
  by_cases hb : oneEventJson.toString json = ascii "[\"EVENT\",1]"
  · exact ⟨_, if_pos hb⟩
  · exact ⟨_, if_neg hb⟩

@[reducible] def noCrypto : Crypto where
  sha256 _ := []
  parsePubkey _ := false
  schnorrVerify _ _ _ := false

@[reducible] def herrText : What where
  what
    | .herr msg => ascii msg
    | _ => []

theorem oneEvent_reached : ∃ s : RelayServer 1,
    @Reached Golpe.plain oneEventJson noCrypto StdSort.insertion herrText {} 1 _ s ∧ s.oksTo 1 = [ascii "?"] := by
  let _ : Golpe := Golpe.plain
  let _ : TaoJson := oneEventJson
  let _ : Crypto := noCrypto
  let _ : StdSort := StdSort.insertion
  let _ : What := herrText
  have h0 : Reached {} (n := 1) { db := {} } := .init {}
  have h1 := h0.step (.callback (.onConnection 5 7) _ _ rfl (by simp) ⟨rfl, rfl⟩ rfl)
  have h2 := h1.step (.callback (.onMessage2 5 (ascii "[\"EVENT\",1]")) _ _ rfl (by simp) (Option.some_ne_none 7) rfl)
  have h3 := h2.step (.ingesterWake 0 _ _ rfl rfl)
  have h4 := h3.step (.ingesterMsg 0 _ _ _ {} 0 _ rfl rfl rfl)
  exact ⟨_, h4, by decide +kernel⟩

/-- The event is answered, by the name of one that has none. -/
theorem each_event_answered_one : ∃ s : RelayServer 1, ∃ l : List (Json × Bytes), l.map Prod.snd = [ascii "?"] ∧
    (l.map Prod.fst).Subperm (@eventsFrom 1 oneEventJson s 1) := by
  obtain ⟨s, hs, hoks⟩ := oneEvent_reached
  obtain ⟨⟨l, hl, hsub, -⟩, -, -⟩ := @each_event_answered Golpe.plain oneEventJson noCrypto StdSort.insertion herrText {} 1 _ s
    oneEventJson_readsBack hs 1
  exact ⟨s, l, hl.trans hoks, hsub⟩

/-- Its message went to the only ingester. -/
theorem ingested_in_order_one : ∃ s : RelayServer 1, s.oksTo 1 = [ascii "?"] ∧
    (((s.log.handled 0).map Prod.fst ++ s.turnMsgs 0 ++ s.tpIngester 0).filter fun m => m.connId = 1) =
      s.log.dispatched.filter fun m => m.connId = 1 := by
  obtain ⟨s, hs, hoks⟩ := oneEvent_reached
  exact ⟨s, hoks, (@ingested_in_order Golpe.plain oneEventJson noCrypto StdSort.insertion herrText {} 1 _ s
    oneEventJson_readsBack hs 1).1⟩

end RelayServer

end Strfry
