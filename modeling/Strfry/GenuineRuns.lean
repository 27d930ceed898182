import Strfry.Genuine
import Strfry.RelayServerSpec
import Strfry.WriterPipeline

/-!
# What is served is signed

Events that were verified go through the inboxes of the threads and the batches of the writers before
they are stored, next to whatever other processes do to the database, and may be compressed and
decompressed before they are served to whoever asks.

Every event the relay stores is served genuine (`RelayServer.served_genuine`), and so is what `import`,
`stream`, `sync` and `router` store (`WriterPipeline.stores_genuine`).
-/

namespace Strfry

/-! ## The relay -/

section
variable [Golpe] [TaoJson] [Crypto] {cfg : IngesterCfg}

/-- What is for the writer comes from a verified event. -/
def MsgWriter.Verified (cfg : Cfg) : MsgWriter → Prop
  | .addEvent _ packedStr jsonStr => Strfry.Verified cfg packedStr jsonStr
  | .closeConn _ => True

/-- An ingester makes an AddEvent of a verified event only. -/
theorem ingesterProcessEvent_verified {txn : Db} {tracker : EphemeralSubTracker} {now : Nat} {origJson : Json}
    {packedStr jsonStr : Bytes}
    (h : ingesterProcessEvent cfg.toCfg txn tracker now origJson = .ok (.addEvent packedStr jsonStr)) :
    Verified cfg.toCfg packedStr jsonStr := by
  unfold ingesterProcessEvent at h
  obtain ⟨dropped, -, h⟩ := bind_eq_ok.mp h
  split at h
  · cases h
  · unfold ingesterVerifyEvent at h
    obtain ⟨p, hp, h⟩ := bind_eq_ok.mp h
    obtain ⟨packed, -, h⟩ := bind_eq_ok.mp h
    split at h
    · cases h
    · split at h
      · cases h
      · cases h
        exact ⟨now, true, origJson, hp⟩

/-- What was collected for the writer or sent to it. -/
def IngesterState.forWriter (st : IngesterState) : List MsgWriter :=
  st.writerMsgs ++ st.sent.flatMap IngesterSend.toWriter

/-- What is new for the writer comes from verified events. -/
def IngesterState.Vouches (cfg : Cfg) (st st' : IngesterState) : Prop :=
  ∀ m ∈ st'.forWriter, m ∈ st.forWriter ∨ m.Verified cfg

namespace IngesterState.Vouches

variable {st st' st'' : IngesterState}

theorem trans (h : Vouches cfg.toCfg st st') (h' : Vouches cfg.toCfg st' st'') : Vouches cfg.toCfg st st'' :=
  fun m hm => (h' m hm).elim (h m) Or.inr

theorem of_eq (h : st'.forWriter = st.forWriter) : Vouches cfg.toCfg st st' := fun _ hm => Or.inl (h ▸ hm)

theorem dispatch (st : IngesterState) (msg : IngesterSend) (h : ∀ m ∈ msg.toWriter, m.Verified cfg.toCfg) :
    Vouches cfg.toCfg st (st.dispatch msg) := by
  intro m hm
  unfold forWriter IngesterState.dispatch at hm
  rw [List.flatMap_append, List.flatMap_singleton, ← List.append_assoc] at hm
  exact (List.mem_append.mp hm).imp id (h m)

theorem of_quietly (h : RelayServer.Quietly st st') : Vouches cfg.toCfg st st' := by
  intro m hm
  refine Or.inl ?_
  unfold forWriter at hm ⊢
  rw [h.writerMsgs] at hm
  rcases List.mem_append.mp hm with hm | hm
  · exact List.mem_append_left _ hm
  · obtain ⟨x, hx, hm⟩ := List.mem_flatMap.mp hm
    rcases h.sent x hx with hx | ⟨-, hnil⟩
    · exact List.mem_append_right _ (List.mem_flatMap.mpr ⟨x, hx, hm⟩)
    · rw [hnil] at hm
      cases hm

end IngesterState.Vouches

open IngesterState in
theorem runEvent_vouches (txn : Db) (tracker : EphemeralSubTracker) (now connId : Nat) (origJson : Json)
    (st : IngesterState) : Vouches cfg.toCfg st (runEvent cfg txn tracker now connId origJson st).1 := by
  have hcount : Vouches cfg.toCfg st (countKind cfg tracker now origJson st) := by
    refine .of_eq ?_
    unfold forWriter
    rw [RelayServer.sent_countKind, RelayServer.writerMsgs_countKind]
  refine hcount.trans ?_
  unfold runEvent
  dsimp only
  generalize countKind cfg tracker now origJson st = st
  have hok : ∀ id written text what, Vouches cfg.toCfg st (st.sendOKResponse connId id written text what) :=
    fun id written text what => .dispatch (st.incRelayMsg .ok) _ (by simp [IngesterSend.toWriter])
  cases hp : ingesterProcessEvent cfg.toCfg txn tracker now origJson with
  | ok res =>
    cases res with
    | okResponse id written text => exact hok id written text none
    | addEvent packedStr jsonStr =>
      intro m hm
      have hm : m ∈ (st.writerMsgs ++ [.addEvent connId packedStr jsonStr]) ++ st.sent.flatMap IngesterSend.toWriter := hm
      rw [List.append_assoc] at hm
      rcases List.mem_append.mp hm with hm | hm
      · exact Or.inl (List.mem_append_left _ hm)
      · rcases List.mem_cons.mp hm with rfl | hm
        · exact Or.inr (ingesterProcessEvent_verified hp)
        · exact Or.inl (List.mem_append_right _ hm)
  | error e =>
    cases invalidId origJson with
    | ok id => exact hok id false "invalid: " (some e)
    | error e' => exact .of_eq rfl

open IngesterState in
/-- **An ingester** has nothing for the writer but verified events and closed connections. -/
theorem ingest_vouches (txn : Db) (tracker : EphemeralSubTracker) (now : Nat) (st : IngesterState) (m : MsgIngester) :
    Vouches cfg.toCfg st (ingest cfg txn tracker now st m) := by
  cases m with
  | closeConn connId =>
    have h1 : Vouches cfg.toCfg st (st.dispatch (.writer [.closeConn connId])) :=
      .dispatch st _ fun m hm => by rw [List.mem_singleton.mp hm]; trivial
    have h2 := h1.trans (.dispatch _ (.reqWorker (.closeConn connId)) (by simp [IngesterSend.toWriter]))
    exact h2.trans (.dispatch _ (.negentropy (.closeConn connId)) (by simp [IngesterSend.toWriter]))
  | clientMessage connId payload =>
    have hnotice : ∀ (st : IngesterState) (e : Err), Vouches cfg.toCfg st (st.sendNoticeError connId "bad msg: " e) :=
      fun st e => .of_quietly ((RelayServer.Quietly.refl st).notice connId "bad msg: " e)
    show Vouches cfg.toCfg st (runPayload cfg txn tracker now connId payload st)
    unfold runPayload
    split
    · cases hparse : parseCommand payload with
      | error e => exact hnotice st e
      | ok c =>
        obtain ⟨cmd, second, arr⟩ := c
        have hrun : Vouches cfg.toCfg st (runCommand cfg txn tracker now connId cmd second arr st).1 := by
          by_cases hcmd : cmd = ascii "EVENT"
          · unfold runCommand
            rw [if_pos hcmd]
            exact (Vouches.of_quietly (.incClientMsg st cmd)).trans (runEvent_vouches txn tracker now connId second _)
          · exact .of_quietly (RelayServer.runCommand_quietly cfg txn tracker now hcmd connId second arr st)
        dsimp only
        generalize runCommand cfg txn tracker now connId cmd second arr st = r at hrun
        obtain ⟨st', thrown⟩ := r
        cases thrown with
        | none => exact hrun
        | some e => exact hrun.trans (hnotice st' e)
    · split
      · exact .of_eq rfl
      · exact hnotice st _

end

/-- What is prepared is what the plugin accepts. -/
theorem prepare_eq [TaoJson] {policy : WritePolicy} {ms : List (MsgWriter × Nat)} {newEvents : List EventToWrite}
    {oks : List OkResponse} (h : prepare policy ms = .ok (newEvents, oks)) : newEvents = acceptedOf policy ms := by
  induction ms generalizing newEvents oks with
  | nil =>
    cases h
    rfl
  | cons m ms ih =>
    obtain ⟨m, n⟩ := m
    cases m with
    | closeConn connId => exact ih h
    | addEvent connId packedStr jsonStr =>
      cases policy with
      | none =>
        obtain ⟨⟨evs, oks'⟩, hrest, h⟩ := bind_eq_ok.mp h
        cases h
        rw [ih hrest]
        rfl
      | some acceptEvent =>
        obtain ⟨_, -, h⟩ := bind_eq_ok.mp h
        by_cases hacc : (acceptEvent n).1 = .accept
        · simp only [hacc, if_true] at h
          obtain ⟨⟨evs, oks'⟩, hrest, h⟩ := bind_eq_ok.mp h
          cases h
          rw [ih hrest]
          simp [acceptedOf, accepts, hacc]
        · simp only [hacc, if_false] at h
          obtain ⟨id, -, h⟩ := bind_eq_ok.mp h
          obtain ⟨⟨evs, oks'⟩, hrest, h⟩ := bind_eq_ok.mp h
          cases h
          rw [ih hrest]
          simp [acceptedOf, accepts, hacc]

/-- A batch of the writer changes the database by `writeEvents`, if at all. -/
theorem runWriterTurn_writes [Golpe] [TaoJson] [StdSort] {policy : WritePolicy} {db : Db}
    {cache : NegentropyFilterCache} {newMsgs : List MsgWriter} {r : WriterTurn}
    (h : runWriterTurn policy db cache newMsgs = .ok r) : r.db = db ∨
      ∃ cache' evs', writeEvents db cache (accepted policy newMsgs) = .ok (r.db, cache', evs') := by
  unfold runWriterTurn at h
  obtain ⟨⟨newEvents, oks⟩, hprep, h⟩ := bind_eq_ok.mp h
  have hevs : newEvents = accepted policy newMsgs := prepare_eq hprep
  dsimp only at h
  split at h
  · cases h
    exact Or.inl rfl
  · cases hw : writeEvents db cache newEvents with
    | error e =>
      rw [hw] at h
      obtain ⟨_, -, h⟩ := bind_eq_ok.mp h
      cases h
      exact Or.inl rfl
    | ok res =>
      obtain ⟨db', cache', evs'⟩ := res
      rw [hw] at h
      obtain ⟨_, -, h⟩ := bind_eq_ok.mp h
      obtain ⟨_, -, h⟩ := bind_eq_ok.mp h
      cases h
      exact Or.inr ⟨cache', evs', hevs ▸ hw⟩

namespace RelayServer

section
variable [Golpe] [TaoJson] [Crypto] [StdSort] [What] [Zstd] {cfg : IngesterCfg} {n : Nat} [NeZero n]
  {s s' : RelayServer n}

/-- A step that changes nothing but the database is housekeeping. -/
def Tended (cfg : IngesterCfg) (s s' : RelayServer n) : Prop :=
  s' = { s with db := s'.db } → s'.db = s.db ∨ Housekeeping cfg.toCfg (Genuine cfg.toCfg) s.db s'.db

/-- The runs of the relay from a database without events, other processes doing housekeeping. -/
inductive Tidy (cfg : IngesterCfg) : RelayServer n → Prop where
  | init (db : Db) (hevent : db.event = .empty) (hpayload : db.eventPayload = .empty) : Tidy cfg { db := db }
  | step {s s' : RelayServer n} (h : Tidy cfg s) (hs : Step cfg s s') (ht : Tended cfg s s') : Tidy cfg s'

/-- What is on its way to the writer is verified, what is stored genuine. -/
structure Vouched (cfg : IngesterCfg) (s : RelayServer n) : Prop where
  inbox : ∀ m ∈ s.tpWriter 0, m.Verified cfg.toCfg
  collected : ∀ i, ∀ m ∈ s.turnWriterMsgs i, m.Verified cfg.toCfg
  store : StoresTexts cfg.toCfg (Genuine cfg.toCfg) s.db

omit [Golpe] [TaoJson] [Crypto] [StdSort] [What] [Zstd] in
theorem dispatchAll_frame (s : RelayServer n) (ms : List MsgIngester) : (s.dispatchAll ms).tpWriter = s.tpWriter ∧
    (s.dispatchAll ms).ingesters = s.ingesters ∧ (s.dispatchAll ms).db = s.db := by
  induction ms generalizing s with
  | nil => exact ⟨rfl, rfl, rfl⟩
  | cons m ms ih => exact ih { s with
      tpIngester := s.tpIngester.dispatch m.connId m
      log.dispatched := s.log.dispatched ++ [m] }

omit [StdSort] [What] [NeZero n] in
/-- The writer's inbox, one ingester and the database may have changed. -/
theorem Vouched.update (h : Vouched cfg s) {i : Fin n} {turn : Option IngesterTurn}
    (hing : s'.ingesters = Function.update s.ingesters i turn)
    (hturn : ∀ m ∈ turn.elim [] IngesterTurn.writerMsgs, m.Verified cfg.toCfg)
    (hinbox : ∀ m ∈ s'.tpWriter 0, m.Verified cfg.toCfg) (hdb : s'.db = s.db) : Vouched cfg s' := by
  refine ⟨hinbox, fun j m hm => ?_, hdb ▸ h.store⟩
  unfold turnWriterMsgs at hm
  rw [hing, elim_update] at hm
  split at hm
  · exact hturn m hm
  · exact h.collected j m hm

omit [StdSort] [What] [NeZero n] in
theorem Vouched.turn (h : Vouched cfg s) {i : Fin n} {turn : IngesterTurn} (hturn : s.ingesters i = some turn) :
    ∀ m ∈ turn.writerMsgs, m.Verified cfg.toCfg := by
  have hi := h.collected i
  unfold turnWriterMsgs at hi
  rw [hturn] at hi
  exact hi

omit [StdSort] [What] [NeZero n] in
/-- What an ingester passes on joins what is in the inbox. -/
theorem Vouched.dispatch (h : Vouched cfg s) (key : Nat) {ms : List MsgWriter}
    (hms : ∀ m ∈ ms, m.Verified cfg.toCfg) : ∀ m ∈ s.tpWriter.dispatchMulti key ms 0, m.Verified cfg.toCfg := by
  intro m hm
  rw [Pool.dispatchMulti_one] at hm
  exact (List.mem_append.mp hm).elim (h.inbox m) (hms m)

omit [What] [NeZero n] in
/-- **A batch of the writer** stores verified events. -/
theorem Vouched.writerTurn (h : Vouched cfg s) {policy : WritePolicy} {cache : NegentropyFilterCache}
    {r : WriterTurn} (hrun : runWriterTurn policy s.db cache (s.tpWriter 0) = .ok r) :
    StoresTexts cfg.toCfg (Genuine cfg.toCfg) r.db := by
  obtain ⟨json, hstore⟩ := h.store
  rcases runWriterTurn_writes hrun with heq | ⟨cache', evs', hw⟩
  · exact ⟨json, heq ▸ hstore⟩
  · refine ⟨_, hstore.writeEvents (fun ev hev => ?_) hw⟩
    obtain ⟨hin, hpend⟩ := mem_accepted hev
    exact ⟨hpend, fun packed hpacked => (h.inbox _ hin).genuine hpacked⟩

/-- **A step** lets nothing else in. -/
theorem Vouched.step (hz : Zstd.Lawful) (h : Vouched cfg s) (hs : Step cfg s s') (ht : Tended cfg s s') :
    Vouched cfg s' := by
  cases hs with
  | callback e websocket out hex he ha hstep =>
    obtain ⟨hw, hi, hdb⟩ := dispatchAll_frame { s with websocket := websocket } out.dispatched
    refine ⟨?_, fun i m hm => h.collected i m ?_, ?_⟩
    · rw [hw]
      exact h.inbox
    · unfold turnWriterMsgs at hm
      rw [hi] at hm
      exact hm
    · rw [hdb]
      exact h.store
  | async replies tpWebsocket websocket out hex htake hstep => exact ⟨h.inbox, h.collected, h.store⟩
  | ingesterWake i newMsgs tpIngester hidle htake => exact h.update rfl (by simp) h.inbox rfl
  | ingesterMsg i turn newMsg rest tracker now st hturn hmsgs hst =>
    have hall : ∀ m ∈ st.forWriter, m.Verified cfg.toCfg := by
      intro m hm
      rw [hst] at hm
      refine (ingest_vouches turn.txn tracker now _ newMsg m hm).elim (fun hm => h.turn hturn m ?_) id
      simpa [IngesterState.forWriter] using hm
    refine h.update rfl (fun m hm => hall m (List.mem_append_left _ hm)) ?_ rfl
    exact h.dispatch newMsg.connId fun m hm => hall m (List.mem_append_right _ hm)
  | ingesterEnd i turn hturn hmsgs => exact h.update rfl (by simp) (h.dispatch 0 (h.turn hturn)) rfl
  | writerTurn policy cache newMsgs tpWriter r hidle htake hrun =>
    cases htake
    refine ⟨fun m hm => ?_, h.collected, h.writerTurn hrun⟩
    have hm : m ∈ (s.tpWriter.takeAll 0).2 0 := hm
    rw [Pool.takeAll_apply, if_pos rfl] at hm
    cases hm
  | writerSend reply rest hanswering => exact ⟨h.inbox, h.collected, h.store⟩
  | other msg => exact ⟨h.inbox, h.collected, h.store⟩
  | commit db =>
    rcases ht rfl with heq | hkeep
    · have heq : db = s.db := heq
      exact ⟨h.inbox, h.collected, heq ▸ h.store⟩
    · exact ⟨h.inbox, h.collected, h.store.housekeeping hz (fun _ _ => Genuine.short) hkeep⟩

theorem Tidy.vouched (hz : Zstd.Lawful) (h : Tidy cfg s) : Vouched cfg s := by
  induction h with
  | init db hevent hpayload =>
    exact ⟨fun m hm => absurd hm List.not_mem_nil, fun _ m hm => absurd hm List.not_mem_nil, _, .empty hevent hpayload⟩
  | step _ hs ht ih => exact ih.step hz hs ht

/-- **What the relay serves is signed.**  In every run of its threads, with whatever housekeeping in
between, each stored event is served with a text whose id is the hash of its fields, whose signature is
the author's, and which would be accepted again with the same bytes and the same text. -/
theorem served_genuine (hz : Zstd.Lawful) (h : Tidy cfg s) :
    ServesTexts cfg.toCfg (Genuine cfg.toCfg) s.db := by
  obtain ⟨json, hstore⟩ := (h.vouched hz).store
  exact hstore.serves hz

end

/-- A JSON library that knows one message, with this event. -/
@[reducible] def signedEventJson : TaoJson where
  fromString b := if b = ascii "[\"EVENT\",1]" then some (.array [.string (ascii "EVENT"), sealedJson]) else none
  toString _ := ascii "\x7b\x7d"

set_option maxRecDepth 16000 in
theorem signedEvent_ingested : ∃ st, st = @ingest Golpe.plain signedEventJson anyCrypto {} {} {} 100 {}
    (.clientMessage 1 (ascii "[\"EVENT\",1]")) ∧
    st.writerMsgs = [.addEvent 1 textEvent.buf (ascii "\x7b\x7d")] ∧ st.sent = [] :=
  ⟨_, rfl, rfl, rfl⟩

set_option maxRecDepth 16000 in
theorem signedEvent_stored : ∃ r, @runWriterTurn Golpe.plain signedEventJson StdSort.insertion none {} {}
    [.addEvent 1 textEvent.buf (ascii "\x7b\x7d")] = .ok r ∧ r.db.event.rows = [(1, textEvent)] :=
  ⟨_, rfl, rfl⟩

/-- The event has come to the writer. -/
theorem signedEvent_passed : ∃ s : RelayServer 1,
    @Tidy Golpe.plain signedEventJson anyCrypto StdSort.insertion herrText Zstd.spaces 1 _ {} s ∧
    s.tpWriter 0 = [.addEvent 1 textEvent.buf (ascii "\x7b\x7d")] ∧ s.db = {} ∧ s.answering = [] := by
  let _ : Golpe := Golpe.plain
  let _ : TaoJson := signedEventJson
  let _ : Crypto := anyCrypto
  let _ : StdSort := StdSort.insertion
  let _ : What := herrText
  let _ : Zstd := Zstd.spaces
  obtain ⟨st, hst, hw, hsent⟩ := signedEvent_ingested
  have h0 : Tidy {} (n := 1) { db := {} } := .init {} rfl rfl
  have h1 := h0.step (.callback (.onConnection 5 7) _ _ rfl (by simp) ⟨rfl, rfl⟩ rfl) fun _ => Or.inl rfl
  have h2 := h1.step (.callback (.onMessage2 5 (ascii "[\"EVENT\",1]")) _ _ rfl (by simp) (Option.some_ne_none 7) rfl)
    fun _ => Or.inl rfl
  have h3 := h2.step (.ingesterWake 0 _ _ rfl rfl) fun _ => Or.inl rfl
  have h4 := h3.step (.ingesterMsg 0 _ _ _ {} 100 st rfl rfl hst) fun _ => Or.inl rfl
  have h5 := h4.step (.ingesterEnd 0 _ rfl rfl) fun _ => Or.inl rfl
  refine ⟨_, h5, ?_, rfl, rfl⟩
  show ((Pool.empty : Pool 1 MsgWriter).dispatchMulti 1 (st.sent.flatMap IngesterSend.toWriter)).dispatchMulti 0
    st.writerMsgs 0 = _
  rw [Pool.dispatchMulti_one, Pool.dispatchMulti_one, hsent, hw]
  rfl

/-- A signed event, from the client to the store. -/
theorem served_genuine_one : ∃ (s : RelayServer 1) (text : Bytes), s.db.event.rows = [(1, textEvent)] ∧
    @Genuine Golpe.plain signedEventJson anyCrypto {} textEvent text := by
  let _ : Golpe := Golpe.plain
  let _ : TaoJson := signedEventJson
  let _ : Crypto := anyCrypto
  let _ : StdSort := StdSort.insertion
  let _ : What := herrText
  let _ : Zstd := Zstd.spaces
  obtain ⟨s, h, hinbox, hdb, hidle⟩ := signedEvent_passed
  obtain ⟨r, hr, hrows⟩ := signedEvent_stored
  have hrun : runWriterTurn none s.db {} (s.tpWriter 0) = .ok r := by
    rw [hdb, hinbox]
    exact hr
  have h' := h.step (.writerTurn none {} _ _ r hidle rfl hrun) fun he => by
    have hempty : (s.tpWriter.takeAll 0).2 0 = s.tpWriter 0 := congrArg (fun s : RelayServer 1 => s.tpWriter 0) he
    rw [Pool.takeAll_apply, if_pos rfl, hinbox] at hempty
    cases hempty
  obtain ⟨text, -, hg⟩ := served_genuine Zstd.spaces_lawful h' (1, textEvent) (hrows ▸ List.mem_cons_self)
  exact ⟨{ s with db := r.db }, text, hrows, hg⟩

end RelayServer

/-! ## The other sources -/

namespace WriterPipeline

section
variable [Golpe] [TaoJson] [StdSort] [Crypto] [Zstd] {cfg : Cfg} {verifyTime : Bool} {writeBatchSize : Nat}
  {s s' : WriterPipeline}

/-- What is on its way to the writer, and what is stored, is genuine. -/
structure Vouched (cfg : Cfg) (s : WriterPipeline) : Prop where
  queue : ∀ e ∈ s.toCollect, e.2.Fits (Genuine cfg)
  batch : ∀ e ∈ s.batch, e.2.Fits (Genuine cfg)
  store : StoresTexts cfg (Genuine cfg) s.db

omit [Zstd] [StdSort] in
/-- The marker of `flush` is no event. -/
theorem fits_marker : EventToWrite.Fits (Genuine cfg) { packedStr := [], jsonStr := [] } :=
  ⟨rfl, fun packed h => by cases h⟩

omit [StdSort] in
theorem Vouched.push (h : Vouched cfg s) (e : InputNo × EventToWrite) (he : e.2.Fits (Genuine cfg))
    (hq : s'.toCollect = s.toCollect ++ [e]) (hb : s'.batch = s.batch) (hdb : s'.db = s.db) : Vouched cfg s' := by
  refine ⟨fun x hx => ?_, hb ▸ h.batch, hdb ▸ h.store⟩
  rw [hq] at hx
  exact (List.mem_append.mp hx).elim (h.queue x) fun hx => List.mem_singleton.mp hx ▸ he

omit [StdSort] in
theorem Vouched.validate (h : Vouched cfg s) (m : InputNo × Json) (rest : List (InputNo × Json)) (now : Nat) :
    Vouched cfg (s.validate m rest (parseAndVerifyEvent cfg now true verifyTime m.2)) := by
  unfold WriterPipeline.validate
  split
  · exact h.push (m.1, { packedStr := [], jsonStr := [] }) fits_marker (queue_push_writer ..) rfl rfl
  · split
    · exact ⟨h.queue, h.batch, h.store⟩
    · rename_i packedStr jsonStr hres
      exact h.push (m.1, { packedStr := packedStr, jsonStr := jsonStr })
        ⟨rfl, fun packed hpacked => Verified.genuine ⟨now, verifyTime, m.2, hres⟩ hpacked⟩ (queue_push_writer ..) rfl rfl

omit [StdSort] in
theorem Vouched.collect (h : Vouched cfg s) {txn : Db} {newEvents proc : List (InputNo × EventToWrite)}
    (hw : s.writer = .collecting txn newEvents proc) : Vouched cfg (s.collect writeBatchSize txn newEvents proc) := by
  have hq : ∀ e ∈ newEvents ++ s.writerInbox, e.2.Fits (Genuine cfg) := by
    have := h.queue
    unfold toCollect at this
    rw [hw] at this
    exact this
  have hb : ∀ e ∈ proc, e.2.Fits (Genuine cfg) := by
    have := h.batch
    unfold WriterPipeline.batch at this
    rw [hw] at this
    exact this
  unfold WriterPipeline.collect
  cases newEvents with
  | nil => exact ⟨hq, hb, h.store⟩
  | cons event rest =>
    have hrest : ∀ e ∈ rest ++ s.writerInbox, e.2.Fits (Genuine cfg) := fun e he => hq e (List.mem_cons_of_mem _ he)
    have hinbox : ∀ e ∈ s.writerInbox, e.2.Fits (Genuine cfg) := fun e he => hrest e (List.mem_append_right _ he)
    dsimp only
    split
    · exact ⟨hq, hb, h.store⟩
    · split
      · exact ⟨hinbox, hb, h.store⟩
      · split
        · exact ⟨hinbox, fun e he => absurd he List.not_mem_nil, h.store⟩
        · split
          · exact ⟨hrest, hb, h.store⟩
          · refine ⟨hrest, fun e he => ?_, h.store⟩
            rcases List.mem_append.mp he with he | he
            · exact hb e he
            · rw [List.mem_singleton.mp he]
              exact hq event List.mem_cons_self

theorem Vouched.commit (h : Vouched cfg s) {proc : List (InputNo × EventToWrite)} {fin : Bool}
    (hw : s.writer = .committing proc fin) : Vouched cfg (s.commit proc fin) := by
  have hq : ∀ e ∈ s.writerInbox, e.2.Fits (Genuine cfg) := by
    have := h.queue
    unfold toCollect at this
    rw [hw] at this
    exact this
  have hproc : ∀ e ∈ proc, e.2.Fits (Genuine cfg) := by
    have := h.batch
    unfold WriterPipeline.batch at this
    rw [hw] at this
    exact this
  have hend : ∀ t : WriterPipeline, t.writerInbox = s.writerInbox → StoresTexts cfg (Genuine cfg) t.db →
      Vouched cfg (t.endTurn fin) := by
    intro t ht hstore
    unfold endTurn
    split
    · exact ⟨fun e he => hq e (ht ▸ he), fun e he => absurd he List.not_mem_nil, hstore⟩
    · exact ⟨fun e he => hq e (ht ▸ he), fun e he => absurd he List.not_mem_nil, hstore⟩
  unfold WriterPipeline.commit
  split
  · exact hend s rfl h.store
  · split
    · exact ⟨hq, fun e he => absurd he List.not_mem_nil, h.store⟩
    · rename_i db' cache' evs' hwrite
      obtain ⟨json, hstore⟩ := h.store
      refine hend _ rfl ⟨_, hstore.writeEvents (fun ev hev => ?_) hwrite⟩
      obtain ⟨e, he, rfl⟩ := List.mem_map.mp hev
      exact hproc e he

/-- **A step** lets nothing else in. -/
theorem Vouched.step (h : Vouched cfg s) (hs : Step cfg true verifyTime writeBatchSize (EventToWrite.Fits (Genuine cfg))
    (StoresTexts cfg (Genuine cfg)) s s') : Vouched cfg s' := by
  cases hs with
  | write eventJson hc =>
    unfold WriterPipeline.write
    split
    · exact h
    · exact ⟨h.queue, h.batch, h.store⟩
  | writeFried line inp hc hline hF => exact h.push (_, inp) hF (queue_push_writer ..) rfl rfl
  | flush hc => exact ⟨h.queue, h.batch, h.store⟩
  | flushed hc hf => exact ⟨h.queue, h.batch, h.store⟩
  | validatorPop hv hne => exact ⟨h.queue, h.batch, h.store⟩
  | validate m rest now hv => exact h.validate m rest now
  | writerPop hw hne =>
    have hq : ∀ e ∈ s.writerInbox, e.2.Fits (Genuine cfg) := by
      have := h.queue
      unfold toCollect at this
      rw [hw] at this
      exact this
    refine ⟨fun e he => hq e ?_, fun e he => absurd he List.not_mem_nil, h.store⟩
    simpa [toCollect, WriterPhase.queue] using he
  | collect txn newEvents proc hw => exact h.collect hw
  | commit proc fin hw => exact h.commit hw
  | other db' hN => exact ⟨h.queue, h.batch, hN⟩

/-- **What `import` and the others store is signed**, as long as the pipeline verifies, the fried records
are of genuine events, and other processes leave such databases: each stored event is served genuine. -/
theorem stores_genuine (hz : Zstd.Lawful) (h : Reached cfg true verifyTime writeBatchSize
    (EventToWrite.Fits (Genuine cfg)) (StoresTexts cfg (Genuine cfg)) s) : ServesTexts cfg (Genuine cfg) s.db := by
  have hv : Vouched cfg s := by
    induction h with
    | init db hN => exact ⟨fun e he => absurd he List.not_mem_nil, fun e he => absurd he List.not_mem_nil, hN⟩
    | step _ hs ih => exact ih.step hs
  obtain ⟨json, hstore⟩ := hv.store
  exact hstore.serves hz

end

open RelayServer (signedEventJson)

set_option maxRecDepth 16000 in
theorem sealed_verifies : @parseAndVerifyEvent Golpe.plain signedEventJson anyCrypto {} 100 true false sealedJson =
    .ok (textEvent.buf, ascii "\x7b\x7d") := rfl

set_option maxRecDepth 16000 in
theorem sealed_stored : ∃ s, @Reached Golpe.plain signedEventJson StdSort.insertion anyCrypto {} true false 1
    (@EventToWrite.Fits (@Genuine Golpe.plain signedEventJson anyCrypto {}))
    (@StoresTexts Zstd.spaces {} (@Genuine Golpe.plain signedEventJson anyCrypto {})) s ∧
    s.db.event.rows = [(1, textEvent)] := by
  let _ : Golpe := Golpe.plain
  let _ : TaoJson := signedEventJson
  let _ : Crypto := anyCrypto
  let _ : StdSort := StdSort.insertion
  let _ : Zstd := Zstd.spaces
  have h0 : Reached {} true false 1 (EventToWrite.Fits (Genuine {})) (StoresTexts {} (Genuine {})) { db := {} } :=
    .init {} ⟨_, .empty rfl rfl⟩
  have h1 := (h0.step (.write sealedJson rfl)).step (.validatorPop rfl (List.cons_ne_nil _ _))
  have h2 := h1.step (.validate _ _ 100 rfl)
  rw [show parseAndVerifyEvent {} 100 true false sealedJson = _ from sealed_verifies] at h2
  have h3 := h2.step (.writerPop rfl (List.cons_ne_nil _ _))
  have h4 := (h3.step (.collect _ _ _ rfl)).step (.collect _ _ _ rfl)
  exact ⟨_, h4.step (.commit _ _ rfl), rfl⟩

/-- A signed event, from the caller to the store. -/
theorem stores_genuine_one : ∃ (s : WriterPipeline) (text : Bytes), s.db.event.rows = [(1, textEvent)] ∧
    @Genuine Golpe.plain signedEventJson anyCrypto {} textEvent text := by
  obtain ⟨s, h, hrows⟩ := sealed_stored
  obtain ⟨text, -, hg⟩ := @stores_genuine Golpe.plain signedEventJson StdSort.insertion anyCrypto Zstd.spaces {} false 1
    s Zstd.spaces_lawful h (1, textEvent) (hrows ▸ List.mem_cons_self)
  exact ⟨s, text, hrows, hg⟩

end WriterPipeline

end Strfry
