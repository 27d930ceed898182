import Strfry.Store
import Strfry.Lib.Dominance

/-!
# Order and batching do not matter

Whatever the order, the batches and the repetitions in which a set `T` of events is given to
`writeEvents`, the same events end up stored: those that no event of `T` beats, where an event
beats the events of its address that it supersedes and the events of its author that it names
as a deletion request.  On a set in which deletion requests name ordinary events only, `Beats`
is a strict order, and one turn adds one event to the set:

    stored db = Kept Beats done   →   stored db' = Kept Beats (insert e done)     (stored_outcome)
-/

namespace Strfry

/-- An event as submitted and as stored: the packed event and its JSON. -/
abbrev StoredEvent := PackedEventView × Bytes

/-- The events a database stores, their payload not being compressed. -/
def stored (db : Db) : Set StoredEvent :=
  {p | ∃ lev, (lev, p.1) ∈ db.event.rows ∧ (lev, 0 :: p.2) ∈ db.eventPayload.rows}

/-! ## The order -/

def Beats (w v : StoredEvent) : Prop := (SameAddress w.1 v.1 ∧ supersedes w.1 v.1 = true) ∨ Names w.1 v.1

theorem supersedes_iff (v w : PackedEventView) : supersedes v w = true ↔
    w.createdAt < v.createdAt ∨ (w.createdAt = v.createdAt ∧ v.id < w.id) := by
  simp [supersedes]

theorem supersedes_trans {u v w : PackedEventView} (h : supersedes u v = true)
    (h' : supersedes v w = true) : supersedes u w = true := by
  rw [supersedes_iff] at *
  rcases h with h | ⟨h, hid⟩
  · rcases h' with h' | ⟨h', -⟩
    · left; omega
    · left; omega
  · rcases h' with h' | ⟨h', hid'⟩
    · left; omega
    · right; exact ⟨by omega, lt_trans hid hid'⟩

theorem supersedes_irrefl (v : PackedEventView) : supersedes v v = false := by
  rw [← Bool.not_eq_true, supersedes_iff]
  rintro (h | ⟨-, h⟩)
  · exact lt_irrefl _ h
  · exact lt_irrefl _ h

/-- Of two events with different ids one supersedes the other. -/
theorem supersedes_total {v w : PackedEventView} (hne : v.id ≠ w.id) (h : supersedes v w = false) :
    supersedes w v = true := by
  rw [← Bool.not_eq_true, supersedes_iff, not_or] at h
  rw [supersedes_iff]
  obtain ⟨h1, h2⟩ := h
  by_cases hc : v.createdAt = w.createdAt
  · right
    refine ⟨hc, lt_of_le_of_ne (not_lt.mp fun hid => h2 ⟨hc.symm, hid⟩) (Ne.symm hne)⟩
  · left
    omega

theorem SameAddress.symm {v w : PackedEventView} (h : SameAddress v w) : SameAddress w v := by
  obtain ⟨a, hv, hw⟩ := h
  exact ⟨a, hw, hv⟩

theorem SameAddress.trans {u v w : PackedEventView} (h : SameAddress u v) (h' : SameAddress v w) :
    SameAddress u w := by
  obtain ⟨a, hu, hv⟩ := h
  obtain ⟨b, hv', hw⟩ := h'
  rw [hv] at hv'
  cases hv'
  exact ⟨a, hu, hw⟩

/-- A deletion request has no address. -/
theorem address_deletion {v : PackedEventView} (h : v.kind = 5) : address v = none := by
  unfold address
  rw [h]
  rfl

/-- The sets of events the result is about: an id belongs to one event, and deletion requests name
ordinary events only. -/
structure Submission (T : Set StoredEvent) : Prop where
  ids : ∀ p ∈ T, ∀ q ∈ T, p.1.id = q.1.id → p = q
  targets : ∀ D ∈ T, ∀ E ∈ T, D.1.kind = 5 → (tagE, E.1.id) ∈ D.1.tags →
    E.1.kind ≠ 5 ∧ isReplaceableKind E.1.kind = false ∧ isParamReplaceableKind E.1.kind = false

theorem Submission.mono {S T : Set StoredEvent} (h : Submission T) (hs : S ⊆ T) : Submission S where
  ids p hp q hq := h.ids p (hs hp) q (hs hq)
  targets D hD E hE := h.targets D (hs hD) E (hs hE)

/-- What a deletion request names beats nothing. -/
theorem Submission.named {T : Set StoredEvent} (h : Submission T) {D E : StoredEvent} (hD : D ∈ T)
    (hE : E ∈ T) (hn : Names D.1 E.1) : E.1.kind ≠ 5 ∧ address E.1 = none := by
  obtain ⟨h5, hr, hpr⟩ := h.targets D hD E hE hn.1 hn.2.2
  exact ⟨h5, by simp [address, hr, hpr]⟩

theorem Submission.strictOn {T : Set StoredEvent} (h : Submission T) : StrictOn Beats T := by
  refine ⟨fun a ha hb => ?_, fun a ha b hb c hc hab hbc => ?_⟩
  · rcases hb with ⟨-, hs⟩ | hn
    · rw [supersedes_irrefl] at hs
      cases hs
    · exact (h.named ha ha hn).1 hn.1
  · rcases hab with ⟨hs, hsup⟩ | hn
    · rcases hbc with ⟨hs', hsup'⟩ | hn'
      · exact Or.inl ⟨hs.trans hs', supersedes_trans hsup hsup'⟩
      · obtain ⟨x, -, hb⟩ := hs
        rw [address_deletion hn'.1] at hb
        cases hb
    · obtain ⟨h5, hno⟩ := h.named ha hb hn
      rcases hbc with ⟨⟨x, hx, -⟩, -⟩ | hn'
      · rw [hno] at hx
        cases hx
      · exact absurd hn'.1 h5

/-! ## Turns and batches -/

/-- The event of a batch as it is submitted. -/
def BatchEvent.toStored (e : BatchEvent) : StoredEvent := (e.2, e.1.jsonStr)

/-- The events done so far, as a set. -/
def doneSet (done : List BatchEvent) : Set StoredEvent := {q | ∃ e ∈ done, e.toStored = q}

theorem doneSet_append (done : List BatchEvent) (e : BatchEvent) :
    doneSet (done ++ [e]) = insert e.toStored (doneSet done) := by
  ext q
  simp only [doneSet, List.mem_append, List.mem_singleton, Set.mem_ofPred_eq, Set.mem_insert_iff]
  constructor
  · rintro ⟨e', he' | rfl, rfl⟩
    · exact Or.inr ⟨e', he', rfl⟩
    · exact Or.inl rfl
  · rintro (rfl | ⟨e', he', rfl⟩)
    · exact ⟨e, Or.inr rfl, rfl⟩
    · exact ⟨e', Or.inl he', rfl⟩

theorem doneSet_finite (done : List BatchEvent) : (doneSet done).Finite := by
  refine Set.Finite.subset (List.finite_toSet (done.map BatchEvent.toStored)) ?_
  rintro q ⟨e, he, rfl⟩
  exact List.mem_map_of_mem he

/-- The database stores what is kept of the events done so far. -/
structure Holds (T : Set StoredEvent) (done : List BatchEvent) (db : Db) : Prop where
  sub : doneSet done ⊆ T
  plain : ∀ x ∈ db.eventPayload.rows, ∃ json, x.2 = 0 :: json
  kept : ∀ p, p ∈ stored db ↔ Kept Beats (doneSet done) p

theorem stored_of_row {db : Db} (hinv : StoreInv db)
    (hplain : ∀ x ∈ db.eventPayload.rows, ∃ json, x.2 = 0 :: json) {r : Nat × PackedEventView}
    (hr : r ∈ db.event.rows) : ∃ json, (r.2, json) ∈ stored db := by
  obtain ⟨p, hp⟩ := (db.eventPayload.mem_keys r.1).mp
    ((hinv.payloads r.1).mpr ((db.event.mem_keys r.1).mpr ⟨r.2, hr⟩))
  obtain ⟨json, hjson⟩ := hplain _ hp
  simp only at hjson
  exact ⟨json, r.1, hr, hjson ▸ hp⟩

/-- What is stored after an event is written. -/
theorem stored_written {db db' : Db} {packed : PackedEventView} {jsonStr : Bytes}
    (hw : Written db db' packed jsonStr) (p : StoredEvent) :
    p ∈ stored db' ↔ (p ∈ stored db ∧ ¬ Removes packed p.1) ∨ p = (packed, jsonStr) := by
  have hbound : ∀ lev v, (lev, v) ∈ db.event.rows → lev ≠ db.event.lastId + 1 := by
    intro lev v hv he
    have := db.event.le_lastId _ hv
    simp only at this
    omega
  constructor
  · rintro ⟨lev, hev, hpay⟩
    rcases (hw.event _).mp hev with ⟨hev, hrm⟩ | he
    · rcases (hw.payload _).mp hpay with ⟨hpay, -⟩ | hp
      · exact Or.inl ⟨⟨lev, hev, hpay⟩, hrm⟩
      · exact absurd (congrArg Prod.fst hp) (hbound lev _ hev)
    · rcases (hw.payload _).mp hpay with ⟨hpay, v, hv, -⟩ | hp
      · exact absurd (congrArg Prod.fst he) (hbound _ _ hv)
      · refine Or.inr (Prod.ext (congrArg Prod.snd he) ?_)
        exact (List.cons.inj (congrArg Prod.snd hp)).2
  · rintro (⟨⟨lev, hev, hpay⟩, hrm⟩ | rfl)
    · exact ⟨lev, (hw.event _).mpr (Or.inl ⟨hev, hrm⟩),
        (hw.payload _).mpr (Or.inl ⟨hpay, p.1, hev, hrm⟩)⟩
    · exact ⟨db.event.lastId + 1, (hw.event _).mpr (Or.inr rfl), (hw.payload _).mpr (Or.inr rfl)⟩

/-- **One turn adds one event.** -/
theorem Holds.turn {T : Set StoredEvent} (hT : Submission T) {done : List BatchEvent} {db db' : Db}
    (h : Holds T done db) (hinv : StoreInv db) {prevId : Option Bytes}
    (hprev : ∀ i, prevId = some i → ∃ e' ∈ done, e'.2.id = i) {e : BatchEvent} {ev' : EventToWrite}
    (he : e.toStored ∈ T) (ho : WriteOutcome db prevId e.1 e.2 db' ev') : Holds T (done ++ [e]) db' := by
  have hsub : doneSet (done ++ [e]) ⊆ T := by
    rw [doneSet_append]
    exact Set.insert_subset he h.sub
  have hstrict : StrictOn Beats (insert e.toStored (doneSet done)) :=
    (hT.mono (Set.insert_subset he h.sub)).strictOn
  have hrow : ∀ r ∈ db.event.rows, ∃ json, Kept Beats (doneSet done) (r.2, json) := by
    intro r hr
    obtain ⟨json, hj⟩ := stored_of_row hinv h.plain hr
    exact ⟨json, (h.kept _).mp hj⟩
  -- an event that a kept one beats changes nothing
  have hbeaten : (∃ r ∈ db.event.rows, ∀ json, Beats (r.2, json) e.toStored) → Holds T (done ++ [e]) db := by
    rintro ⟨r, hr, hbeats⟩
    obtain ⟨json, hk⟩ := hrow r hr
    refine ⟨hsub, h.plain, fun p => ?_⟩
    rw [h.kept, doneSet_append, hstrict.insert_beaten hk (hbeats json)]
  cases ho with
  | duplicate hdup =>
    have hin : e.toStored ∈ doneSet done := by
      rcases hdup with ⟨r, hr, hid⟩ | hpid
      · obtain ⟨json, hk⟩ := hrow r hr
        rw [← hT.ids _ (h.sub hk.1) _ he hid]
        exact hk.1
      · obtain ⟨e', he', hid⟩ := hprev _ hpid
        rw [← hT.ids _ (h.sub ⟨e', he', rfl⟩) _ he hid]
        exact ⟨e', he', rfl⟩
    refine ⟨hsub, h.plain, fun p => ?_⟩
    rw [doneSet_append, Set.insert_eq_of_mem hin]
    exact h.kept p
  | deleted _ hdel =>
    obtain ⟨r, hr, hn⟩ := hdel
    exact hbeaten ⟨r, hr, fun _ => Or.inr hn⟩
  | replaced hdup _ hrep =>
    obtain ⟨r, hr, hs, hsup⟩ := hrep
    have hne : e.2.id ≠ r.2.id := fun hid => hdup (Or.inl ⟨r, hr, hid.symm⟩)
    exact hbeaten ⟨r, hr, fun _ => Or.inl ⟨hs.symm, supersedes_total hne hsup⟩⟩
  | written _ hdup hdel hrep hw =>
    have hno : ∀ s, Kept Beats (doneSet done) s → ¬ Beats s e.toStored := by
      intro s hs hb
      obtain ⟨lev, hev, -⟩ := (h.kept s).mpr hs
      rcases hb with ⟨hsame, hsup⟩ | hn
      · refine hrep ⟨_, hev, hsame.symm, ?_⟩
        by_contra hsup'
        have := supersedes_trans hsup (Bool.not_eq_false _ ▸ hsup')
        rw [supersedes_irrefl] at this
        cases this
      · exact hdel _ hev hn
    -- of the stored events, those that are removed are those that are beaten
    have hrm : ∀ p, p ∈ stored db → (Removes e.2 p.1 ↔ Beats e.toStored p) := by
      rintro p ⟨lev, hev, -⟩
      constructor
      · rintro (hs | hn)
        · refine Or.inl ⟨hs, ?_⟩
          by_contra hsup
          exact hrep ⟨_, hev, hs, (Bool.not_eq_true _).mp hsup⟩
        · exact Or.inr hn
      · rintro (⟨hs, -⟩ | hn)
        · exact Or.inl hs
        · exact Or.inr hn
    refine ⟨hsub, fun x hx => ?_, fun p => ?_⟩
    · rcases (hw.payload x).mp hx with ⟨hx, -⟩ | rfl
      · exact h.plain x hx
      · exact ⟨_, rfl⟩
    · rw [stored_written hw, doneSet_append,
        hstrict.insert_unbeaten (doneSet_finite done) hno, ← h.kept]
      constructor
      · rintro (⟨hp, hn⟩ | rfl)
        · exact Or.inl ⟨hp, fun hb => hn ((hrm p hp).mpr hb)⟩
        · exact Or.inr rfl
      · rintro (⟨hp, hn⟩ | rfl)
        · exact Or.inl ⟨hp, fun hr => hn ((hrm p hp).mp hr)⟩
        · exact Or.inr rfl

/-! ## Submissions -/

section
variable [Golpe] [TaoJson] [StdSort] (cfg : Cfg)

/-- The events of `done` were given to `writeEvents`, in these batches, from the empty database on. -/
inductive Submitted : List BatchEvent → Db → Prop where
  | init (db : Db) (hevent : db.event = .empty) (hpayload : db.eventPayload = .empty) : Submitted [] db
  | batch {done : List BatchEvent} {db : Db} (h : Submitted done db) (cache cache' : NegentropyFilterCache)
      (evs evs' : List EventToWrite) (l : List BatchEvent) (db' : Db)
      (hevs : ∀ ev ∈ evs, Submittable cfg ev) (hfit : db.event.lastId + evs.length < 2 ^ 64)
      (hl : viewBatch evs = .ok l) (hw : writeEvents db cache evs = .ok (db', cache', evs')) :
      Submitted (done ++ l) db'

/-- The database holds what is kept of the events submitted. -/
theorem Submitted.holds {done : List BatchEvent} {db : Db} (h : Submitted cfg done db)
    {T : Set StoredEvent} (hT : Submission T) (hsub : doneSet done ⊆ T) :
    StoreInv db ∧ Holds T done db := by
  induction h with
  | init db hevent hpayload =>
    refine ⟨⟨by simp [hevent], by simp [hevent], by simp [hevent], by simp [hevent, hpayload]⟩, hsub,
      by simp [hpayload], fun p => ?_⟩
    constructor
    · rintro ⟨lev, hev, -⟩
      simp [hevent] at hev
    · rintro ⟨⟨e, he, -⟩, -⟩
      simp at he
  | @batch done db _ cache cache' evs evs' l db' hevs hfit hl hw ih =>
    have hdone : doneSet done ⊆ T := fun q ⟨e, he, heq⟩ => hsub ⟨e, List.mem_append_left _ he, heq⟩
    obtain ⟨hinv, hI⟩ := ih hdone
    obtain ⟨db1, evs1, l1, hw1, hl1, hinv1, hI1⟩ := writeEvents_rule cfg
      (fun done db => (∀ e ∈ done, e.toStored ∈ T) → Holds T done db) evs hevs
      (fun done db prevId e db' ev' _ _ _ hI hinv hprev ho hin =>
        Holds.turn hT (hI fun e' he' => hin e' (List.mem_append_left _ he')) hinv hprev
          (hin e (by simp)) ho)
      done (fun _ => hI) hinv hfit (writeEvents_cache hw)
    rw [hw] at hw1
    cases hw1
    rw [hl] at hl1
    cases hl1
    have hset : doneSet (done ++ StdSort.sort batchLt l) = doneSet (done ++ l) := by
      ext q
      simp only [doneSet, List.mem_append, StdSort.mem_sort]
    have hI1 := hI1 fun e he => hsub (hset ▸ ⟨e, he, rfl⟩)
    exact ⟨hinv1, hsub, hI1.plain, fun p => by rw [hI1.kept, hset]⟩

end

/-- What becomes of an event of `T`: deletion requests stay, ordinary events stay unless one names
them, and of an address the event with the greatest created_at stays, of these the one with the
smallest id. -/
def Survives (T : Set StoredEvent) (p : StoredEvent) : Prop :=
  if p.1.kind = 5 then True
  else if isReplaceableKind p.1.kind || isParamReplaceableKind p.1.kind then
    ∀ q ∈ T, SameAddress p.1 q.1 → q = p ∨ q.1.createdAt < p.1.createdAt ∨
      (q.1.createdAt = p.1.createdAt ∧ p.1.id < q.1.id)
  else ∀ D ∈ T, D.1.kind = 5 → D.1.pubkey = p.1.pubkey → (tagE, p.1.id) ∉ D.1.tags

theorem kept_iff_survives {T : Set StoredEvent} (hT : Submission T) {p : StoredEvent} (hp : p ∈ T) :
    Kept Beats T p ↔ Survives T p := by
  unfold Survives
  by_cases h5 : p.1.kind = 5
  · simp only [h5, if_true, iff_true]
    refine ⟨hp, fun w hw hb => ?_⟩
    rcases hb with ⟨⟨a, -, ha⟩, -⟩ | hn
    · rw [address_deletion h5] at ha
      cases ha
    · exact (hT.named hw hp hn).1 h5
  rw [if_neg h5]
  by_cases hr : (isReplaceableKind p.1.kind || isParamReplaceableKind p.1.kind) = true
  · rw [if_pos hr]
    have hnot : ∀ w ∈ T, ¬ Names w.1 p.1 := by
      intro w hw hn
      obtain ⟨-, h1, h2⟩ := hT.targets w hw p hp hn.1 hn.2.2
      simp [h1, h2] at hr
    constructor
    · rintro ⟨-, hno⟩ q hq hs
      by_cases hqp : q = p
      · exact Or.inl hqp
      · right
        rw [← supersedes_iff]
        refine supersedes_total (fun hid => hqp (hT.ids q hq p hp hid)) ?_
        rw [← Bool.not_eq_true]
        exact fun hsup => hno q hq (Or.inl ⟨hs.symm, hsup⟩)
    · intro hall
      refine ⟨hp, fun w hw hb => ?_⟩
      rcases hb with ⟨hs, hsup⟩ | hn
      · rcases hall w hw hs.symm with rfl | hsup'
        · rw [supersedes_irrefl] at hsup
          cases hsup
        · have := supersedes_trans hsup ((supersedes_iff _ _).mpr hsup')
          rw [supersedes_irrefl] at this
          cases this
      · exact hnot w hw hn
  · rw [if_neg hr]
    have ha : address p.1 = none := by simp [address, hr]
    constructor
    · rintro ⟨-, hno⟩ D hD h5 hpk ht
      exact hno D hD (Or.inr ⟨h5, hpk, ht⟩)
    · intro hall
      refine ⟨hp, fun w hw hb => ?_⟩
      rcases hb with ⟨⟨a, -, ha'⟩, -⟩ | hn
      · rw [ha] at ha'
        cases ha'
      · exact hall w hw hn.1 hn.2.1 hn.2.2

section
variable [Golpe] [TaoJson] [StdSort] (cfg : Cfg)

/-- **Order and batching do not matter.**  Two ways of submitting the events of `T` end with the same
events stored, which are those that survive; each address of `T` has one. -/
theorem writes_converge (T : Set StoredEvent) (hT : Submission T) (done done' : List BatchEvent)
    (db db' : Db) (h : Submitted cfg done db) (h' : Submitted cfg done' db')
    (hdone : doneSet done = T) (hdone' : doneSet done' = T) :
    stored db = stored db' ∧ (∀ p, p ∈ stored db ↔ p ∈ T ∧ Survives T p) ∧
    ∀ q ∈ T, ∀ a, address q.1 = some a → ∃ p ∈ stored db, address p.1 = some a := by
  have hmain : ∀ (done : List BatchEvent) (db : Db), Submitted cfg done db → doneSet done = T →
      ∀ p, p ∈ stored db ↔ Kept Beats T p := by
    intro done db h hdone p
    rw [(h.holds cfg hT (le_of_eq hdone)).2.kept, hdone]
  refine ⟨?_, fun p => ?_, fun q hq a ha => ?_⟩
  · ext p
    rw [hmain done db h hdone, hmain done' db' h' hdone']
  · rw [hmain done db h hdone]
    constructor
    · intro hk
      exact ⟨hk.1, (kept_iff_survives hT hk.1).mp hk⟩
    · rintro ⟨hp, hs⟩
      exact (kept_iff_survives hT hp).mpr hs
  · obtain ⟨s, hs, rfl | hb⟩ := hT.strictOn.exists_kept (hdone ▸ doneSet_finite done) hq
    · exact ⟨s, (hmain done db h hdone s).mpr hs, ha⟩
    · rcases hb with ⟨⟨b, hsb, hqb⟩, -⟩ | hn
      · rw [ha] at hqb
        cases hqb
        exact ⟨s, (hmain done db h hdone s).mpr hs, hsb⟩
      · rw [(hT.named hs.1 hq hn).2] at ha
        cases ha

end

/-- The two events as they are submitted. -/
def twoStored : Set StoredEvent := {(textEvent, ascii "t"), (deletionEvent, ascii "d")}

def textWrite : EventToWrite := { packedStr := textEvent.buf, jsonStr := ascii "t" }

def deletionWrite : EventToWrite := { packedStr := deletionEvent.buf, jsonStr := ascii "d" }

theorem twoStored_submission : Submission twoStored where
  ids p hp q hq hid := by
    rcases hp with rfl | rfl
    · rcases hq with rfl | rfl
      · rfl
      · exact absurd hid (by decide)
    · rcases hq with rfl | rfl
      · exact absurd hid (by decide)
      · rfl
  targets D hD E hE h5 ht := by
    rcases hD with rfl | rfl
    · exact absurd h5 (by decide)
    · rcases hE with rfl | rfl
      · exact absurd ht (by decide)
      · exact absurd ht (by decide)

theorem doneSet_pair (a b : BatchEvent) : doneSet [a, b] = {a.toStored, b.toStored} := by
  ext q
  simp [doneSet, eq_comm]

set_option maxRecDepth 8000 in
/-- The deletion request first, the text event in a batch of its own. -/
theorem deletionFirst_written : ∃ db1 c1 evs1 db2 c2 evs2,
    @writeEvents Golpe.plain TaoJson.none StdSort.insertion {} {} [deletionWrite] = .ok (db1, c1, evs1) ∧
    db1.event.lastId = 1 ∧
    @writeEvents Golpe.plain TaoJson.none StdSort.insertion db1 c1 [textWrite] = .ok (db2, c2, evs2) :=
  ⟨_, _, _, _, _, _, rfl, rfl, rfl⟩

theorem viewBatch_two :
    viewBatch twoEvents = .ok [(textWrite, textEvent), (deletionWrite, deletionEvent)] := by
  simp only [viewBatch, twoEvents, List.mapM_cons, List.mapM_nil, PackedEventView.ofBytes_self]
  rfl

theorem viewBatch_single {ev : EventToWrite} {v : PackedEventView} (h : ev.packedStr = v.buf) :
    viewBatch [ev] = .ok [(ev, v)] := by
  simp only [viewBatch, List.mapM_cons, List.mapM_nil, h, PackedEventView.ofBytes_self]
  rfl

theorem writes_converge_two : ∃ db db' : Db,
    db.event.rows = [(1, textEvent), (2, deletionEvent)] ∧ stored db = stored db' ∧
    (textEvent, ascii "t") ∈ stored db' := by
  let _ : Golpe := Golpe.plain
  let _ : TaoJson := TaoJson.none
  let _ : StdSort := StdSort.insertion
  obtain ⟨db, cache, evs, hw, hrows⟩ := twoEvents_written
  obtain ⟨db1, c1, evs1, db2, c2, evs2, hw1, hlast, hw2⟩ := deletionFirst_written
  have hd : ∀ ev ∈ [deletionWrite], Submittable {} ev := fun ev hev =>
    twoEvents_submittable ev (List.mem_cons_of_mem _ hev)
  have ht : ∀ ev ∈ [textWrite], Submittable {} ev := fun ev hev => by
    rw [List.mem_singleton.mp hev]
    exact twoEvents_submittable _ List.mem_cons_self
  have h : Submitted {} [(textWrite, textEvent), (deletionWrite, deletionEvent)] db :=
    .batch (.init {} rfl rfl) {} cache twoEvents evs _ db twoEvents_submittable (by decide)
      viewBatch_two hw
  have h' : Submitted {} [(deletionWrite, deletionEvent), (textWrite, textEvent)] db2 :=
    .batch (.batch (.init {} rfl rfl) {} c1 [deletionWrite] evs1 [(deletionWrite, deletionEvent)] db1 hd
      (by decide) (viewBatch_single rfl) hw1) c1 c2 [textWrite] evs2 [(textWrite, textEvent)] db2 ht
      (by rw [hlast]; decide) (viewBatch_single rfl) hw2
  obtain ⟨hsame, hsurv, -⟩ := writes_converge {} twoStored twoStored_submission _ _ db db2 h h'
    (doneSet_pair _ _) ((doneSet_pair _ _).trans (Set.pair_comm _ _))
  refine ⟨db, db2, hrows, hsame, hsame ▸ (hsurv _).mpr ⟨Or.inl rfl, ?_⟩⟩
  have hkind : (textEvent, ascii "t").1.kind = 1 := by decide
  unfold Survives
  rw [hkind, if_neg (by decide), if_neg (by decide)]
  intro D hD
  rcases hD with rfl | rfl
  · intro h5
    exact absurd h5 (by decide)
  · intro _ _
    decide

end Strfry
