import Strfry.Fried
import Strfry.Ingester
import Strfry.StoreConverge

/-!
# Fried exports

`cmd_export` with `--fried` walks the created_at index in either direction and prints a fried line for
every event.  `import` reads lines with `getline`.

The databases considered are those that `writeEvents` and `deleteEvents` make of events parsed from JSON
(`ParsedStore`).  In them ids and addresses are unique, no deletion request is stored together with
another event it names, and every payload is the text of a JSON object (`Exportable`), so the lines read
back are the lines written, and `parseFried` gives the packed bytes and the JSON of every event once
(`export_lines`).
-/

namespace Strfry

def newline : Byte := 10

section
variable [Zstd] (cfg : Cfg)

/-- What the walk prints for one record of the index. -/
def exportRecord (txn : Db) (e : Bytes × Nat) : Except Err Bytes := do
  let json ← getEventJson cfg txn e.2
  let ev ← txn.lookupEventByLevId e.2
  return friedLine json ev.buf ++ [newline]

/-- The records of the created_at index that `export` visits. -/
def exportWalk (txn : Db) (since until_ : Nat) (reverse : Bool) : List (Bytes × Nat) :=
  if reverse then
    (txn.foreachDown .createdAt (toSv until_) maxU64).takeWhile fun e => ¬ fromSv e.1 < since
  else
    (txn.foreachUp .createdAt (toSv since) 0).takeWhile fun e => ¬ fromSv e.1 > until_

/-- `export --fried`, with its default range of times. -/
def exportFried (txn : Db) (reverse : Bool) : Except Err Bytes := do
  let out ← (exportWalk txn 0 maxU64 reverse).mapM (exportRecord cfg txn)
  return out.flatten

end

/-- The lines `getline` returns, each without its last character. -/
def getLines : Bytes → Bytes → List Bytes
  | [], [] => []
  | [], buf => [buf.dropLast]
  | b :: bs, buf => if b = newline then buf :: getLines bs [] else getLines bs (buf ++ [b])

theorem getLines_append {line : Bytes} (h : newline ∉ line) (rest buf : Bytes) :
    getLines (line ++ newline :: rest) buf = (buf ++ line) :: getLines rest [] := by
  induction line generalizing buf with
  | nil => simp [getLines]
  | cons b line ih =>
    rw [List.mem_cons, not_or] at h
    rw [List.cons_append, getLines, if_neg (Ne.symm h.1), ih h.2]
    simp

/-- Lines without a newline of their own are read back. -/
theorem getLines_lines {lines : List Bytes} (h : ∀ l ∈ lines, newline ∉ l) :
    getLines (lines.map fun l => l ++ [newline]).flatten [] = lines := by
  induction lines with
  | nil => rfl
  | cons l lines ih =>
    rw [List.map_cons, List.flatten_cons, List.append_assoc, List.singleton_append,
      getLines_append (h l List.mem_cons_self), ih fun l' hl' => h l' (List.mem_cons_of_mem _ hl')]
    rfl

/-! ## Stores of parsed events -/

section
variable [Golpe] [TaoJson] [StdSort] [Crypto] (cfg : Cfg)

/-- An event as the validator or the ingester makes it. -/
def ParsedEvent (ev : EventToWrite) : Prop :=
  ev.status = .pending ∧ ∃ now verifyMsg verifyTime json,
    parseAndVerifyEvent cfg now verifyMsg verifyTime json = .ok (ev.packedStr, ev.jsonStr)

/-- The databases reached from the empty one over parsed events. -/
inductive ParsedStore : Db → Prop where
  | init (db : Db) (hevent : db.event = .empty) (hpayload : db.eventPayload = .empty) : ParsedStore db
  | write {db : Db} (h : ParsedStore db) (cache cache' : NegentropyFilterCache)
      (evs evs' : List EventToWrite) (db' : Db) (hevs : ∀ ev ∈ evs, ParsedEvent cfg ev)
      (hfit : db.event.lastId + evs.length < 2 ^ 64)
      (hw : writeEvents db cache evs = .ok (db', cache', evs')) : ParsedStore db'
  | delete {db : Db} (h : ParsedStore db) (cache cache' : NegentropyFilterCache) (levIds : List Nat) (n : Nat)
      (db' : Db) (hd : deleteEvents db cache levIds = .ok (db', cache', n)) : ParsedStore db'

end

/-- The text of an object. -/
def IsObjectText [TaoJson] (text : Bytes) : Prop := ∃ kvs, text = TaoJson.toString (.object kvs)

/-- What an export and its import rely on. -/
structure Exportable [TaoJson] (db : Db) : Prop extends StoreInv db where
  names : ∀ D ∈ db.event.rows, ∀ E ∈ db.event.rows, Names D.2 E.2 → D = E
  texts : ∀ x ∈ db.eventPayload.rows, ∃ text, IsObjectText text ∧ x.2 = 0 :: text
  fit : db.event.lastId < 2 ^ 64

section
variable [Golpe] [TaoJson] [StdSort] [Crypto] {cfg : Cfg}

omit [StdSort] in
theorem ParsedEvent.submittable {ev : EventToWrite} (h : ParsedEvent cfg ev) :
    Submittable cfg ev ∧ IsObjectText ev.jsonStr := by
  obtain ⟨hpend, now, verifyMsg, verifyTime, json, h⟩ := h
  obtain ⟨hpacked, -, fields, hfields⟩ := parseAndVerifyEvent_ok h
  exact ⟨⟨hpend, json, hpacked⟩, fields, hfields⟩

omit [Golpe] [StdSort] [Crypto] in
/-- A turn of `writeEvents` keeps what an export relies on. -/
theorem Exportable.turn {db db' : Db} {prevId : Option Bytes} {ev ev' : EventToWrite}
    {packed : PackedEventView}
    (hnames : ∀ D ∈ db.event.rows, ∀ E ∈ db.event.rows, Names D.2 E.2 → D = E)
    (htexts : ∀ x ∈ db.eventPayload.rows, ∃ text, IsObjectText text ∧ x.2 = 0 :: text)
    (htext : IsObjectText ev.jsonStr) (ho : WriteOutcome db prevId ev packed db' ev') :
    (∀ D ∈ db'.event.rows, ∀ E ∈ db'.event.rows, Names D.2 E.2 → D = E) ∧
    ∀ x ∈ db'.eventPayload.rows, ∃ text, IsObjectText text ∧ x.2 = 0 :: text := by
  cases ho with
  | duplicate _ => exact ⟨hnames, htexts⟩
  | deleted _ _ => exact ⟨hnames, htexts⟩
  | replaced _ _ _ => exact ⟨hnames, htexts⟩
  | written _ _ hdel _ hw =>
    refine ⟨fun D hD E hE hn => ?_, fun x hx => ?_⟩
    · rcases (hw.event D).mp hD with ⟨hD, -⟩ | rfl
      · rcases (hw.event E).mp hE with ⟨hE, -⟩ | rfl
        · exact hnames D hD E hE hn
        · exact absurd hn (hdel D hD)
      · rcases (hw.event E).mp hE with ⟨-, hrm⟩ | rfl
        · exact absurd (Or.inr hn) hrm
        · rfl
    · rcases (hw.payload x).mp hx with ⟨hx, -⟩ | rfl
      · exact htexts x hx
      · exact ⟨ev.jsonStr, htext, rfl⟩

theorem ParsedStore.exportable {db : Db} (h : ParsedStore cfg db) : Exportable db := by
  induction h with
  | init db hevent hpayload =>
    refine ⟨⟨?_, ?_, ?_, ?_⟩, ?_, ?_, ?_⟩
    all_goals simp [hevent, hpayload]
  | @write db h cache cache' evs evs' db' hevs hfit hw ih =>
    obtain ⟨db1, evs1, l, hw1, hl, hinv1, hI1⟩ := writeEvents_rule cfg
      (fun done db₁ => ((∀ D ∈ db₁.event.rows, ∀ E ∈ db₁.event.rows, Names D.2 E.2 → D = E) ∧
        ∀ x ∈ db₁.eventPayload.rows, ∃ text, IsObjectText text ∧ x.2 = 0 :: text) ∧
        db₁.event.lastId ≤ db.event.lastId + done.length) evs
      (fun ev hev => (hevs ev hev).submittable.1)
      (fun done db₁ prevId e db₂ ev' he _ _ hI _ _ ho =>
        ⟨Exportable.turn hI.1.1 hI.1.2 (hevs e.1 he).submittable.2 ho, by
          have := ho.lastId_le
          have := hI.2
          rw [List.length_append, List.length_singleton]
          omega⟩)
      [] ⟨⟨ih.names, ih.texts⟩, Nat.le_refl _⟩ ih.toStoreInv hfit (writeEvents_cache hw)
    rw [hw] at hw1
    cases hw1
    refine ⟨hinv1, hI1.1.1, hI1.1.2, Nat.lt_of_le_of_lt hI1.2 ?_⟩
    rw [List.nil_append, (StdSort.perm batchLt l).length_eq, (mapM_eq_ok hl).1]
    exact hfit
  | @delete db h cache cache' levIds n db' hd ih =>
    have hs := ih.toStoreInv.deleteEvents hd
    obtain ⟨-, rfl⟩ := deleteEvents_eq hd
    obtain ⟨-, h2, -⟩ := foldl_deleteEvent cache' levIds db ih.payloads
    refine ⟨ih.toStoreInv.shrunk hs, fun D hD E hE => ih.names D (hs.event D hD) E (hs.event E hE),
      fun x hx => ih.texts x ((h2 x).mp hx).1, ?_⟩
    exact Nat.lt_of_le_of_lt (Table.lastId_le_of_keys _ _ fun r hr =>
      Table.le_lastId _ r (hs.event r hr)) ih.fit

end

/-! ## The lines of an export -/

theorem exists_forall₂ {α β : Type} {R : α → β → Prop} (l : List α) (h : ∀ a ∈ l, ∃ b, R a b) :
    ∃ bs, List.Forall₂ R l bs := by
  induction l with
  | nil => exact ⟨[], .nil⟩
  | cons a l ih =>
    obtain ⟨b, hb⟩ := h a List.mem_cons_self
    obtain ⟨bs, hbs⟩ := ih fun a' ha' => h a' (List.mem_cons_of_mem _ ha')
    exact ⟨b :: bs, .cons hb hbs⟩

theorem mapM_of_forall₂ {α β γ : Type} {R : α → β → Prop} {f : α → Except Err γ} {g : β → γ}
    (hf : ∀ a b, R a b → f a = .ok (g b)) {l : List α} {bs : List β} (h : List.Forall₂ R l bs) :
    l.mapM f = .ok (bs.map g) := by
  induction h with
  | nil => rfl
  | cons hab _ ih =>
    rw [List.mapM_cons, hf _ _ hab, ih]
    rfl

theorem exists_left_of_forall₂ {α β : Type} {R : α → β → Prop} {l : List α} {bs : List β}
    (h : List.Forall₂ R l bs) : ∀ b ∈ bs, ∃ a ∈ l, R a b := by
  induction h with
  | nil => simp
  | cons hab _ ih =>
    intro b hb
    rcases List.mem_cons.mp hb with rfl | hb
    · exact ⟨_, List.mem_cons_self, hab⟩
    · obtain ⟨a, ha, hr⟩ := ih b hb
      exact ⟨a, List.mem_cons_of_mem _ ha, hr⟩

theorem exists_right_of_forall₂ {α β : Type} {R : α → β → Prop} {l : List α} {bs : List β}
    (h : List.Forall₂ R l bs) : ∀ a ∈ l, ∃ b ∈ bs, R a b := by
  induction h with
  | nil => simp
  | cons hab _ ih =>
    intro a ha
    rcases List.mem_cons.mp ha with rfl | ha
    · exact ⟨_, List.mem_cons_self, hab⟩
    · obtain ⟨b, hb, hr⟩ := ih a ha
      exact ⟨b, List.mem_cons_of_mem _ hb, hr⟩

theorem nodup_of_forall₂ {α β γ : Type} {R : α → β → Prop} {f : β → γ}
    (hf : ∀ a b a' b', R a b → R a' b' → f b = f b' → a = a') {l : List α} {bs : List β}
    (h : List.Forall₂ R l bs) (hl : l.Nodup) : (bs.map f).Nodup := by
  induction h with
  | nil => simp
  | cons hab hrest ih =>
    obtain ⟨hnot, hl⟩ := List.nodup_cons.mp hl
    refine List.nodup_cons.mpr ⟨fun hin => ?_, ih hl⟩
    obtain ⟨b', hb', heq⟩ := List.mem_map.mp hin
    obtain ⟨a', ha', hr⟩ := exists_left_of_forall₂ hrest b' hb'
    exact hnot (hf _ _ _ _ hab hr heq.symm ▸ ha')

/-- The walk visits every event once. -/
theorem mem_exportWalk {db : Db} (hfit : db.event.lastId < 2 ^ 64) (reverse : Bool) (e : Bytes × Nat) :
    e ∈ exportWalk db 0 maxU64 reverse ↔ ∃ v, (e.2, v) ∈ db.event.rows ∧ e.1 = toSv v.createdAt := by
  have hentry : ∀ e ∈ db.entries .createdAt, fromSv e.1 ≤ maxU64 ∧ e.2 ≤ maxU64 := by
    intro e he
    obtain ⟨v, hv, hk⟩ := (db.mem_entries _ _).mp he
    rw [List.mem_singleton.mp hk, fromSv_toSv _ v.createdAt_lt]
    have h1 := v.createdAt_lt
    have h2 := db.event.le_lastId _ hv
    simp only [maxU64] at h2 ⊢
    omega
  have hmem : e ∈ db.entries .createdAt ↔ ∃ v, (e.2, v) ∈ db.event.rows ∧ e.1 = toSv v.createdAt := by
    rw [db.mem_entries]
    simp only [indexKeys, List.mem_singleton]
  rw [← hmem]
  have h0 : fromSv (toSv 0) = 0 := fromSv_toSv 0 (by decide)
  have hmax : fromSv (toSv maxU64) = maxU64 := fromSv_toSv maxU64 (by decide)
  cases reverse with
  | true =>
    rw [exportWalk, if_pos rfl, List.takeWhile_eq_self_iff.mpr (by simp)]
    unfold Db.foreachDown
    rw [mem_walkDown]
    refine ⟨fun h => h.1, fun h => ⟨h, ?_⟩⟩
    obtain ⟨h1, h2⟩ := hentry e h
    simp only [entryOrd, hmax, Prod.Lex.toLex_le_toLex, lt_irrefl, true_and, false_or]
    omega
  | false =>
    have hall : ∀ x ∈ db.foreachUp .createdAt (toSv 0) 0, (¬ fromSv x.1 > maxU64) = true := by
      intro x hx
      have := (hentry x ((mem_walkUp _ _ _ _).mp hx).1).1
      simp only [gt_iff_lt, not_lt, eq_iff_iff, iff_true]
      omega
    rw [exportWalk, if_neg (by simp), List.takeWhile_eq_self_iff.mpr (by simpa using hall)]
    unfold Db.foreachUp
    rw [mem_walkUp]
    refine ⟨fun h => h.1, fun h => ⟨h, ?_⟩⟩
    simp only [entryOrd, h0, Prod.Lex.toLex_le_toLex, lt_irrefl, true_and, false_or]
    omega

theorem nodup_exportWalk (db : Db) (reverse : Bool) : (exportWalk db 0 maxU64 reverse).Nodup := by
  unfold exportWalk
  split
  · exact (nodup_walkDown _ _ _).sublist (List.takeWhile_sublist _)
  · exact (nodup_walkUp _ _ _).sublist (List.takeWhile_sublist _)

/-- The texts of objects end with a brace and have no newline. -/
def TaoJson.OneLine [TaoJson] : Prop := ∀ kvs : List (Bytes × Json),
  (∃ body, TaoJson.toString (.object kvs) = body ++ [closeBrace]) ∧
  newline ∉ TaoJson.toString (.object kvs)

theorem hexDigit_ne_newline : ∀ n : Fin 16,
    (Fin.ofNat 256 (if n.val < 10 then 48 + n.val else 87 + n.val) : Byte) ≠ newline := by
  decide

theorem newline_notMem_toHex (b : Bytes) : newline ∉ toHex b := by
  induction b with
  | nil => simp [toHex]
  | cons y b ih =>
    rw [toHex_cons]
    simp only [List.mem_cons, not_or]
    exact ⟨(hexDigit_ne_newline ⟨y.val / 16, by omega⟩).symm,
      (hexDigit_ne_newline ⟨y.val % 16, by omega⟩).symm, ih⟩

theorem newline_notMem_friedLine {json : Bytes} (h : newline ∉ json) (packed : Bytes) :
    newline ∉ friedLine json packed := by
  unfold friedLine
  simp only [List.mem_append, not_or]
  refine ⟨⟨⟨fun hin => h (List.mem_of_mem_dropLast hin), by decide⟩, newline_notMem_toHex packed⟩, ?_⟩
  decide

/-- A stored event as the import writes it. -/
def StoredEvent.toWrite (p : StoredEvent) : EventToWrite := { packedStr := p.1.buf, jsonStr := p.2 }

/-- **The lines of an export** are one for every stored event, and `parseFried` gives its packed bytes
and its JSON. -/
theorem export_lines [Golpe] [TaoJson] [Zstd] (hhex : ∀ b, Golpe.fromHex (toHex b) = some b)
    (hjson : TaoJson.OneLine) (cfg : Cfg) {db : Db} (h : Exportable db) (reverse : Bool) :
    ∃ (out : Bytes) (E : List StoredEvent), exportFried cfg db reverse = .ok out ∧
      (getLines out []).map parseFried = E.map (fun p => .ok p.toWrite) ∧
      (∀ p, p ∈ E ↔ p ∈ stored db) ∧ (E.map fun p => p.1.id).Nodup := by
  let R : Bytes × Nat → StoredEvent → Prop := fun e p => (e.2, p.1) ∈ db.event.rows ∧
    (e.2, 0 :: p.2) ∈ db.eventPayload.rows ∧ IsObjectText p.2 ∧ e.1 = toSv p.1.createdAt
  obtain ⟨E, hE⟩ := exists_forall₂ (R := R) (exportWalk db 0 maxU64 reverse) (by
    intro e he
    obtain ⟨v, hv, hkey⟩ := (mem_exportWalk h.fit reverse e).mp he
    obtain ⟨payload, hp⟩ := (db.eventPayload.mem_keys e.2).mp
      ((h.payloads e.2).mpr ((db.event.mem_keys e.2).mpr ⟨v, hv⟩))
    obtain ⟨text, htext, hpt⟩ := h.texts _ hp
    simp only at hpt
    exact ⟨(v, text), hv, hpt ▸ hp, htext, hkey⟩)
  have hrecord : ∀ e p, R e p → exportRecord cfg db e = .ok (friedLine p.2 p.1.buf ++ [newline]) := by
    rintro e p ⟨hv, hp, -, -⟩
    unfold exportRecord getEventJson Db.lookupEventByLevId
    rw [(db.eventPayload.lookup_eq_some_iff _ _).mpr hp, (db.event.lookup_eq_some_iff _ _).mpr hv]
    rfl
  have hline : ∀ p ∈ E, newline ∉ friedLine p.2 p.1.buf ∧
      parseFried (friedLine p.2 p.1.buf) = .ok p.toWrite := by
    intro p hp
    obtain ⟨e, -, -, -, ⟨kvs, htext⟩, -⟩ := exists_left_of_forall₂ hE p hp
    obtain ⟨hbrace, hnl⟩ := hjson kvs
    rw [← htext] at hbrace hnl
    exact ⟨newline_notMem_friedLine hnl _, parseFried_friedLine hhex hbrace p.1.size⟩
  refine ⟨(E.map fun p => friedLine p.2 p.1.buf ++ [newline]).flatten, E, ?_, ?_, fun p => ⟨?_, ?_⟩, ?_⟩
  · unfold exportFried
    rw [mapM_of_forall₂ hrecord hE]
    rfl
  · have hnewline : ∀ l ∈ E.map fun p => friedLine p.2 p.1.buf, newline ∉ l := by
      intro l hl
      obtain ⟨p, hp, rfl⟩ := List.mem_map.mp hl
      exact (hline p hp).1
    have hsplit := getLines_lines hnewline
    rw [List.map_map] at hsplit
    rw [show (fun p : StoredEvent => friedLine p.2 p.1.buf ++ [newline]) =
      (fun l => l ++ [newline]) ∘ fun p : StoredEvent => friedLine p.2 p.1.buf from rfl, hsplit, List.map_map]
    exact List.map_congr_left fun p hp => (hline p hp).2
  · intro hp
    obtain ⟨e, -, hv, hpay, -, -⟩ := exists_left_of_forall₂ hE p hp
    exact ⟨e.2, hv, hpay⟩
  · rintro ⟨lev, hv, hpay⟩
    obtain ⟨q, hq, hv', hpay', -, -⟩ := exists_right_of_forall₂ hE (toSv p.1.createdAt, lev)
      ((mem_exportWalk h.fit reverse _).mpr ⟨p.1, hv, rfl⟩)
    have h1 := db.event.row_unique hv hv'
    have h2 := (List.cons.inj (db.eventPayload.row_unique hpay hpay')).2
    rw [Prod.ext h1 h2]
    exact hq
  · refine nodup_of_forall₂ (f := fun p : StoredEvent => p.1.id) ?_ hE (nodup_exportWalk db reverse)
    rintro e p e' p' ⟨hv, -, -, hk⟩ ⟨hv', -, -, hk'⟩ hid
    have hrow := h.ids _ hv _ hv' hid
    refine Prod.ext ?_ (congrArg Prod.fst hrow)
    rw [hk, hk', show p.1 = p'.1 from congrArg Prod.snd hrow]

end Strfry
