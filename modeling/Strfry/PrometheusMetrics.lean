import Strfry.Bytes
import Strfry.Lib.Exposition

/-!
# Metrics

`PrometheusMetrics` (`PrometheusMetrics.h`): three counters with labels and the text `render`
makes of them.  A `LabeledCounter` is a `std::map` from labels to `uint64_t`s, in label order; a
label that is not there yet is added by `inc`.

`render` writes two comment lines for each metric and one line for each of its labels, with the
label between quotes and as it is.  So what is read back from the text is what was counted exactly
when no label has a quote or an end of line in it (`Metrics.faithful_iff`).
-/

namespace Strfry

theorem ascii_append (s t : String) : ascii (s ++ t) = ascii s ++ ascii t := by
  simp [ascii]

theorem ascii_toString (n : Nat) : ascii (toString n) = Exposition.number n := by
  simp [ascii, Exposition.number]

structure LabeledCounter where
  counters : List (Bytes × Nat) := []
  sorted : counters.Pairwise fun a b => a.1 < b.1 := by exact .nil

namespace LabeledCounter

def incCounters (label : Bytes) : List (Bytes × Nat) → List (Bytes × Nat)
  | [] => [(label, 1)]
  | c :: cs =>
    if label < c.1 then (label, 1) :: c :: cs
    else if label = c.1 then (c.1, addU64 c.2 1) :: cs
    else c :: incCounters label cs

theorem mem_incCounters {label l : Bytes} {cs : List (Bytes × Nat)} :
    l ∈ (incCounters label cs).map Prod.fst ↔ l = label ∨ l ∈ cs.map Prod.fst := by
  induction cs with
  | nil => simp [incCounters]
  | cons c cs ih =>
    unfold incCounters
    split
    · simp
    · split
      · rename_i hlabel
        rw [List.map_cons, List.map_cons, List.mem_cons, hlabel]
        constructor
        · exact Or.inr
        · rintro (rfl | h)
          · exact Or.inl rfl
          · exact h
      · rw [List.map_cons, List.map_cons, List.mem_cons, List.mem_cons, ih]
        exact or_left_comm

theorem pairwise_incCounters {label : Bytes} {cs : List (Bytes × Nat)} (h : cs.Pairwise fun a b => a.1 < b.1) :
    (incCounters label cs).Pairwise fun a b => a.1 < b.1 := by
  induction cs with
  | nil => exact List.pairwise_singleton _ _
  | cons c cs ih =>
    obtain ⟨hc, hcs⟩ := List.pairwise_cons.mp h
    unfold incCounters
    split
    · rename_i hlt
      refine List.pairwise_cons.mpr ⟨fun d hd => ?_, h⟩
      rcases List.mem_cons.mp hd with rfl | hd
      · exact hlt
      · exact lt_trans hlt (hc d hd)
    · split
      · exact List.pairwise_cons.mpr ⟨hc, hcs⟩
      · rename_i hnlt hne
        refine List.pairwise_cons.mpr ⟨fun d hd => ?_, ih hcs⟩
        have hd : d.1 ∈ (incCounters label cs).map Prod.fst := List.mem_map_of_mem hd
        rcases mem_incCounters.mp hd with hd | hd
        · rw [hd]
          exact lt_of_le_of_ne (not_lt.mp hnlt) fun h => hne h.symm
        · obtain ⟨e, he, hed⟩ := List.mem_map.mp hd
          rw [← hed]
          exact hc e he

def inc (c : LabeledCounter) (label : Bytes) : LabeledCounter where
  counters := incCounters label c.counters
  sorted := pairwise_incCounters c.sorted

def getAll (c : LabeledCounter) : List (Bytes × Nat) := c.counters

/-- Every label can be read back. -/
def Clean (c : LabeledCounter) : Prop := ∀ x ∈ c.getAll, Exposition.CleanLabel x.1

theorem clean_inc {c : LabeledCounter} {label : Bytes} :
    (c.inc label).Clean ↔ Exposition.CleanLabel label ∧ c.Clean := by
  have hmap : ∀ c : LabeledCounter, c.Clean ↔ ∀ l ∈ c.counters.map Prod.fst, Exposition.CleanLabel l :=
    fun c => List.forall_mem_map.symm
  rw [hmap, hmap]
  constructor
  · intro h
    exact ⟨h label (mem_incCounters.mpr (Or.inl rfl)), fun l hl => h l (mem_incCounters.mpr (Or.inr hl))⟩
  · rintro ⟨hlabel, h⟩ l hl
    rcases mem_incCounters.mp hl with rfl | hl
    · exact hlabel
    · exact h l hl

end LabeledCounter

structure Metrics where
  nostrClientMessages : LabeledCounter := {}
  nostrRelayMessages : LabeledCounter := {}
  nostrEventsByKind : LabeledCounter := {}

/-- The part of `render` about one metric. -/
def renderCounters (name key help : String) (counters : List (Bytes × Nat)) : Bytes :=
  ascii ("# HELP " ++ name ++ " " ++ help ++ "\n") ++ ascii ("# TYPE " ++ name ++ " counter\n") ++
    counters.flatMap fun c =>
      ascii (name ++ "\x7b" ++ key ++ "=\"") ++ c.1 ++ ascii "\"\x7d " ++ ascii (toString c.2) ++ ascii "\n"

def Metrics.render (m : Metrics) : Bytes :=
  renderCounters "nostr_client_messages_total" "verb" "Total number of Nostr client messages by verb"
    m.nostrClientMessages.getAll ++
  renderCounters "nostr_relay_messages_total" "verb" "Total number of Nostr relay messages by verb"
    m.nostrRelayMessages.getAll ++
  renderCounters "nostr_events_total" "kind" "Total number of Nostr events by kind" m.nostrEventsByKind.getAll

/-! ## What the text should say -/

/-- The HELP and TYPE lines of a metric and a line for each label. -/
def counterLines (name key help : String) (counters : List (Bytes × Nat)) : List Exposition.Line :=
  .comment (ascii (" HELP " ++ name ++ " " ++ help)) :: .comment (ascii (" TYPE " ++ name ++ " counter")) ::
    counters.map fun c => .sample (ascii name) (ascii key) c.1 c.2

def Metrics.lines (m : Metrics) : List Exposition.Line :=
  counterLines "nostr_client_messages_total" "verb" "Total number of Nostr client messages by verb"
    m.nostrClientMessages.getAll ++
  counterLines "nostr_relay_messages_total" "verb" "Total number of Nostr relay messages by verb"
    m.nostrRelayMessages.getAll ++
  counterLines "nostr_events_total" "kind" "Total number of Nostr events by kind" m.nostrEventsByKind.getAll

/-- The counters of a metric, from the lines. -/
def samplesOf (name : String) (ls : List Exposition.Line) : List (Bytes × Nat) :=
  ls.filterMap fun
    | .sample n _ label value => if n = ascii name then some (label, value) else none
    | .comment _ => none

/-- The text is read as the HELP and TYPE lines and one line for each counter, and the counters are
recovered from these. -/
structure Metrics.Faithful (m : Metrics) : Prop where
  read : Exposition.read m.render = some m.lines
  client : samplesOf "nostr_client_messages_total" m.lines = m.nostrClientMessages.getAll
  relay : samplesOf "nostr_relay_messages_total" m.lines = m.nostrRelayMessages.getAll
  events : samplesOf "nostr_events_total" m.lines = m.nostrEventsByKind.getAll

theorem samplesOf_append (name : String) (ls ls' : List Exposition.Line) :
    samplesOf name (ls ++ ls') = samplesOf name ls ++ samplesOf name ls' := List.filterMap_append

theorem samplesOf_counterLines (metric name key help : String) (counters : List (Bytes × Nat)) :
    samplesOf metric (counterLines name key help counters) = if ascii name = ascii metric then counters else [] := by
  unfold samplesOf counterLines
  rw [List.filterMap_cons_none rfl, List.filterMap_cons_none rfl, List.filterMap_map]
  split
  · rename_i h
    have hsome : ∀ c ∈ counters, ((fun x : Exposition.Line => match x with
        | .sample n _ label value => if n = ascii metric then some (label, value) else none
        | .comment _ => none) ∘ fun c : Bytes × Nat => .sample (ascii name) (ascii key) c.1 c.2) c = some c :=
      fun c _ => if_pos h
    rw [List.filterMap_congr hsome, List.filterMap_some]
  · rename_i h
    exact List.filterMap_eq_nil_iff.mpr fun c _ => if_neg h

theorem renderCounters_eq (name key help : String) (counters : List (Bytes × Nat)) :
    renderCounters name key help counters = Exposition.render (counterLines name key help counters) := by
  have hnl : ascii "\n" = [Exposition.newline] := by decide
  have hsamples : ∀ c : Bytes × Nat, ascii (name ++ "\x7b" ++ key ++ "=\"") ++ c.1 ++ ascii "\"\x7d " ++
      ascii (toString c.2) ++ ascii "\n" =
      (Exposition.Line.sample (ascii name) (ascii key) c.1 c.2).text ++ [Exposition.newline] := by
    intro c
    have hquote : ascii "=\"" = [Exposition.equals, Exposition.quote] := by decide
    have hopen : ascii "\x7b" = [Exposition.openBrace] := by decide
    have hclose : ascii "\"\x7d " = [Exposition.quote, 125, 32] := by decide
    rw [ascii_toString]
    simp only [ascii_append, hquote, hopen, hclose, hnl, Exposition.Line.text, Exposition.head, List.append_assoc,
      List.cons_append, List.nil_append]
  have hhelp : ascii "# HELP " = Exposition.hash :: ascii " HELP " := by decide
  have htype : ascii "# TYPE " = Exposition.hash :: ascii " TYPE " := by decide
  have hcounter : ascii " counter\n" = ascii " counter" ++ [Exposition.newline] := by decide
  unfold renderCounters counterLines Exposition.render Exposition.unlines
  rw [List.map_cons, List.map_cons, List.flatMap_cons, List.flatMap_cons, List.map_map, List.flatMap_map]
  simp only [hsamples]
  simp only [Exposition.Line.text, ascii_append, hhelp, htype, hcounter, hnl, List.append_assoc,
    List.cons_append, List.nil_append, Function.comp_apply]

/-- The text is that of the lines. -/
theorem Metrics.render_eq (m : Metrics) : m.render = Exposition.render m.lines := by
  unfold Metrics.render Metrics.lines
  rw [renderCounters_eq, renderCounters_eq, renderCounters_eq]
  simp [Exposition.render, Exposition.unlines]

/-- A metric whose name, label name and comments have nothing in them that ends a part of a line. -/
def ProperMetric (name key help : String) : Prop :=
  Exposition.newline ∉ ascii (" HELP " ++ name ++ " " ++ help) ∧
  Exposition.newline ∉ ascii (" TYPE " ++ name ++ " counter") ∧
  (Exposition.Line.sample (ascii name) (ascii key) [] 0).Proper

instance (name key help : String) : Decidable (ProperMetric name key help) :=
  inferInstanceAs (Decidable (_ ∧ _ ∧ _))

theorem counterLines_proper {name key help : String} (h : ProperMetric name key help)
    (counters : List (Bytes × Nat)) : ∀ l ∈ counterLines name key help counters, l.Proper := by
  intro l hl
  rcases List.mem_cons.mp hl with rfl | hl
  · exact h.1
  · rcases List.mem_cons.mp hl with rfl | hl
    · exact h.2.1
    · obtain ⟨c, -, rfl⟩ := List.mem_map.mp hl
      exact h.2.2

theorem counterLines_clean {name key help : String} {counters : List (Bytes × Nat)} :
    (∀ l ∈ counterLines name key help counters, l.Clean) ↔ ∀ c ∈ counters, Exposition.CleanLabel c.1 := by
  unfold counterLines
  rw [List.forall_mem_cons, List.forall_mem_cons, List.forall_mem_map]
  constructor
  · intro h
    exact h.2.2
  · intro h
    exact ⟨trivial, trivial, h⟩

theorem Metrics.lines_proper (m : Metrics) : ∀ l ∈ m.lines, l.Proper := by
  intro l hl
  unfold Metrics.lines at hl
  rcases List.mem_append.mp hl with hl | hl
  · rcases List.mem_append.mp hl with hl | hl
    · exact counterLines_proper (by decide) _ l hl
    · exact counterLines_proper (by decide) _ l hl
  · exact counterLines_proper (by decide) _ l hl

/-- **Metrics text.**  It can be read back when every label can. -/
theorem Metrics.faithful_iff (m : Metrics) : m.Faithful ↔
    m.nostrClientMessages.Clean ∧ m.nostrRelayMessages.Clean ∧ m.nostrEventsByKind.Clean := by
  have hread : Exposition.read m.render = some m.lines ↔
      m.nostrClientMessages.Clean ∧ m.nostrRelayMessages.Clean ∧ m.nostrEventsByKind.Clean := by
    rw [m.render_eq, Exposition.read_render m.lines_proper]
    unfold Metrics.lines
    rw [List.forall_mem_append, List.forall_mem_append, counterLines_clean, counterLines_clean, counterLines_clean,
      and_assoc]
    exact Iff.rfl
  rw [← hread]
  constructor
  · exact fun h => h.read
  · intro h
    have hnames : ascii "nostr_relay_messages_total" ≠ ascii "nostr_client_messages_total" ∧
        ascii "nostr_events_total" ≠ ascii "nostr_client_messages_total" ∧
        ascii "nostr_events_total" ≠ ascii "nostr_relay_messages_total" := by decide
    obtain ⟨hrc, hec, her⟩ := hnames
    refine ⟨h, ?_, ?_, ?_⟩
    all_goals
      unfold Metrics.lines
      simp only [samplesOf_append, samplesOf_counterLines, hrc, hec, her, hrc.symm, hec.symm, her.symm, if_true,
        if_false, List.append_nil, List.nil_append]

end Strfry
