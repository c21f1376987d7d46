import Phrasebook.Proofs.Reporting
import Phrasebook.Proofs.Tallying

/-!
# The log of a corpus

While a corpus is built, each error is warned of when it is met, and each intent is recorded when
its templates are done. So the warnings of the log are those of the errors of the report, the other
records are those of its counts, and the records of an entry stand together: its warnings first,
all that belongs to the entries before it in front of them (`log_traces_report`).
-/

namespace Phrasebook.Corpus

/-- The record that an intent has so many phrases from so many templates. -/
def builtRecord (name : Text) (phrases templates : Nat) : LogRecord :=
  ⟨.debug, "intent ".toText ++ name ++ ": ".toText ++ Text.ofNat phrases ++
    " phrases from ".toText ++ Text.ofNat templates ++ " templates".toText⟩

/-- The record of an intent. -/
def recordOf (i : Lint.Intent) : LogRecord :=
  builtRecord i.name (rowPhrases i.templates).length i.templates.length

/-- A warning ends with what it warns of. -/
structure Warns (r : LogRecord) (e : Diagnostic) : Prop where
  level : r.level = .warning
  ends : e.render <:+ r.text

def warnings (log : List LogRecord) : List LogRecord :=
  log.filter fun r => r.level = .warning

def debugs (log : List LogRecord) : List LogRecord :=
  log.filter fun r => r.level = .debug

/-- The errors of a row of entries, in the order in which they are met. -/
def skipErrors (file : Option Text) (entries : Entries) : List Diagnostic :=
  (entries.flatMap Skip.ofEntry).map (Skip.diagnostic file)

/-- The log has a warning for each error of these entries, and a record for each of their
intents. -/
structure Logs (file : Option Text) (entries : Entries) (log : List LogRecord) : Prop where
  warnings : List.Forall₂ Warns (warnings log) (skipErrors file entries)
  debugs : debugs log = (Lint.intents entries).map recordOf

/-- The log of a corpus traces the report. -/
structure TracesReport (file : Option Text) (entries : Entries) : Prop where
  warnings : List.Forall₂ Warns (warnings (build file (.map entries)).log)
    (build file (.map entries)).errors
  debugs : debugs (build file (.map entries)).log = (Lint.intents entries).map recordOf
  counts : (build file (.map entries)).phraseCounts =
    (Lint.intents entries).map fun i => (i.name, (rowPhrases i.templates).length)
  /-- The warnings of an entry and then its record, if it is an intent, stand between what the log
  has of the entries before it and what it has of those behind it. -/
  placed : ∀ before e after, entries = before ++ e :: after → ∃ earlier own later,
    (build file (.map entries)).log =
        earlier ++ (own ++ (Lint.Intent.ofEntry? e).toList.map recordOf) ++ later ∧
      List.Forall₂ Warns own (skipErrors file [e]) ∧
      Logs file before earlier ∧ Logs file after later

section Records

variable {file : Option Text} {log log' own : List LogRecord} {es : List Diagnostic}

@[simp]
lemma warnings_append : warnings (log ++ log') = warnings log ++ warnings log' :=
  List.filter_append ..

@[simp]
lemma debugs_append : debugs (log ++ log') = debugs log ++ debugs log' :=
  List.filter_append ..

@[simp]
lemma skipErrors_append (entries more : Entries) :
    skipErrors file (entries ++ more) = skipErrors file entries ++ skipErrors file more := by
  simp [skipErrors]

lemma level_of_warns (h : List.Forall₂ Warns own es) : ∀ r ∈ own, r.level = .warning := by
  induction h with
  | nil => simp
  | cons hwarns _ ih => exact List.forall_mem_cons.2 ⟨hwarns.level, ih⟩

lemma warnings_of_warns (h : List.Forall₂ Warns own es) : warnings own = own :=
  List.filter_eq_self.2 fun r hr => decide_eq_true (level_of_warns h r hr)

lemma debugs_of_warns (h : List.Forall₂ Warns own es) : debugs own = [] := by
  refine List.filter_eq_nil_iff.2 fun r hr => ?_
  simp [level_of_warns h r hr]

lemma warnings_records (is : List Lint.Intent) : warnings (is.map recordOf) = [] := by
  refine List.filter_eq_nil_iff.2 fun r hr => ?_
  obtain ⟨i, -, rfl⟩ := List.mem_map.1 hr
  exact Bool.false_ne_true

lemma debugs_records (is : List Lint.Intent) : debugs (is.map recordOf) = is.map recordOf := by
  refine List.filter_eq_self.2 fun r hr => ?_
  obtain ⟨i, -, rfl⟩ := List.mem_map.1 hr
  rfl

lemma warns_map (head : Text) (es : List Diagnostic) :
    List.Forall₂ Warns (es.map fun e => ⟨.warning, head ++ e.render⟩) es := by
  rw [List.forall₂_map_left_iff, List.forall₂_same]
  exact fun e _ => ⟨rfl, List.suffix_append ..⟩

end Records

/-- An entry is warned of for each of its errors, and then recorded if it is an intent. -/
theorem log_of_entry (file : Option Text) (e : Key × Datum) :
    ∃ own, (Outcome.ofEntry file e).log = own ++ (Lint.Intent.ofEntry? e).toList.map recordOf ∧
      List.Forall₂ Warns own (skipErrors file [e]) := by
  have herrors : skipErrors file [e] = (Outcome.ofEntry file e).errors := by
    rw [skipErrors, List.flatMap_singleton, Skip.errors_of_entry]
  rw [herrors]
  cases entryKind e with
  | @intent name value ds h =>
    rw [ofEntry_of_intent file h, Lint.ofEntry?_of_intent h, results,
      phrases_of_row file (templatePath (.text name) value)]
    exact ⟨_, rfl, warns_map _ _⟩
  | shapeless h =>
    rw [ofEntry_of_shapeless file h, Lint.ofEntry?_of_shapeless h]
    exact ⟨_, (List.append_nil _).symm, warns_map "skipping intent: ".toText [_]⟩
  | nameless h =>
    rw [ofEntry_of_nameless file h, Lint.ofEntry?_of_nameless h]
    exact ⟨_, (List.append_nil _).symm, warns_map "skipping intent: ".toText [_]⟩

def logOf (file : Option Text) (entries : Entries) : List LogRecord :=
  entries.flatMap fun e => (Outcome.ofEntry file e).log

lemma logs_of_entries (file : Option Text) (entries : Entries) :
    Logs file entries (logOf file entries) := by
  induction entries with
  | nil => exact ⟨.nil, rfl⟩
  | cons e entries ih =>
    obtain ⟨own, hlog, hown⟩ := log_of_entry file e
    have hintents : Lint.intents (e :: entries) =
        (Lint.Intent.ofEntry? e).toList ++ Lint.intents entries := by
      rw [Lint.intents, List.filterMap_cons]
      cases Lint.Intent.ofEntry? e <;> rfl
    rw [logOf, List.flatMap_cons, hlog, ← logOf]
    constructor
    · rw [warnings_append, warnings_append, warnings_of_warns hown, warnings_records,
        List.append_nil, ← List.singleton_append, skipErrors_append]
      exact List.rel_append hown ih.warnings
    · rw [debugs_append, debugs_append, debugs_of_warns hown, debugs_records, ih.debugs, hintents,
        List.map_append, List.nil_append]

lemma log_map (file : Option Text) {entries : Entries} (h : entries ≠ []) :
    (build file (.map entries)).log = logOf file entries := by
  rw [build_map file h, logOf, ← List.flatMap_map]
  rfl

/-- The log of a corpus is a faithful trace of the report on it. -/
theorem log_traces_report (file : Option Text) (entries : Entries) : TracesReport file entries where
  warnings := by
    by_cases h : entries = []
    · rw [h]
      exact .cons ⟨rfl, List.suffix_rfl⟩ .nil
    · rw [log_map file h, errors_map file h]
      exact (logs_of_entries file entries).warnings
  debugs := by
    by_cases h : entries = []
    · rw [h]
      rfl
    · rw [log_map file h]
      exact (logs_of_entries file entries).debugs
  counts := Command.phraseCounts_map file entries
  placed := by
    rintro before e after rfl
    obtain ⟨own, hlog, hown⟩ := log_of_entry file e
    refine ⟨logOf file before, own, logOf file after, ?_, hown, logs_of_entries file before,
      logs_of_entries file after⟩
    rw [log_map file (by simp), List.append_assoc, ← hlog]
    simp only [logOf, List.flatMap_append, List.flatMap_cons]

end Phrasebook.Corpus
