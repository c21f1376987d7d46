import Mathlib.Algebra.Ring.Nat
import Phrasebook.Corpus

/-!
# What becomes of an entry

The loop that builds a corpus carries its diagnostics, its blocks and its counts along. What it adds
at an entry depends on the entry alone (`report_entryStep`), so that the report on a mapping can be
written down without the loop (`build_map`).
-/

namespace Phrasebook.Corpus

/-- The phrases of one template of an intent, or what is wrong with it. -/
def phrasesOf (file : Option Text) (path : Text) : Datum → Except Diagnostic (List Text)
  | .text t =>
    match Template.expand t with
    | .ok phrases => .ok phrases
    | .error f => .error ((Diagnostic.ofTemplate f).located file (some path))
  | d => .error (notTemplate file path d)

/-- What the templates of one intent come to. -/
structure Section where
  name : Text
  /-- The number of templates, those left out included. -/
  templates : Nat
  phrases : List Text
  errors : List Diagnostic
  deriving DecidableEq, Repr

def Section.text (s : Section) : Text :=
  s.phrases.flatMap (line s.name)

inductive Outcome where
  | skipped (error : Diagnostic)
  | kept (contents : Section)
  deriving DecidableEq, Repr

def results (file : Option Text) (key : Key) (value : Datum) (templates : List Datum) :
    List (Except Diagnostic (List Text)) :=
  templates.mapIdx fun j d => phrasesOf file (templatePath key value j) d

def allPhrases (rs : List (Except Diagnostic (List Text))) : List Text :=
  rs.flatMap fun r => match r with
    | .ok phrases => phrases
    | .error _ => []

def allErrors (rs : List (Except Diagnostic (List Text))) : List Diagnostic :=
  rs.filterMap fun r => match r with
    | .ok _ => none
    | .error e => some e

/-- Judges an entry by its key, then by its value, then template by template. -/
def Outcome.ofEntry (file : Option Text) (entry : Key × Datum) : Outcome :=
  match entry.1 with
  | .text name =>
    match templates? entry.2 with
    | none => .skipped ⟨.input, "E_INVALID_TEMPLATES".toText,
        "templates must be a string or a list of strings, got ".toText ++ entry.2.typeName,
        file, some (intentPath entry.1)⟩
    | some ds =>
      let rs := results file entry.1 entry.2 ds
      .kept ⟨name, ds.length, allPhrases rs, allErrors rs⟩
  | key => .skipped ⟨.input, "E_INVALID_INTENT_NAME".toText,
      "intent name must be a string, got ".toText ++ key.typeName, file, some (intentPath key)⟩

def Outcome.errors : Outcome → List Diagnostic
  | skipped e => [e]
  | kept s => s.errors

def Outcome.phrases : Outcome → List Text
  | skipped _ => []
  | kept s => s.phrases

def Outcome.phraseCount? : Outcome → Option (Text × Nat)
  | skipped _ => none
  | kept s => some (s.name, s.phrases.length)

/-- The lines that an entry adds to the corpus, with an empty line after them if more entries of
the mapping follow. -/
def Outcome.text (more : Bool) : Outcome → Text
  | skipped _ => []
  | kept s => if more then s.text ++ [char '\n'] else s.text

def Outcome.log : Outcome → List LogRecord
  | skipped e => [⟨.warning, "skipping intent: ".toText ++ e.render⟩]
  | kept s =>
    s.errors.map (fun e => ⟨.warning, "skipping template: ".toText ++ e.render⟩) ++
      [⟨.debug, "intent ".toText ++ s.name ++ ": ".toText ++ Text.ofNat s.phrases.length ++
        " phrases from ".toText ++ Text.ofNat s.templates ++ " templates".toText⟩]

inductive EntryKind : Key × Datum → Prop
  | intent {name : Text} {value : Datum} {ds : List Datum} (h : templates? value = some ds) :
      EntryKind (.text name, value)
  | shapeless {name : Text} {value : Datum} (h : templates? value = none) :
      EntryKind (.text name, value)
  | nameless {key : Key} {value : Datum} (h : ∀ name, key ≠ .text name) : EntryKind (key, value)

lemma entryKind (e : Key × Datum) : EntryKind e := by
  obtain ⟨key, value⟩ := e
  by_cases hkey : ∃ name, key = .text name
  · obtain ⟨name, rfl⟩ := hkey
    cases h : templates? value with
    | none => exact .shapeless h
    | some ds => exact .intent h
  · exact .nameless fun name hname => hkey ⟨name, hname⟩

section Kinds

variable {name : Text} {key : Key} {value : Datum} {ds : List Datum}

lemma ofEntry_of_intent (file : Option Text) (h : templates? value = some ds) :
    Outcome.ofEntry file (.text name, value) = .kept ⟨name, ds.length,
      allPhrases (results file (.text name) value ds),
      allErrors (results file (.text name) value ds)⟩ := by
  simp [Outcome.ofEntry, h]

lemma ofEntry_of_shapeless (file : Option Text) (h : templates? value = none) :
    Outcome.ofEntry file (.text name, value) = .skipped ⟨.input, "E_INVALID_TEMPLATES".toText,
      "templates must be a string or a list of strings, got ".toText ++ value.typeName, file,
      some (intentPath (.text name))⟩ := by
  simp [Outcome.ofEntry, h]

lemma ofEntry_of_nameless (file : Option Text) (h : ∀ name, key ≠ .text name) :
    Outcome.ofEntry file (key, value) = .skipped ⟨.input, "E_INVALID_INTENT_NAME".toText,
      "intent name must be a string, got ".toText ++ key.typeName, file,
      some (intentPath key)⟩ := by
  unfold Outcome.ofEntry
  split
  · rename_i heq
    exact absurd heq (h _)
  · rfl

end Kinds

def layout : List Outcome → Text
  | [] => []
  | [o] => o.text false
  | o :: os => o.text true ++ layout os

def Report.ofOutcomes (os : List Outcome) : Report where
  corpus := layout os
  lineCount := (os.map fun o => o.phrases.length).foldr (· + ·) 0
  phraseCounts := os.filterMap Outcome.phraseCount?
  errors := os.flatMap Outcome.errors
  log := os.flatMap Outcome.log

/-- The report that goes on with what another one reports. -/
def Report.append (r s : Report) : Report where
  corpus := r.corpus ++ s.corpus
  lineCount := r.lineCount + s.lineCount
  phraseCounts := r.phraseCounts ++ s.phraseCounts
  errors := r.errors ++ s.errors
  log := r.log ++ s.log

/-- What an entry adds to a report. -/
def Outcome.report (more : Bool) (o : Outcome) : Report where
  corpus := o.text more
  lineCount := o.phrases.length
  phraseCounts := o.phraseCount?.toList
  errors := o.errors
  log := o.log

lemma Report.append_assoc (r s t : Report) : (r.append s).append t = r.append (s.append t) := by
  simp [append, Nat.add_assoc]

lemma ofOutcomes_single (o : Outcome) : Report.ofOutcomes [o] = o.report false := by
  simp only [Report.ofOutcomes, Outcome.report, layout, List.filterMap_cons, List.filterMap_nil]
  cases o.phraseCount? <;> simp

lemma ofOutcomes_cons (o : Outcome) {os : List Outcome} (h : os ≠ []) :
    Report.ofOutcomes (o :: os) = (o.report true).append (Report.ofOutcomes os) := by
  obtain ⟨o', os, rfl⟩ := List.exists_cons_of_ne_nil h
  simp only [Report.ofOutcomes, Outcome.report, Report.append, layout, List.filterMap_cons]
  cases o.phraseCount? <;> simp

lemma allPhrases_append (rs ss : List (Except Diagnostic (List Text))) :
    allPhrases (rs ++ ss) = allPhrases rs ++ allPhrases ss :=
  List.flatMap_append

lemma allErrors_append (rs ss : List (Except Diagnostic (List Text))) :
    allErrors (rs ++ ss) = allErrors rs ++ allErrors ss :=
  List.filterMap_append

/-- What has been gathered, after templates that came to these results. -/
def Progress.met (p : Progress) (rs : List (Except Diagnostic (List Text))) : Progress :=
  { p with
    errors := p.errors ++ allErrors rs
    log := p.log ++
      (allErrors rs).map fun e => ⟨.warning, "skipping template: ".toText ++ e.render⟩ }

lemma Progress.met_append (p : Progress) (rs ss : List (Except Diagnostic (List Text))) :
    (p.met rs).met ss = p.met (rs ++ ss) := by
  simp [met, allErrors_append]

section Templates

variable (file : Option Text) (key : Key) (name : Text) (value : Datum)

/-- One template adds its lines, or a diagnostic with its warning. -/
lemma templateStep_eq (p : Progress) (lines : List Text) (d : Datum) (j : Nat) :
    templateStep file key name value (p, lines) (d, j) =
      (p.met [phrasesOf file (templatePath key value j) d],
        lines ++ (allPhrases [phrasesOf file (templatePath key value j) d]).map (line name)) := by
  have hskip (e : Diagnostic) : p.skip "template" e = p.met [.error e] := rfl
  have hnone (phrases : List Text) : p.met [.ok phrases] = p := by
    simp [Progress.met, allErrors]
  dsimp only [templateStep, phrasesOf]
  split
  · rename_i t
    cases h : Template.expand t with
    | ok phrases => simp [h, hnone, allPhrases]
    | error f => simp [h, hskip, allPhrases]
  · simp [hskip, allPhrases]

lemma foldl_templateStep (p : Progress) (lines : List Text) (templates : List Datum) (k : Nat) :
    (templates.zipIdx k).foldl (templateStep file key name value) (p, lines) =
      let rs := (templates.zipIdx k).map fun d => phrasesOf file (templatePath key value d.2) d.1
      (p.met rs, lines ++ (allPhrases rs).map (line name)) := by
  induction templates generalizing p lines k with
  | nil => simp [Progress.met, allErrors, allPhrases]
  | cons d templates ih =>
    rw [List.zipIdx_cons, List.foldl_cons, templateStep_eq, ih, List.map_cons]
    simp only [Progress.met_append, List.append_assoc, ← List.map_append, ← allPhrases_append,
      List.singleton_append]

lemma results_eq_zipIdx (templates : List Datum) :
    results file key value templates =
      templates.zipIdx.map fun d => phrasesOf file (templatePath key value d.2) d.1 := by
  rw [results, List.mapIdx_eq_zipIdx_map]

end Templates

section Entries

variable (file : Option Text) (size : Nat)

lemma report_skip (p : Progress) (more : Bool) (e : Diagnostic) :
    (p.skip "intent" e).report = p.report.append ((Outcome.skipped e).report more) := by
  simp only [Progress.skip, Progress.report, Report.append, Outcome.report, Outcome.phraseCount?,
    Outcome.phrases, Outcome.text, Outcome.errors, Outcome.log, List.append_nil, Option.toList_none,
    List.length_nil, Nat.add_zero]
  rfl

/-- What the loop adds at an entry is the outcome of the entry, whatever came before. -/
lemma report_entryStep (p : Progress) (entry : Key × Datum) (number : Nat) :
    (entryStep file size p (entry, number)).report =
      p.report.append ((Outcome.ofEntry file entry).report (number < size)) := by
  cases entryKind entry with
  | @intent name value ds h =>
    rw [ofEntry_of_intent file h]
    simp only [entryStep, h, foldl_templateStep, ← results_eq_zipIdx, Progress.met, Progress.report,
      Report.append, Outcome.report, Outcome.phraseCount?, Outcome.phrases, Outcome.text,
      Outcome.errors, Outcome.log, Section.text, Option.toList_some, List.nil_append,
      List.length_map, List.append_assoc, List.flatten_append, List.flatten_singleton,
      List.flatMap_def, decide_eq_true_eq]
    split <;> simp
  | shapeless h =>
    simp only [ofEntry_of_shapeless file h, entryStep, h]
    exact report_skip p _ _
  | nameless h =>
    rw [ofEntry_of_nameless file h]
    dsimp only [entryStep]
    split
    · rename_i name
      exact absurd rfl (h name)
    · exact report_skip p _ _

/-- The loop over the entries that are left, numbered on from where it stands. -/
lemma report_foldl (p : Progress) (entries : Entries) (k : Nat)
    (hk : k + entries.length = size + 1) :
    ((entries.zipIdx k).foldl (entryStep file size) p).report =
      p.report.append (.ofOutcomes (entries.map (Outcome.ofEntry file))) := by
  induction entries generalizing p k with
  | nil => simp [Report.append, Report.ofOutcomes, layout]
  | cons e entries ih =>
    rw [List.length_cons] at hk
    rw [List.zipIdx_cons, List.foldl_cons, ih _ _ (by omega), report_entryStep, List.map_cons,
      Report.append_assoc]
    cases entries with
    | nil =>
      have hlast : ¬k < size := by simp at hk; omega
      rw [List.map_nil, ofOutcomes_single, decide_eq_false hlast]
      simp [Report.append, Report.ofOutcomes, layout]
    | cons e' entries =>
      have hmore : k < size := by simp at hk; omega
      rw [ofOutcomes_cons _ (by simp), decide_eq_true hmore]

end Entries

/-- The report on a mapping, without the loop. -/
lemma build_map (file : Option Text) {entries : Entries} (h : entries ≠ []) :
    build file (.map entries) = .ofOutcomes (entries.map (Outcome.ofEntry file)) := by
  obtain ⟨e, entries, rfl⟩ := List.exists_cons_of_ne_nil h
  rw [build, report_foldl file _ _ (e :: entries) 1 (Nat.add_comm ..)]
  · simp [Progress.report, Report.append]
  · simp

lemma build_single (file : Option Text) (e : Key × Datum) :
    build file (.map [e]) = .ofOutcomes [Outcome.ofEntry file e] :=
  build_map file (List.cons_ne_nil e [])

end Phrasebook.Corpus
