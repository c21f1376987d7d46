import Mathlib.Data.List.ReduceOption
import Phrasebook.Proofs.Judging
import Phrasebook.Proofs.Performing

/-!
# Counts that are printed and counts that are built

Counting an intents file goes through the mapping as building its corpus does, and prints the same
intents in the same order. It counts the phrases of the rows inside the row of an intent, which a
corpus leaves out (`stats_of_load`); where there are none, what is printed is what is built
(`counts_as_built`).
-/

namespace Phrasebook.Command

def countLine (c : Text × Nat) : Text :=
  "- ".toText ++ c.1 ++ ": ".toText ++ Text.ofNat c.2

def totalLine (total : Nat) : Text :=
  "Total: ".toText ++ Text.ofNat total

/-- The pieces that print the number of phrases of each intent and of all of them. -/
def countPieces (counts : List (Text × Nat)) (total : Nat) : List Piece :=
  counts.map (fun c => echoLine .out (countLine c)) ++ [echoLine .out (totalLine total)]

/-- The lines that give the number of phrases of each intent and of all of them. -/
def countLines (counts : List (Text × Nat)) (total : Nat) : Text :=
  (counts.flatMap fun c => printedLine (countLine c)) ++ printedLine (totalLine total)

/-- The diagnostics that counting has for a mapping. -/
def tallied (path : Text) (entries : Entries) : List Diagnostic :=
  (entries.foldl (Counting.step path) ⟨[], 0, []⟩).errors

/-- What is wrong with counting an item. -/
def itemError (file path : Text) (d : Datum) : Option Diagnostic :=
  match Request.count d with
  | .ok _ => none
  | .error f => some ((Diagnostic.ofRequest f).located (some file) (some path))

/-- What is wrong with counting an entry. -/
def entryErrors (file : Text) (e : Key × Datum) : List Diagnostic :=
  match e.1, Corpus.templates? e.2 with
  | .text _, some ds =>
    (ds.mapIdx fun j d => itemError file (Corpus.templatePath e.1 e.2 j) d).reduceOption
  | .text _, none => [uncounted file e "E_INVALID_TEMPLATES"]
  | _, _ => [uncounted file e "E_INVALID_INTENT_NAME"]

/-- The phrases that the templates of an intent generate, counted. -/
def generatedCount (i : Lint.Intent) : Text × Nat :=
  (i.name, (Lint.generated i.templates).length)

/-- What counting has printed and met, after these intents and diagnostics. -/
def Counting.after (c : Counting) (counts : List (Text × Nat)) (errors : List Diagnostic) :
    Counting where
  pieces := c.pieces ++ counts.map fun c => echoLine .out (countLine c)
  total := c.total + (counts.map Prod.snd).sum
  errors := c.errors ++ errors

lemma Counting.after_after (c : Counting) (ms ns : List (Text × Nat)) (ds es : List Diagnostic) :
    (c.after ms ds).after ns es = c.after (ms ++ ns) (ds ++ es) := by
  simp [after, Nat.add_assoc]

section Count

variable (path : Text)

lemma length_generated_cons (d : Datum) (ds : List Datum) :
    (Lint.generated (d :: ds)).length =
      (Request.count d).toOption.getD 0 + (Lint.generated ds).length := by
  rw [Request.count_eq_map_length, Lint.generated, Lint.generated]
  cases h : Request.expand d <;> simp [h, Except.toOption, Except.map]

lemma reduceOption_cons {α : Type} (o : Option α) (os : List (Option α)) :
    (o :: os).reduceOption = o.toList ++ os.reduceOption := by
  cases o <;> rfl

lemma step_tally (e : Key × Datum) (t : Tally) (d : Datum) (j : Nat) :
    t.step path e (d, j) =
      ⟨t.count + (Request.count d).toOption.getD 0,
        t.errors ++ (itemError path (Corpus.templatePath e.1 e.2 j) d).toList⟩ := by
  unfold Tally.step itemError
  cases Request.count d <;> simp [Except.toOption]

lemma foldl_tally (e : Key × Datum) (t : Tally) (ds : List Datum) (k : Nat) :
    (ds.zipIdx k).foldl (Tally.step path e) t =
      ⟨t.count + (Lint.generated ds).length, t.errors ++ ((ds.zipIdx k).map fun d =>
        itemError path (Corpus.templatePath e.1 e.2 d.2) d.1).reduceOption⟩ := by
  induction ds generalizing t k with
  | nil => simp [Lint.generated, List.reduceOption]
  | cons d ds ih =>
    rw [List.zipIdx_cons, List.foldl_cons, step_tally, ih, length_generated_cons, List.map_cons,
      reduceOption_cons, Nat.add_assoc, List.append_assoc]

/-- Counting an entry adds the line of its intent, and what is wrong with it. -/
lemma step_counting (c : Counting) (e : Key × Datum) :
    c.step path e =
      c.after ((Lint.Intent.ofEntry? e).toList.map generatedCount) (entryErrors path e) := by
  cases Corpus.entryKind e with
  | @intent name value ds h =>
    rw [Lint.ofEntry?_of_intent h]
    simp only [Counting.step, entryErrors, h, foldl_tally, List.mapIdx_eq_zipIdx_map]
    simp [Counting.after, generatedCount, countLine]
  | shapeless h =>
    rw [Lint.ofEntry?_of_shapeless h]
    simp [Counting.step, entryErrors, h, Counting.after]
  | @nameless key value h =>
    rw [Lint.ofEntry?_of_nameless h]
    dsimp only [Counting.step, entryErrors]
    split
    · exact absurd rfl (h _)
    · exact absurd rfl (h _)
    · simp [Counting.after]

lemma foldl_counting (c : Counting) (entries : Entries) :
    entries.foldl (Counting.step path) c =
      c.after ((Lint.intents entries).map generatedCount) (entries.flatMap (entryErrors path)) := by
  induction entries generalizing c with
  | nil => simp [Lint.intents, Counting.after]
  | cons e entries ih =>
    rw [List.foldl_cons, ih, step_counting, Counting.after_after, ← List.map_append, Lint.intents,
      Lint.intents, List.filterMap_cons, List.flatMap_cons]
    cases Lint.Intent.ofEntry? e <;> rfl

lemma tallied_eq (entries : Entries) :
    tallied path entries = entries.flatMap (entryErrors path) := by
  rw [tallied, foldl_counting]
  rfl

end Count

lemma phraseCounts_map (file : Option Text) (entries : Entries) :
    (Corpus.build file (.map entries)).phraseCounts =
      (Lint.intents entries).map fun i => (i.name, (Corpus.rowPhrases i.templates).length) := by
  rw [Corpus.phraseCounts_eq_filterMap, Lint.intents, List.map_filterMap]
  refine List.filterMap_congr fun e _ => ?_
  cases Corpus.entryKind e with
  | @intent name value ds h =>
    rw [Corpus.ofEntry_of_intent file h, Lint.ofEntry?_of_intent h, Corpus.results,
      Corpus.phrases_of_row file (Corpus.templatePath (.text name) value)]
    rfl
  | shapeless h =>
    rw [Corpus.ofEntry_of_shapeless file h, Lint.ofEntry?_of_shapeless h]
    rfl
  | nameless h =>
    rw [Corpus.ofEntry_of_nameless file h, Lint.ofEntry?_of_nameless h]
    rfl

lemma length_flatMap_entryPairs (phrases : List Datum → List Text) (entries : Entries) :
    (entries.flatMap (Corpus.entryPairs phrases)).length =
      ((Lint.intents entries).map fun i => (phrases i.templates).length).sum := by
  rw [Lint.flatMap_entryPairs, List.length_flatMap]
  simp only [List.length_map]

/-- A place where every path leads to one file, of characters of seven bits. -/
def oneFile (contents : String) : Load.Source :=
  fun _ => some (.file (contents.toList.map fun c => c.toNat.toUInt8))

lemma exists_loaded {α : Type} {yaml : Load.YamlReader} {files : Load.Source} {path : Text}
    {f : Entries → α} {a : α} (h : (Load.load yaml files path).toOption.map f = some a) :
    ∃ entries, Load.load yaml files path = .ok entries ∧ f entries = a := by
  cases hload : Load.load yaml files path with
  | error e => simp [hload, Except.toOption] at h
  | ok entries => exact ⟨entries, rfl, by simpa [hload, Except.toOption] using h⟩

/-- The script of a counting that printed these counts and met these diagnostics. -/
def countScript (counts : List (Text × Nat)) (total : Nat) (errors : List Diagnostic) : Script :=
  ⟨countPieces counts total ++ printErrors errors, if errors = [] then 0 else 2⟩

section Stats

variable {yaml : Load.YamlReader} {files : Load.Source} {path : Text} {entries : Entries}

lemma stats_of_load_generated (h : Load.load yaml files path = .ok entries) :
    stats yaml files path =
      countScript ((Lint.intents entries).map generatedCount) (Lint.mentions entries).length
        (tallied path entries) := by
  have htotal : ((Lint.intents entries).map generatedCount).map Prod.snd =
      (Lint.intents entries).map fun i => (Lint.generated i.templates).length := by
    simp [generatedCount]
  rw [stats, h]
  simp only [foldl_counting, tallied_eq, Counting.after, htotal, List.nil_append, Nat.zero_add,
    Lint.mentions, length_flatMap_entryPairs, List.isEmpty_iff]
  rfl

/-- What is printed is what is built, and the phrases of inner rows besides. -/
theorem stats_of_load (h : Load.load yaml files path = .ok entries) :
    stats yaml files path =
      countScript ((Lint.intents entries).map fun i => (i.name,
          (Corpus.rowPhrases i.templates).length + (i.templates.flatMap Lint.innerPhrases).length))
        ((Corpus.build (some path) (.map entries)).lineCount + (Lint.inner entries).length)
        (tallied path entries) := by
  have hcount : generatedCount = fun i : Lint.Intent => (i.name,
      (Corpus.rowPhrases i.templates).length + (i.templates.flatMap Lint.innerPhrases).length) := by
    funext i
    rw [generatedCount, (Lint.generated_perm _).length_eq, List.length_append]
  rw [stats_of_load_generated h, (Lint.mentions_perm entries).length_eq, List.length_append,
    Corpus.lineCount_map, hcount]

end Stats

section Shown

variable (counts : List (Text × Nat)) (total : Nat) (errors : List Diagnostic)

lemma shown_out_countScript :
    shown .out (countScript counts total errors).pieces = countLines counts total := by
  rw [countScript, countPieces, shown_append, shown_append, shown_lines, shown_line,
    shown_out_printErrors, List.append_nil, countLines]

lemma shown_err_countScript :
    shown .err (countScript counts total errors).pieces = diagnosticLines errors := by
  have hne : Stream.out ≠ .err := by decide
  rw [countScript, countPieces, shown_append, shown_append, shown_lines_of_ne .err hne, echoLine,
    shown_singleton_of_ne .err hne, shown_err_printErrors, List.append_nil, List.nil_append]

end Shown

/-- Counting a file prints the counts of its corpus: their lines are what is given to the printer,
before the lines of diagnostics, and where every text is printed they are what is printed. -/
structure CountsAsBuilt (packages : Packages) (files : Load.Source) (line : List Text)
    (report : Corpus.Report) : Prop where
  script : ∃ errors, run packages files line =
    (countScript report.phraseCounts report.lineCount errors).perform packages.echo
  stdout : packages.PrintsPlainly → ∃ out, run packages files line = .done out ∧
    out.stdout = countLines report.phraseCounts report.lineCount

/-- Where no inner row generates a phrase, what is printed is what is built. -/
theorem counts_as_built {packages : Packages} {files : Load.Source} {path : Text}
    {line : List Text} {entries : Entries}
    (hline : packages.commandLine line = .ok (.stats path))
    (hload : Load.load packages.yaml files path = .ok entries)
    (hinner : Lint.inner entries = []) :
    CountsAsBuilt packages files line (Corpus.build (some path) (.map entries)) := by
  have hrow : ∀ i ∈ Lint.intents entries, i.templates.flatMap Lint.innerPhrases = [] := by
    rw [Lint.inner, Lint.flatMap_entryPairs, List.flatMap_eq_nil_iff] at hinner
    exact fun i hi => List.map_eq_nil_iff.1 (hinner i hi)
  have hcounts : ((Lint.intents entries).map fun i => (i.name,
      (Corpus.rowPhrases i.templates).length + (i.templates.flatMap Lint.innerPhrases).length)) =
      (Corpus.build (some path) (.map entries)).phraseCounts := by
    rw [phraseCounts_map]
    refine List.map_congr_left fun i hi => ?_
    rw [hrow i hi, List.length_nil, Nat.add_zero]
  have hrun : run packages files line = (countScript
      (Corpus.build (some path) (.map entries)).phraseCounts
      (Corpus.build (some path) (.map entries)).lineCount (tallied path entries)).perform
        packages.echo := by
    rw [run_of_line hline, Invocation.script, stats_of_load hload, hcounts, hinner,
      List.length_nil, Nat.add_zero]
  refine ⟨⟨_, hrun⟩, fun hplain => ⟨_, hrun.trans (perform_of_plain hplain _), ?_⟩⟩
  exact shown_out_countScript _ _ _

/-- A row with an alternation, a number, a template that is not closed and an empty row in it. -/
theorem counts_as_built_mixed : ∃ entries,
    Packages.plain.commandLine ["stats".toText, "i.json".toText] = .ok (.stats "i.json".toText) ∧
    Load.load Packages.plain.yaml
      (oneFile "\x7b\"a\": [\"(x|y) z\", 5, \"(\", []], \"b\": 1, \"c\": []\x7d")
      "i.json".toText = .ok entries ∧
    Lint.inner entries = [] ∧
    CountsAsBuilt Packages.plain
      (oneFile "\x7b\"a\": [\"(x|y) z\", 5, \"(\", []], \"b\": 1, \"c\": []\x7d")
      ["stats".toText, "i.json".toText]
      (Corpus.build (some "i.json".toText) (.map entries)) ∧
    (Corpus.build (some "i.json".toText) (.map entries)).phraseCounts =
      [("a".toText, 2), ("c".toText, 0)] := by
  have hload : (Load.load Packages.plain.yaml
      (oneFile "\x7b\"a\": [\"(x|y) z\", 5, \"(\", []], \"b\": 1, \"c\": []\x7d")
      "i.json".toText).toOption.map (fun entries => (Lint.inner entries,
        (Corpus.build (some "i.json".toText) (.map entries)).phraseCounts)) =
      some ([], [("a".toText, 2), ("c".toText, 0)]) := by
    decide +kernel
  obtain ⟨entries, hentries, hmeasures⟩ := exists_loaded hload
  obtain ⟨hinner, hcounts⟩ := Prod.mk.inj hmeasures
  have hline : Packages.plain.commandLine ["stats".toText, "i.json".toText] =
      .ok (.stats "i.json".toText) := rfl
  exact ⟨entries, hline, hentries, hinner, counts_as_built hline hentries hinner, hcounts⟩

/-- A row inside a row is counted, and no corpus has its phrases. -/
theorem not_counts_as_built_of_inner_row : ∃ entries,
    Load.load Packages.standard.yaml (oneFile "\x7b\"k\": [[\"a\", \"a\"]]\x7d") "i.json".toText =
      .ok entries ∧
    run Packages.standard (oneFile "\x7b\"k\": [[\"a\", \"a\"]]\x7d")
      ["stats".toText, "i.json".toText] = .done ⟨0, "- k: 2\nTotal: 2\n".toText, []⟩ ∧
    countLines (Corpus.build (some "i.json".toText) (.map entries)).phraseCounts
      (Corpus.build (some "i.json".toText) (.map entries)).lineCount ≠
        "- k: 2\nTotal: 2\n".toText := by
  have hload : (Load.load Packages.standard.yaml (oneFile "\x7b\"k\": [[\"a\", \"a\"]]\x7d")
      "i.json".toText).toOption.map (fun entries =>
        countLines (Corpus.build (some "i.json".toText) (.map entries)).phraseCounts
          (Corpus.build (some "i.json".toText) (.map entries)).lineCount) =
      some "- k: 0\nTotal: 0\n".toText := by
    decide +kernel
  obtain ⟨entries, hentries, hcounts⟩ := exists_loaded hload
  refine ⟨entries, hentries, by decide +kernel, ?_⟩
  rw [hcounts]
  decide

end Phrasebook.Command
