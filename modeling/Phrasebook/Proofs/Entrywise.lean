import Mathlib.Algebra.Ring.Nat
import Phrasebook.Proofs.Counting
import Phrasebook.Proofs.Outcomes

/-!
# The corpus entry by entry

Nothing passes from one entry of a mapping to another: the report on a mapping is put together from
the reports on its entries alone, with an empty line between the sections (`build_entrywise`). The
corpus of an entry alone is its lines, one for each phrase of the templates that expand.
-/

namespace Phrasebook.Corpus

/-- An entry names an intent when its key is a text and its value a template or a row. -/
def isIntent : Key × Datum → Bool
  | (.text _, .text _) => true
  | (.text _, .list _) => true
  | (.text _, .tuple _) => true
  | _ => false

/-- The lines of a template of an intent, none if it is not a text or cannot be expanded. -/
def templateLines (name : Text) : Datum → List Text
  | .text t =>
    match Request.expand (.text t) with
    | .ok phrases => phrases.map fun phrase => name ++ char ' ' :: phrase ++ [char '\n']
    | .error _ => []
  | _ => []

/-- The lines of an entry, template by template, none for an entry that is skipped. -/
def entryLines : Key × Datum → List Text
  | (.text name, value) => ((templates? value).getD []).flatMap (templateLines name)
  | _ => []

/-- The name of an intent with each of the phrases that its templates come to, none for an entry
that is skipped. -/
def entryPairs (phrases : List Datum → List Text) : Key × Datum → List (Text × Text)
  | (.text name, value) => (((templates? value).map phrases).getD []).map (Prod.mk name)
  | _ => []

section Kinds

variable {name : Text} {key : Key} {value : Datum} {ds : List Datum}

lemma isIntent_text (name : Text) (value : Datum) :
    isIntent (.text name, value) = (templates? value).isSome := by
  unfold isIntent templates? Datum.items?
  cases value with
  | scalar v => cases v <;> rfl
  | list => rfl
  | tuple => rfl
  | map => rfl
  | set => rfl
  | buffer => rfl

lemma isIntent_of_nameless (h : ∀ name, key ≠ .text name) : isIntent (key, value) = false := by
  unfold isIntent
  split <;> simp_all

lemma entryLines_of_nameless (h : ∀ name, key ≠ .text name) : entryLines (key, value) = [] := by
  unfold entryLines
  split
  · rename_i heq
    exact absurd (congrArg Prod.fst heq) (h _)
  · rfl

section Pairs

variable {phrases : List Datum → List Text}

lemma entryPairs_of_intent (h : templates? value = some ds) :
    entryPairs phrases (.text name, value) = (phrases ds).map (Prod.mk name) := by
  rw [entryPairs, h]
  rfl

lemma entryPairs_of_shapeless (h : templates? value = none) :
    entryPairs phrases (.text name, value) = [] := by
  rw [entryPairs, h]
  rfl

lemma entryPairs_of_nameless (h : ∀ name, key ≠ .text name) :
    entryPairs phrases (key, value) = [] := by
  unfold entryPairs
  split
  · rename_i heq
    exact absurd (congrArg Prod.fst heq) (h _)
  · rfl

end Pairs

end Kinds

lemma phrasesOf_text (file : Option Text) (path t : Text) :
    phrasesOf file path (.text t) = match Request.expand (.text t) with
      | .ok phrases => .ok phrases
      | .error f => .error ⟨.template, f.code, f.message, file, some path⟩ := by
  rw [Request.expand_text, phrasesOf]
  cases Template.expand t with
  | ok phrases => rfl
  | error f => rfl

lemma allPhrases_cons (r : Except Diagnostic (List Text))
    (rs : List (Except Diagnostic (List Text))) :
    allPhrases (r :: rs) = allPhrases [r] ++ allPhrases rs := by
  simp [allPhrases]

/-- The phrases of a template of an intent, none if it is not a text or cannot be expanded. -/
def templatePhrases : Datum → List Text
  | .text t =>
    match Request.expand (.text t) with
    | .ok phrases => phrases
    | .error _ => []
  | _ => []

lemma templateLines_eq (name : Text) (d : Datum) :
    templateLines name d = (templatePhrases d).map (line name) := by
  unfold templateLines templatePhrases
  split
  · split <;> simp_all [line]
  · simp_all

lemma phrases_of_template (file : Option Text) (path : Text) (d : Datum) :
    allPhrases [phrasesOf file path d] = templatePhrases d := by
  unfold templatePhrases
  split
  · rw [phrasesOf_text]
    split <;> simp_all [allPhrases]
  · simp_all [allPhrases, phrasesOf]

/-- The phrases of a row of templates do not depend on the paths of the templates. -/
lemma phrases_of_row (file : Option Text) (path : Nat → Text) (ds : List Datum) :
    allPhrases (ds.mapIdx fun j d => phrasesOf file (path j) d) = ds.flatMap templatePhrases := by
  induction ds generalizing path with
  | nil => rfl
  | cons d ds ih =>
    rw [List.mapIdx_cons, allPhrases_cons, phrases_of_template, ih, List.flatMap_cons]

lemma lines_of_row (file : Option Text) (path : Nat → Text) (name : Text) (ds : List Datum) :
    (allPhrases (ds.mapIdx fun j d => phrasesOf file (path j) d)).map (line name) =
      ds.flatMap (templateLines name) := by
  have hlines : templateLines name = fun d => (templatePhrases d).map (line name) :=
    funext (templateLines_eq name)
  rw [phrases_of_row, List.map_flatMap, hlines]

lemma text_of_entry (file : Option Text) (e : Key × Datum) :
    (Outcome.ofEntry file e).text false = (entryLines e).flatten := by
  cases entryKind e with
  | @intent name value ds h =>
    rw [ofEntry_of_intent file h, entryLines, h, Option.getD_some,
      ← lines_of_row file (templatePath (.text name) value)]
    simp [Outcome.text, Section.text, results, List.flatMap_def]
  | shapeless h =>
    rw [ofEntry_of_shapeless file h, entryLines, h]
    rfl
  | nameless h =>
    rw [ofEntry_of_nameless file h, entryLines_of_nameless h]
    rfl

lemma text_of_entry_more (file : Option Text) (e : Key × Datum) :
    (Outcome.ofEntry file e).text true =
      (entryLines e).flatten ++ if isIntent e then [char '\n'] else [] := by
  rw [← text_of_entry file]
  cases entryKind e with
  | intent h => simp [ofEntry_of_intent file h, isIntent_text, h, Outcome.text]
  | shapeless h => simp [ofEntry_of_shapeless file h, isIntent_text, h, Outcome.text]
  | nameless h => simp [ofEntry_of_nameless file h, isIntent_of_nameless h, Outcome.text]

lemma corpus_eq_layout (file : Option Text) (entries : Entries) :
    (build file (.map entries)).corpus = layout (entries.map (Outcome.ofEntry file)) := by
  cases entries with
  | nil => rfl
  | cons e entries => rw [build_map file (List.cons_ne_nil e entries), Report.ofOutcomes]

lemma phraseCounts_eq_filterMap (file : Option Text) (entries : Entries) :
    (build file (.map entries)).phraseCounts =
      entries.filterMap fun e => (Outcome.ofEntry file e).phraseCount? := by
  cases entries with
  | nil => rfl
  | cons e entries =>
    rw [build_map file (List.cons_ne_nil e entries), Report.ofOutcomes, List.filterMap_map]
    rfl

lemma corpus_single (file : Option Text) (e : Key × Datum) :
    (build file (.map [e])).corpus = (entryLines e).flatten := by
  rw [corpus_eq_layout]
  exact text_of_entry file e

lemma layout_map (file : Option Text) (entries : Entries) :
    layout (entries.map (Outcome.ofEntry file)) =
      (entries.mapIdx fun i e => (entryLines e).flatten ++
        if isIntent e ∧ i + 1 < entries.length then [char '\n'] else []).flatten := by
  induction entries with
  | nil => rfl
  | cons e entries ih =>
    cases entries with
    | nil => simp [layout, text_of_entry]
    | cons e' entries =>
      have hlayout : layout ((e :: e' :: entries).map (Outcome.ofEntry file)) =
          (Outcome.ofEntry file e).text true ++
            layout ((e' :: entries).map (Outcome.ofEntry file)) := rfl
      rw [hlayout, text_of_entry_more, ih, List.mapIdx_cons, List.flatten_cons]
      simp

section Outcomes

variable (o : Outcome) (os : List Outcome)

lemma lineCount_cons : (Report.ofOutcomes (o :: os)).lineCount =
    (Report.ofOutcomes [o]).lineCount + (Report.ofOutcomes os).lineCount := by
  simp [Report.ofOutcomes]

lemma phraseCounts_cons : (Report.ofOutcomes (o :: os)).phraseCounts =
    (Report.ofOutcomes [o]).phraseCounts ++ (Report.ofOutcomes os).phraseCounts := by
  simp only [Report.ofOutcomes, List.filterMap_cons, List.filterMap_nil]
  cases o.phraseCount? <;> rfl

lemma errors_cons : (Report.ofOutcomes (o :: os)).errors =
    (Report.ofOutcomes [o]).errors ++ (Report.ofOutcomes os).errors := by
  simp [Report.ofOutcomes]

/-- What a report lists outcome by outcome is what the reports on the single outcomes list. -/
lemma ofOutcomes_flatMap {β : Type} {part : Report → List β} (hnil : part (.ofOutcomes []) = [])
    (hcons : ∀ o os, part (.ofOutcomes (o :: os)) =
      part (.ofOutcomes [o]) ++ part (.ofOutcomes os)) :
    part (.ofOutcomes os) = os.flatMap fun o => part (.ofOutcomes [o]) := by
  induction os with
  | nil => exact hnil
  | cons o os ih => rw [hcons, ih, List.flatMap_cons]

lemma sum_phraseCounts :
    ((Report.ofOutcomes os).phraseCounts.map Prod.snd).sum = (Report.ofOutcomes os).lineCount := by
  induction os with
  | nil => rfl
  | cons o os ih =>
    have hsingle : ((Report.ofOutcomes [o]).phraseCounts.map Prod.snd).sum =
        (Report.ofOutcomes [o]).lineCount := by
      cases o <;> rfl
    rw [phraseCounts_cons, lineCount_cons, List.map_append, List.sum_append, hsingle, ih]

end Outcomes

/-- The report on a mapping is put together from the reports on its entries alone. -/
structure IsEntrywise (file : Option Text) (entries : Entries) : Prop where
  lineCount : (build file (.map entries)).lineCount =
    (entries.map fun e => (build file (.map [e])).lineCount).sum
  phraseCounts : (build file (.map entries)).phraseCounts =
    entries.flatMap fun e => (build file (.map [e])).phraseCounts
  errors : (build file (.map entries)).errors =
    entries.flatMap fun e => (build file (.map [e])).errors
  /-- The counts of the intents add up. -/
  total : ((build file (.map entries)).phraseCounts.map Prod.snd).sum =
    (build file (.map entries)).lineCount
  /-- An empty line follows each intent but the last entry, and no entry that is skipped. -/
  corpus : (build file (.map entries)).corpus =
    (entries.mapIdx fun i e => (build file (.map [e])).corpus ++
      if isIntent e ∧ i + 1 < entries.length then [char '\n'] else []).flatten
  single : ∀ e ∈ entries, (build file (.map [e])).corpus = (entryLines e).flatten

/-- A report treats the entries of a mapping one by one. -/
theorem build_entrywise (file : Option Text) {entries : Entries} (h : entries ≠ []) :
    IsEntrywise file entries where
  lineCount := by
    rw [build_map file h]
    simp only [build_single]
    clear h
    induction entries with
    | nil => rfl
    | cons e entries ih => rw [List.map_cons, lineCount_cons, ih, List.map_cons, List.sum_cons]
  phraseCounts := by
    rw [build_map file h, ofOutcomes_flatMap _ rfl phraseCounts_cons, List.flatMap_map]
    simp only [build_single]
  errors := by
    rw [build_map file h, ofOutcomes_flatMap _ rfl errors_cons, List.flatMap_map]
    simp only [build_single]
  total := by
    rw [build_map file h]
    exact sum_phraseCounts _
  corpus := by
    rw [build_map file h]
    simp only [corpus_single]
    exact layout_map file entries
  single := fun e _ => corpus_single file e

/-- A key that is no text, a row with a template that is not closed, a value that holds no
templates, and an omission. -/
def mixedEntries : Entries :=
  [(.scalar (.int 1), .text "x".toText),
    (.text "a".toText, .list [.text "(".toText, .text "b".toText]), (.text "c".toText, .null),
    (.text "d".toText, .text "(|e)".toText)]

/-- The lines of `a` are followed by an empty line, and the entry behind them that is skipped brings
none of its own. -/
theorem build_entrywise_mixed :
    mixedEntries ≠ [] ∧ IsEntrywise none mixedEntries ∧
      (build none (.map mixedEntries)).corpus = "a b\n\nd e\nd \n".toText ∧
      (build none (.map mixedEntries)).lineCount = 3 ∧
      (build none (.map mixedEntries)).phraseCounts = [("a".toText, 1), ("d".toText, 2)] ∧
      (build none (.map mixedEntries)).errors.map (·.path) =
        [some "intents.1".toText, some "intents.a[0]".toText, some "intents.c".toText] :=
  ⟨by simp [mixedEntries], build_entrywise none (by simp [mixedEntries]), by decide +kernel,
    by decide +kernel, by decide +kernel, by decide +kernel⟩

end Phrasebook.Corpus
