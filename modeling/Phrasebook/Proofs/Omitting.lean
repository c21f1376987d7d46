import Phrasebook.Proofs.Lines

/-!
# Mappings without an entry that is skipped

An entry that is skipped has no lines and no count of its own, but it stands in the mapping, and the
empty line after an intent depends on whether more entries follow. So taking the entry out changes
neither the counts nor the lines, and takes an empty line from the end of the corpus if the entry
is the last one and follows an intent (`build_without_skipped`).
-/

namespace Phrasebook.Corpus

def Outcome.isKept : Outcome → Bool
  | skipped _ => false
  | kept _ => true

lemma isKept_ofEntry (file : Option Text) (e : Key × Datum) :
    (Outcome.ofEntry file e).isKept = isIntent e := by
  cases entryKind e with
  | intent h => rw [ofEntry_of_intent file h, isIntent_text, h]; rfl
  | shapeless h => rw [ofEntry_of_shapeless file h, isIntent_text, h]; rfl
  | nameless h => rw [ofEntry_of_nameless file h, isIntent_of_nameless h]; rfl

/-- The empty line that an entry behind these ones calls forth when nothing else follows. -/
def gapAfter (os : List Outcome) : Text :=
  if os.getLast?.any Outcome.isKept then [char '\n'] else []

section Skipped

variable {o : Outcome} (ho : o.isKept = false)
include ho

lemma text_of_skipped (more : Bool) : o.text more = [] := by
  cases o with
  | skipped e => rfl
  | kept s => exact Bool.noConfusion ho

lemma pairs_of_skipped : o.pairs = [] := by
  cases o with
  | skipped e => rfl
  | kept s => exact Bool.noConfusion ho

lemma phraseCount?_of_skipped : o.phraseCount? = none := by
  cases o with
  | skipped e => rfl
  | kept s => exact Bool.noConfusion ho

end Skipped

lemma layout_cons_of_ne_nil (o : Outcome) {os : List Outcome} (h : os ≠ []) :
    layout (o :: os) = o.text true ++ layout os := by
  cases os with
  | nil => exact absurd rfl h
  | cons p os => rfl

lemma text_true (o : Outcome) : o.text true = o.text false ++ gapAfter [o] := by
  cases o with
  | skipped e => rfl
  | kept s => rfl

/-- A skipped outcome between others does not show, and at the end only the gap before it does. -/
lemma layout_skipped {o : Outcome} (ho : o.isKept = false) (os more : List Outcome) :
    layout (os ++ o :: more) = layout (os ++ more) ++ if more = [] then gapAfter os else [] := by
  induction os with
  | nil =>
    by_cases hmore : more = []
    · rw [hmore]
      exact text_of_skipped ho false
    · rw [List.nil_append, layout_cons_of_ne_nil o hmore, text_of_skipped ho, if_neg hmore,
        List.append_nil]
      rfl
  | cons p os ih =>
    rw [List.cons_append, List.cons_append, layout_cons_of_ne_nil p (by simp), ih]
    by_cases hrest : os ++ more = []
    · obtain ⟨rfl, rfl⟩ := List.append_eq_nil_iff.1 hrest
      simpa [layout, gapAfter] using text_true p
    · rw [layout_cons_of_ne_nil p hrest, List.append_assoc]
      by_cases hmore : more = []
      · have hos : os ≠ [] := by
          rintro rfl
          exact hrest hmore
        rw [if_pos hmore, if_pos hmore, gapAfter, gapAfter, List.getLast?_cons_of_ne_nil hos]
      · rw [if_neg hmore, if_neg hmore]

section Mapping

variable (file : Option Text) {e : Key × Datum} (he : isIntent e = false)
include he

lemma entryPairs_of_skipped : entryPairs rowPhrases e = [] := by
  rw [← pairs_of_entry none e]
  exact pairs_of_skipped (by rw [isKept_ofEntry, he])

/-- A mapping has the same counts without an entry that is skipped, and the same corpus but for an
empty line at the end, which the entry calls forth if it is the last one and follows an intent. -/
theorem build_without_skipped (before after : Entries) :
    (build file (.map (before ++ e :: after))).lineCount =
        (build file (.map (before ++ after))).lineCount ∧
      (build file (.map (before ++ e :: after))).phraseCounts =
        (build file (.map (before ++ after))).phraseCounts ∧
      (build file (.map (before ++ e :: after))).corpus =
        (build file (.map (before ++ after))).corpus ++
          if after = [] ∧ before.getLast?.any isIntent then [char '\n'] else [] := by
  have hkept : (Outcome.ofEntry file e).isKept = false := by rw [isKept_ofEntry, he]
  refine ⟨?_, ?_, ?_⟩
  · rw [lineCount_map, lineCount_map, pairs, pairs, List.flatMap_append, List.flatMap_append,
      List.flatMap_cons, entryPairs_of_skipped he, List.nil_append]
  · rw [phraseCounts_eq_filterMap, phraseCounts_eq_filterMap, List.filterMap_append,
      List.filterMap_append, List.filterMap_cons, phraseCount?_of_skipped hkept]
  · have hgap : gapAfter (before.map (Outcome.ofEntry file)) =
        if before.getLast?.any isIntent then [char '\n'] else [] := by
      simp only [gapAfter, List.getLast?_map, Option.any_map, isKept_ofEntry]
    rw [corpus_eq_layout, corpus_eq_layout, List.map_append, List.map_append, List.map_cons,
      layout_skipped hkept, hgap]
    by_cases hafter : after = []
    · simp [hafter]
    · simp [hafter]

end Mapping

/-- A value that holds no templates, between two intents and behind the last one. -/
theorem build_without_skipped_between :
    isIntent (.text "b".toText, .scalar (.int 5)) = false ∧
    (build none (.map [(.text "a".toText, .text "x".toText), (.text "b".toText, .scalar (.int 5)),
        (.text "c".toText, .text "y".toText)])).corpus =
      (build none (.map
        [(.text "a".toText, .text "x".toText), (.text "c".toText, .text "y".toText)])).corpus ∧
    (build none
      (.map [(.text "a".toText, .text "x".toText), (.text "b".toText, .scalar (.int 5))])).corpus =
      (build none (.map [(.text "a".toText, .text "x".toText)])).corpus ++ [char '\n'] := by
  have he : isIntent (.text "b".toText, .scalar (.int 5)) = false := rfl
  have hbetween := build_without_skipped none he [(.text "a".toText, .text "x".toText)]
    [(.text "c".toText, .text "y".toText)]
  have hlast := build_without_skipped none he [(.text "a".toText, .text "x".toText)] []
  exact ⟨he, by simpa using hbetween.2.2, by simpa [isIntent] using hlast.2.2⟩

/-- A last entry that is skipped leaves an empty line behind the intent before it. -/
theorem corpus_ne_of_last_skipped :
    isIntent (.text "b".toText, .scalar (.int 5)) = false ∧
    (build none
      (.map [(.text "a".toText, .text "x".toText), (.text "b".toText, .scalar (.int 5))])).corpus ≠
      (build none (.map [(.text "a".toText, .text "x".toText)])).corpus := by
  have hwith : (build none (.map [(.text "a".toText, .text "x".toText),
      (.text "b".toText, .scalar (.int 5))])).corpus = "a x\n\n".toText := by
    decide +kernel
  have hwithout :
      (build none (.map [(.text "a".toText, .text "x".toText)])).corpus = "a x\n".toText := by
    decide +kernel
  rw [hwith, hwithout]
  exact ⟨rfl, by decide⟩

end Phrasebook.Corpus
