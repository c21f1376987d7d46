import Phrasebook.Proofs.Lines
import Phrasebook.Proofs.Remarks

/-!
# One line for each phrase

Where the linter has nothing to remark, no name has a blank in it, so a line of the corpus is broken
in two only by a line feed inside a phrase. The lines of such a corpus are the intents with their
phrases just when no phrase has a line feed (`oneLineEach_iff`). Nothing else sees to that: a
template without groups keeps its line feeds, and the linter does not remark on them.
-/

namespace Phrasebook

namespace Lint

section Clean

variable {file : Option Text} {entries : Entries} (hclean : findings file (.map entries) = [])
include hclean

lemma met_eq_nil : met entries = [] := by
  rw [findings_eq, Diagnostic.sort_eq_nil] at hclean
  exact List.map_eq_nil_iff.1 hclean

lemma ownIssues_eq_nil {i : Intent} (hi : i ∈ intents entries) : ownIssues i = [] := by
  have hown : ∀ x ∈ ownIssues i, x ∈ met entries := fun x hx =>
    List.mem_append_left _ (List.mem_flatMap.2 ⟨i, hi, hx⟩)
  rw [met_eq_nil hclean] at hown
  exact List.eq_nil_iff_forall_not_mem.2 fun x hx => List.not_mem_nil (hown x hx)

lemma not_isBlank_of_clean {i : Intent} (hi : i ∈ intents entries) :
    ∀ c ∈ i.name, Text.isBlank c = false := by
  intro c hc
  by_contra hblank
  have hissue : Issue.blankName i.name ∈ ownIssues i :=
    mem_ownIssues.2 (.inl (mem_nameIssues.2 ⟨.inr ⟨c, hc, by simpa using hblank⟩, rfl⟩))
  rw [ownIssues_eq_nil hclean hi] at hissue
  exact List.not_mem_nil hissue

lemma templates_ne_nil_of_clean {i : Intent} (hi : i ∈ intents entries) : i.templates ≠ [] := by
  intro hnil
  have hissue : Issue.noTemplates i.name ∈ ownIssues i :=
    mem_ownIssues.2 (.inr (.inl (mem_emptyIssues.2 ⟨hnil, rfl⟩)))
  rw [ownIssues_eq_nil hclean hi] at hissue
  exact List.not_mem_nil hissue

end Clean

end Lint

namespace Corpus

/-- The corpus of a mapping has one line for each phrase of an intent. -/
structure OneLineEach (file : Option Text) (entries : Entries) : Prop where
  lines : lines (build file (.map entries)).corpus =
    (pairs entries).map fun p => p.1 ++ char ' ' :: p.2
  count : (Corpus.lines (build file (.map entries)).corpus).length =
    (build file (.map entries)).lineCount
  /-- Each line has the name of an intent of the mapping, a space, and a phrase. -/
  keyed : ∀ l ∈ Corpus.lines (build file (.map entries)).corpus,
    ∃ name phrase, .text name ∈ entries.map Prod.fst ∧ l = name ++ char ' ' :: phrase

lemma separator_not_mem_of_mem_splitOn {x : CodePoint} {s piece : Text} (h : piece ∈ s.splitOn x) :
    x ∉ piece := by
  induction s generalizing piece with
  | nil => simp_all
  | cons c s ih =>
    rw [List.splitOn_cons_eq_if_modifyHead] at h
    obtain ⟨first, more, hsplit⟩ := List.exists_cons_of_ne_nil (List.splitOn_ne_nil x s)
    by_cases hc : c = x
    · rw [if_pos (by simp [hc])] at h
      rcases List.mem_cons.1 h with rfl | h
      · exact List.not_mem_nil
      · exact ih h
    · rw [if_neg (by simp [hc]), hsplit, List.modifyHead_cons] at h
      rw [hsplit] at ih
      rcases List.mem_cons.1 h with rfl | h
      · simp [Ne.symm hc, ih List.mem_cons_self]
      · exact ih (List.mem_cons_of_mem _ h)

lemma line_feed_not_mem_of_mem_lines {s l : Text} (h : l ∈ lines s) : char '\n' ∉ l :=
  separator_not_mem_of_mem_splitOn (List.mem_filter.1 h).1

/-- If there is nothing to remark on, a corpus has one line for each phrase just when no phrase has
a line feed. -/
theorem oneLineEach_iff {file : Option Text} {entries : Entries}
    (hclean : Lint.findings file (.map entries) = []) :
    OneLineEach file entries ↔ ∀ p ∈ pairs entries, char '\n' ∉ p.2 := by
  have hname : ∀ p ∈ pairs entries, char '\n' ∉ p.1 := by
    intro p hp hfeed
    obtain ⟨value, ds, d, he, hds, -, -⟩ := mem_pairs hp
    have hi : ⟨p.1, ds, Lint.generated ds⟩ ∈ Lint.intents entries :=
      Lint.mem_intents.2 ⟨value, he, hds, rfl⟩
    have hblank := Lint.not_isBlank_of_clean hclean hi (char '\n') hfeed
    exact absurd hblank (by decide)
  constructor
  · intro h p hp hfeed
    have hline : p.1 ++ char ' ' :: p.2 ∈ lines (build file (.map entries)).corpus := by
      rw [h.lines]
      exact List.mem_map_of_mem hp
    apply line_feed_not_mem_of_mem_lines hline
    simp [hfeed]
  · intro hphrase
    have hlines : lines (build file (.map entries)).corpus =
        (pairs entries).map fun p => p.1 ++ char ' ' :: p.2 := by
      rw [lines_corpus]
      exact lines_pairs fun p hp => ⟨hname p hp, hphrase p hp⟩
    refine ⟨hlines, ?_, ?_⟩
    · rw [hlines, List.length_map, lineCount_map]
    · intro l hl
      rw [hlines] at hl
      obtain ⟨p, hp, rfl⟩ := List.mem_map.1 hl
      obtain ⟨value, -, -, he, -, -, -⟩ := mem_pairs hp
      exact ⟨p.1, p.2, List.mem_map.2 ⟨_, he, rfl⟩, rfl⟩

/-- A line feed between two tokens, of which one is a group, comes into no phrase. -/
theorem oneLineEach_between_tokens :
    Lint.findings none
      (.map [(.text "k".toText, .list [.text "(a|b)\nc".toText, .text "d".toText])]) = [] ∧
    OneLineEach none [(.text "k".toText, .list [.text "(a|b)\nc".toText, .text "d".toText])] := by
  have hclean : Lint.findings none
      (.map [(.text "k".toText, .list [.text "(a|b)\nc".toText, .text "d".toText])]) = [] := by
    decide +kernel
  have hphrase : ∀ p ∈
      pairs [(.text "k".toText, .list [.text "(a|b)\nc".toText, .text "d".toText])],
      char '\n' ∉ p.2 := by
    decide +kernel
  exact ⟨hclean, (oneLineEach_iff hclean).2 hphrase⟩

/-- A template without groups keeps its line feed: nothing is wrong with it and nothing is to be
remarked on, but its phrase takes two lines. -/
theorem not_oneLineEach_of_line_feed :
    (build none (.map [(.text "k".toText, .text "a\nb".toText)])).errors = [] ∧
    Lint.findings none (.map [(.text "k".toText, .text "a\nb".toText)]) = [] ∧
    (lines (build none (.map [(.text "k".toText, .text "a\nb".toText)])).corpus).length ≠
      (build none (.map [(.text "k".toText, .text "a\nb".toText)])).lineCount := by
  decide +kernel

end Corpus

end Phrasebook
