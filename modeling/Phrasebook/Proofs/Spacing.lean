import Mathlib.Data.List.Forall2
import Phrasebook.Proofs.Reading

/-!
# Blanks between tokens

A blank between two texts keeps their tokens apart, so texts joined by single spaces read as their
tokens one after the other (`reads_unwords`), and a text without brackets reads as its words
(`reads_words`).
-/

namespace Phrasebook

/-- The words of a text: what stands between its blanks, empty pieces left out. -/
def Text.words (s : Text) : List Text :=
  (s.splitOnP isBlank).filter (· ≠ [])

lemma Text.mem_intercalate {sep : Text} {parts : List Text} {c : CodePoint}
    (h : c ∈ sep.intercalate parts) : c ∈ sep ∨ ∃ part ∈ parts, c ∈ part := by
  induction parts with
  | nil => simp at h
  | cons part parts ih =>
    cases parts with
    | nil => exact .inr ⟨part, by simp, by simpa using h⟩
    | cons next parts =>
      rw [List.intercalate_cons_cons] at h
      simp only [List.mem_append] at h
      rcases h with (h | h) | h
      · exact .inr ⟨part, by simp, h⟩
      · exact .inl h
      · rcases ih h with hsep | ⟨other, hother, hc⟩
        · exact .inl hsep
        · exact .inr ⟨other, List.mem_cons_of_mem part hother, hc⟩

namespace Template

abbrev Token.ofWord (w : Text) : Token :=
  ⟨.word, w⟩

lemma words_append_blank {c : CodePoint} (hc : Text.isBlank c = true) (s t : Text) :
    Text.words (s ++ c :: t) = Text.words s ++ Text.words t := by
  simp only [Text.words, List.splitOnP_append_cons s t hc, List.filter_append]

lemma words_eq_ofRun {run : Text} (h : ∀ c ∈ run, Text.isBlank c = false) :
    (Text.words run).map Token.ofWord = Token.ofRun run := by
  unfold Text.words
  rw [List.splitOnP_eq_singleton h]
  cases run <;> simp [Token.ofRun]

/-- Splitting a text without brackets at its blanks gives its tokens. -/
theorem reads_words {s : Text} (hs : ∀ c ∈ s, isBracket c = false) :
    Reads s ((Text.words s).map Token.ofWord) := by
  suffices ∀ run : Text, (∀ c ∈ run, isWordChar c = true) →
      Reads (run ++ s) ((Text.words (run ++ s)).map Token.ofWord) by
    simpa using this [] (by simp)
  induction s with
  | nil =>
    intro run hrun
    have hblank : ∀ c ∈ run, Text.isBlank c = false := fun c hc => (isWordChar_iff.1 (hrun c hc)).1
    rw [List.append_nil, words_eq_ofRun hblank]
    simpa using Reads.run hrun (by simp) .nil
  | cons c s ih =>
    intro run hrun
    have ih := ih fun d hd => hs d (by simp [hd])
    by_cases hc : Text.isBlank c = true
    · have hblank : ∀ d ∈ run, Text.isBlank d = false := fun d hd =>
        (isWordChar_iff.1 (hrun d hd)).1
      rw [words_append_blank hc, List.map_append, words_eq_ofRun hblank]
      refine .run hrun (by simp [not_isWordChar_of_isBlank hc]) (.blank hc ?_)
      simpa using ih [] (by simp)
    · have hword : isWordChar c = true := isWordChar_iff.2 ⟨by simpa using hc, hs c (by simp)⟩
      have hrun' : ∀ d ∈ run ++ [c], isWordChar d = true := by
        intro d hd
        rcases List.mem_append.1 hd with hd | hd
        · exact hrun d hd
        · rw [List.mem_singleton.1 hd]
          exact hword
      simpa using ih (run ++ [c]) hrun'

lemma unwords_cons_cons (w v : Text) (ws : List Text) :
    Text.unwords (w :: v :: ws) = w ++ char ' ' :: Text.unwords (v :: ws) := by
  simp [Text.unwords]

lemma Reads.append_blank {s s' : Text} {ts ts' : List Token} (h : Reads s ts) (h' : Reads s' ts')
    {b : CodePoint} (hb : Text.isBlank b = true) : Reads (s ++ b :: s') (ts ++ ts') := by
  induction h with
  | nil => exact .blank hb h'
  | blank hc _ ih => exact .blank hc ih
  | @word run s ts hne hrun hend _ ih =>
    have hboundary : ∀ c ∈ (s ++ b :: s').head?, isWordChar c = false := by
      cases s with
      | nil => simp [not_isWordChar_of_isBlank hb]
      | cons c s => simpa using hend
    rw [List.append_assoc]
    exact .word hne hrun hboundary ih
  | group ht _ ih =>
    rw [List.append_assoc]
    exact .group ht ih

lemma forall₂_reads {α : Type} {l : List α} {f : α → Text} {g : α → List Token}
    (h : ∀ a ∈ l, Reads (f a) (g a)) : List.Forall₂ Reads (l.map f) (l.map g) := by
  rw [List.forall₂_map_left_iff, List.forall₂_map_right_iff, List.forall₂_same]
  exact h

/-- Texts joined by single spaces read as the tokens of each, one after the other. -/
theorem reads_unwords {ss : List Text} {tss : List (List Token)} (h : List.Forall₂ Reads ss tss) :
    Reads (Text.unwords ss) tss.flatten := by
  induction h with
  | nil => exact .nil
  | @cons s ts ss tss hs hrest ih =>
    cases hrest with
    | nil => simpa [Text.unwords] using hs
    | cons _ _ =>
      rw [unwords_cons_cons, List.flatten_cons]
      exact hs.append_blank ih (by decide)

end Template

end Phrasebook
