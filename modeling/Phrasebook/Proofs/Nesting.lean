import Mathlib.Tactic.Common
import Phrasebook.Template.Expand

/-!
# Nested brackets

A text is balanced when every bracket of it has a partner of its own shape and the groups nest.
A scan that meets a balanced text inside a group only holds it back (`scan_balanced`), and what a
scan holds back is always a chain of open groups with balanced texts between their brackets
(`Held`).
-/

namespace Phrasebook.Template

/-- Texts in which every bracket has a partner of its own shape. -/
inductive Balanced : Text → Prop
  | nil : Balanced []
  | plain {c : CodePoint} {s : Text} (hc : isBracket c = false) (hs : Balanced s) :
      Balanced (c :: s)
  | group (shape : Shape) {inner rest : Text} (hinner : Balanced inner) (hrest : Balanced rest) :
      Balanced (shape.opener :: inner ++ shape.closer :: rest)

@[simp] lemma bracket?_opener (shape : Shape) : bracket? shape.opener = some (.opening shape) := by
  cases shape <;> rfl

@[simp] lemma bracket?_closer (shape : Shape) : bracket? shape.closer = some (.closing shape) := by
  cases shape <;> rfl

lemma eq_opener_of_bracket? {c : CodePoint} {shape : Shape}
    (h : bracket? c = some (.opening shape)) :
    c = shape.opener := by
  unfold bracket? at h
  split_ifs at h <;> simp_all

lemma eq_closer_of_bracket? {c : CodePoint} {shape : Shape}
    (h : bracket? c = some (.closing shape)) :
    c = shape.closer := by
  unfold bracket? at h
  split_ifs at h <;> simp_all

lemma isBracket_eq_false_iff {c : CodePoint} : isBracket c = false ↔ bracket? c = none := by
  simp [isBracket]

@[simp] lemma isBracket_opener (shape : Shape) : isBracket shape.opener = true := by
  simp [isBracket]

@[simp] lemma isBracket_closer (shape : Shape) : isBracket shape.closer = true := by
  simp [isBracket]

@[simp] lemma closer_ne_opener (s s' : Shape) : s.closer ≠ s'.opener := by
  cases s <;> cases s' <;> decide

@[simp] lemma opener_ne_closer (s s' : Shape) : s.opener ≠ s'.closer :=
  (closer_ne_opener s' s).symm

@[simp] lemma opener_inj {s s' : Shape} : s.opener = s'.opener ↔ s = s' := by
  cases s <;> cases s' <;> decide

@[simp] lemma closer_inj {s s' : Shape} : s.closer = s'.closer ↔ s = s' := by
  cases s <;> cases s' <;> decide

lemma not_isBracket_of_isBlank {c : CodePoint} (h : Text.isBlank c = true) :
    isBracket c = false := by
  rw [isBracket_eq_false_iff]
  unfold bracket?
  split_ifs with h1 h2 h3 h4
  · exact absurd (h1 ▸ h) (by decide)
  · exact absurd (h2 ▸ h) (by decide)
  · exact absurd (h3 ▸ h) (by decide)
  · exact absurd (h4 ▸ h) (by decide)
  · rfl

lemma balanced_of_forall {s : Text} (h : ∀ c ∈ s, isBracket c = false) : Balanced s := by
  induction s with
  | nil => exact .nil
  | cons c s ih => exact .plain (h c (by simp)) (ih fun d hd => h d (by simp [hd]))

lemma Balanced.append {s t : Text} (hs : Balanced s) (ht : Balanced t) : Balanced (s ++ t) := by
  induction hs with
  | nil => exact ht
  | plain hc _ ih => exact .plain hc ih
  | group shape hinner _ _ ih =>
    have := Balanced.group shape hinner ih
    simpa using this

lemma Balanced.enclose (shape : Shape) {s : Text} (hs : Balanced s) :
    Balanced (shape.opener :: s ++ [shape.closer]) :=
  .group shape hs .nil

lemma Balanced.closer_mem_iff {s : Text} (hs : Balanced s) (shape : Shape) :
    shape.closer ∈ s ↔ shape.opener ∈ s := by
  induction hs with
  | nil => simp
  | @plain c s hc _ ih =>
    have hcloser : shape.closer ≠ c := by
      rintro rfl
      simp at hc
    have hopener : shape.opener ≠ c := by
      rintro rfl
      simp at hc
    simp [hcloser, hopener, ih]
  | group shape' _ _ ihi ihr =>
    simp only [List.cons_append, List.mem_cons, List.mem_append, closer_ne_opener, closer_inj,
      opener_inj, opener_ne_closer, false_or, ihi, ihr]
    tauto

/-- Inside a group, a balanced text is held back as it stands. -/
theorem scan_balanced {s : Text} (hs : Balanced s) (template : Text) (column : Nat) (held : Text)
    (o : Opening) (outer : List Opening) (rest : Text) :
    scan template column held (o :: outer) (s ++ rest) =
      scan template (column + s.length) (held ++ s) (o :: outer) rest := by
  induction hs generalizing column held o outer rest with
  | nil => simp
  | @plain c s hc _ ih =>
    rw [List.cons_append, scan.eq_def]
    simp only [isBracket_eq_false_iff.1 hc]
    rw [ih]
    simp only [List.length_cons, List.append_assoc, List.singleton_append]
    congr 1
    omega
  | @group shape inner s _ _ ihi ihs =>
    rw [List.append_assoc, List.cons_append, scan.eq_def]
    simp only [bracket?_opener, List.cons_append]
    rw [ihi, scan.eq_def]
    simp only [bracket?_closer, if_true]
    rw [ihs]
    simp only [List.length_append, List.length_cons, List.append_assoc, List.cons_append]
    congr 1
    omega

/-- Whether a character may stand in a word outside groups. -/
def isWordChar (c : CodePoint) : Bool :=
  !Text.isBlank c && !isBracket c

/-- What may be held back with the given shapes open, the innermost first: a run of word characters
outside groups, and inside them the open brackets, each with a balanced text behind it. -/
inductive Held : List Shape → Text → Prop
  | run {s : Text} (h : ∀ c ∈ s, isWordChar c = true) : Held [] s
  | outermost (shape : Shape) {s : Text} (hs : Balanced s) : Held [shape] (shape.opener :: s)
  | inner (shape : Shape) {o : Shape} {outer : List Shape} {held s : Text}
      (h : Held (o :: outer) held) (hs : Balanced s) :
      Held (shape :: o :: outer) (held ++ shape.opener :: s)

lemma Held.append {o : Shape} {outer : List Shape} {held s : Text} (h : Held (o :: outer) held)
    (hs : Balanced s) : Held (o :: outer) (held ++ s) := by
  cases h with
  | outermost _ ht => exact .outermost _ (ht.append hs)
  | inner _ h ht =>
    rw [List.append_assoc, List.cons_append]
    exact .inner _ h (ht.append hs)

lemma Held.close {shape o : Shape} {outer : List Shape} {held : Text}
    (h : Held (shape :: o :: outer) held) : Held (o :: outer) (held ++ [shape.closer]) := by
  cases h with
  | inner shape h hs =>
    rw [List.append_assoc]
    exact h.append (hs.enclose shape)

lemma Held.exists_balanced {shape : Shape} {held : Text} (h : Held [shape] held) :
    ∃ s, Balanced s ∧ held = shape.opener :: s := by
  cases h with
  | outermost shape hs => exact ⟨_, hs, rfl⟩

end Phrasebook.Template
