import Phrasebook.Proofs.Settling

/-!
# What a substitution puts into the row

A substitution of a slot is one token as it stands, an alternative in round brackets is its words,
and an omission nothing (`Token.textsOf`). A token that settles keeps its choices
(`Token.Settling.choices`), and a template with a substitution in place of its group reads as the
tokens before the group, those of the substitution and those after the group, settled
(`reads_normalize_substitute`).
-/

namespace Phrasebook.Template

/-- The texts of the tokens that a substitution puts in the place of a token. -/
def Token.textsOf (t : Token) : Option Text → List Text
  | none => []
  | some s => if t.kind = .alternation then Text.words s else [s]

/-- The choices that a token offers, in branch order: for each the texts that it puts into the
row. -/
def Token.choices (t : Token) : Except Fault (List (List Text)) := do
  let subs ← t.branches
  .ok (subs.toList.map t.textsOf)

lemma Text.stripEnd_eq_self {s : Text} (h : ∀ c ∈ s.getLast?, Text.isBlank c = false) :
    Text.stripEnd s = s := by
  have hrev : s.reverse.dropWhile Text.isBlank = s.reverse := by
    cases hs : s.reverse with
    | nil => rfl
    | cons c r =>
      have hc : Text.isBlank c = false := h c (by simp [List.getLast?_eq_head?_reverse, hs])
      rw [List.dropWhile_cons_of_neg (by simp [hc])]
  rw [Text.stripEnd, hrev, List.reverse_reverse]

lemma Text.strip_eq_self {s : Text} (hfirst : ∀ c ∈ s.head?, Text.isBlank c = false)
    (hlast : ∀ c ∈ s.getLast?, Text.isBlank c = false) : Text.strip s = s := by
  have hfront : s.dropWhile Text.isBlank = s := by
    cases s with
    | nil => rfl
    | cons c s => rw [List.dropWhile_cons_of_neg (by simp [hfirst c rfl])]
  rw [Text.strip, hfront, stripEnd_eq_self hlast]

lemma IsLone.splitOn {choices : Text} (h : IsLone choices) :
    choices.splitOn (char '|') = [choices] := by
  refine List.splitOn_eq_singleton fun hbar => ?_
  exact absurd (h.2 _ hbar) (by decide)

lemma IsLone.not_isBlank {choices : Text} (h : IsLone choices) :
    ∀ c ∈ choices, Text.isBlank c = false :=
  fun c hc => (isWordChar_iff.1 (isWordChar_of_isPlain (h.2 c hc))).1

lemma IsLone.alternativesOf {choices : Text} (h : IsLone choices) (group : Text) :
    alternativesOf group choices = .ok ⟨choices, []⟩ := by
  have hstrip : Text.strip choices = choices :=
    Text.strip_eq_self (fun c hc => h.not_isBlank c (List.mem_of_mem_head? hc))
      fun c hc => h.not_isBlank c (List.mem_of_mem_getLast? hc)
  have halternatives : alternatives choices = [choices] := by
    simp [alternatives, h.splitOn, hstrip, h.1]
  rw [Template.alternativesOf, halternatives]

lemma IsLone.words {choices : Text} (h : IsLone choices) : Text.words choices = [choices] := by
  simp [Text.words, List.splitOnP_eq_singleton h.not_isBlank, h.1]

lemma choices_of_branches {t : Token} {subs : Choices (Option Text)} (hs : t.branches = .ok subs) :
    t.choices = .ok (subs.toList.map t.textsOf) := by
  rw [Token.choices, hs]
  rfl

lemma choices_of_branches_error {t : Token} {f : Fault} (hf : t.branches = .error f) :
    t.choices = .error f := by
  rw [Token.choices, hf]
  rfl

lemma choices_of_not_expandable {t : Token} (h : t.expandable = false) :
    t.choices = .ok [[t.text]] := by
  have hk : t.kind = .word := by simpa [Token.expandable] using h
  rw [choices_of_branches (by rw [Token.branches, hk])]
  simp [Choices.toList, Token.textsOf, hk]

/-- A token that settles as a word has this word as its only substitution. -/
lemma Token.Settling.branches {t u : Token} (h : t.Settling u) (hu : u.expandable = false) :
    t.branches = .ok ⟨some u.text, []⟩ := by
  cases h with
  | stay =>
    have hk : t.kind = .word := by simpa [Token.expandable] using hu
    rw [Token.branches, hk]
  | @alternation choices hlone =>
    simp only [Token.branches, inside_enclose, hlone.alternativesOf, hlone.splitOn]
    rfl
  | @slot choices name hlone hname =>
    have hparts := slotParts_eq (not_mem_of_forall hlone.not_isBracket rfl) name
    simp only [Token.branches, inside_enclose, hparts, hlone.alternativesOf]
    rfl

theorem Token.Settling.choices {t u : Token} (h : t.Settling u) : u.choices = t.choices := by
  cases h with
  | stay => rfl
  | @alternation choices hlone =>
    rw [choices_of_not_expandable rfl]
    simp only [Token.choices, Token.branches, inside_enclose, hlone.alternativesOf, hlone.splitOn]
    simp [Bind.bind, Except.bind, Choices.toList, Choices.map, Token.textsOf, hlone.words]
  | @slot choices name hlone hname =>
    have hparts := slotParts_eq (not_mem_of_forall hlone.not_isBracket rfl) name
    rw [choices_of_not_expandable rfl]
    simp only [Token.choices, Token.branches, inside_enclose, hparts, hlone.alternativesOf]
    simp [Bind.bind, Except.bind, Choices.toList, Choices.map, Token.textsOf]

/-- A substitution is an alternative, which has no brackets, or a curly group without any inside. -/
lemma Token.IsGroup.substitution {t : Token} (ht : t.IsGroup) (hx : t.expandable = true)
    {subs : Choices (Option Text)} (hs : t.branches = .ok subs) {s : Text}
    (hsub : some s ∈ subs.toList) :
    (t.kind = .alternation ∧ s ∈ alternatives (Text.inside t.text) ∧
        ∀ c ∈ s, isBracket c = false) ∨
      (t.kind = .slot ∧ ∃ inner, s = char '\x7b' :: inner ++ [char '\x7d'] ∧
        ∀ c ∈ inner, isBracket c = false) := by
  cases ht with
  | curly => simp [expandable] at hx
  | @alternation choices hchoices =>
    have hw := mem_alternatives_of_alternation rfl hs hsub
    refine .inl ⟨rfl, hw, fun c hc => hchoices c (mem_of_mem_alternatives ?_ hc)⟩
    rwa [inside_enclose] at hw
  | @slot choices name hchoices hname =>
    obtain ⟨w, hw, heq⟩ := exists_alternative_of_slot rfl hs hsub
    rw [inside_enclose, slotParts_eq (not_mem_of_forall hchoices rfl)] at hw heq
    obtain rfl := Option.some.inj heq
    exact .inr ⟨rfl, w ++ name, by simp,
      List.forall_mem_append.2 ⟨fun c hc => hchoices c (mem_of_mem_alternatives hw hc), hname⟩⟩

section Substitution

variable {t : Token} {subs : Choices (Option Text)} {s : Text}

lemma Token.IsGroup.normalize_substitution (ht : t.IsGroup) (hx : t.expandable = true)
    (hs : t.branches = .ok subs) (hsub : some s ∈ subs.toList) : normalize s = s := by
  apply normalize_eq_self
  obtain ⟨-, -, hplain⟩ | ⟨-, inner, rfl, hinner⟩ := ht.substitution hx hs hsub
  · exact not_mem_of_forall hplain rfl
  · simpa using not_mem_of_forall hinner rfl

theorem Token.IsGroup.reads_substitution (ht : t.IsGroup) (hx : t.expandable = true)
    (hs : t.branches = .ok subs) (hsub : some s ∈ subs.toList) :
    Reads s ((t.textsOf (some s)).map .ofWord) := by
  obtain ⟨hk, -, hplain⟩ | ⟨hk, inner, rfl, hinner⟩ := ht.substitution hx hs hsub
  · rw [textsOf, if_pos hk]
    exact reads_words hplain
  · have hround := not_mem_of_forall hinner (b := '(') rfl
    rw [textsOf, if_neg (by simp [hk])]
    exact (IsGroup.curly (balanced_of_forall hinner) hround).reads

end Substitution

/-- A template with a substitution in the place of its group reads as the tokens before the group,
the words of the substitution, and the tokens after it, all settled. -/
theorem reads_normalize_substitute {head tail : List Token} {t : Token}
    (hhead : ∀ u ∈ head, u.IsLexeme) (htail : ∀ u ∈ tail, u.IsLexeme) (ht : t.IsGroup)
    (hx : t.expandable = true) {subs : Choices (Option Text)} (hs : t.branches = .ok subs)
    {sub : Option Text} (hsub : sub ∈ subs.toList) :
    Reads (normalize (substitute head sub tail))
      (head.map Token.settle ++ (t.textsOf sub).map .ofWord ++ tail.map Token.settle) := by
  have hrow : ∀ {ts : List Token}, (∀ u ∈ ts, u.IsLexeme) →
      List.Forall₂ Reads (ts.map fun u => normalize u.text) (ts.map fun u => [u.settle]) := by
    intro ts hts
    exact forall₂_reads fun u hu => (hts u hu).reads_settle
  have hmiddle : List.Forall₂ Reads (sub.toList.map normalize)
      (sub.toList.map fun s => (t.textsOf (some s)).map .ofWord) := by
    apply forall₂_reads
    intro s hs'
    obtain rfl := Option.mem_toList.1 hs'
    rw [ht.normalize_substitution hx hs hsub]
    exact ht.reads_substitution hx hs hsub
  have hsettled : ∀ ts : List Token,
      (ts.map fun u => [u.settle]).flatten = ts.map Token.settle := by
    intro ts
    rw [← List.flatMap_def, ← List.map_eq_flatMap]
  have hreads := reads_unwords (List.rel_append (List.rel_append (hrow hhead) hmiddle) (hrow htail))
  rw [List.flatten_append, List.flatten_append, hsettled, hsettled] at hreads
  rw [substitute, normalize_unwords]
  cases sub with
  | none => simpa [Token.textsOf, Function.comp_def] using hreads
  | some s => simpa [Function.comp_def] using hreads

end Phrasebook.Template
