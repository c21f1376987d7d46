import Phrasebook.Proofs.Counting

/-!
# Phrases are final

A phrase is the normal form of a template in which nothing is left to choose (`IsTerminal`). Such a
text has no round bracket, its curly brackets are balanced, and it is a fixed point of
normalization and of expansion (`phrase_is_final`).
-/

namespace Phrasebook.Template

/-- A text is terminal when it reads as tokens none of which offers a choice. -/
def IsTerminal (s : Text) : Prop :=
  ∃ ts, Reads s ts ∧ ∀ t ∈ ts, t.expandable = false

lemma Reads.balanced {s : Text} {ts : List Token} (h : Reads s ts) : Balanced s := by
  induction h with
  | nil => exact .nil
  | blank hc _ ih => exact .plain (not_isBracket_of_isBlank hc) ih
  | word _ hrun _ _ ih =>
    exact (balanced_of_forall fun c hc => (isWordChar_iff.1 (hrun c hc)).2).append ih
  | group ht _ ih =>
    obtain ⟨shape, inner, hinner, htext⟩ := ht.exists_enclosed
    rw [htext]
    exact (hinner.enclose shape).append ih

lemma Reads.round_not_mem {s : Text} {ts : List Token} (h : Reads s ts)
    (hwords : ∀ t ∈ ts, t.expandable = false) : char '(' ∉ s := by
  induction h with
  | nil => simp
  | @blank c s ts hc _ ih =>
    have hne : '(' ≠ c := by
      rintro rfl
      exact absurd hc (by decide)
    simpa [hne] using ih hwords
  | @word run s ts _ hrun _ _ ih =>
    have hrest := ih fun t ht => hwords t (by simp [ht])
    have hrun' := not_mem_of_forall (b := '(') (fun c hc => (isWordChar_iff.1 (hrun c hc)).2) rfl
    exact fun hmem => (List.mem_append.1 hmem).elim hrun' hrest
  | @group t s ts ht _ ih =>
    have hrest := ih fun u hu => hwords u (by simp [hu])
    have hk : t.kind = .word := by simpa [Token.expandable] using hwords t (by simp)
    have htext := Token.IsLexeme.not_mem_of_word (.inr ht) hk
    exact fun hmem => (List.mem_append.1 hmem).elim htext hrest

namespace IsTerminal

variable {s : Text}

lemma balanced (h : IsTerminal s) : Balanced s :=
  let ⟨_, hreads, _⟩ := h
  hreads.balanced

lemma opener_not_mem (h : IsTerminal s) : char '(' ∉ s :=
  let ⟨_, hreads, hwords⟩ := h
  hreads.round_not_mem hwords

lemma closer_not_mem (h : IsTerminal s) : char ')' ∉ s := by
  intro hmem
  exact h.opener_not_mem ((h.balanced.closer_mem_iff .round).1 hmem)

lemma normalize_eq (h : IsTerminal s) : normalize s = s :=
  normalize_eq_self h.opener_not_mem

lemma branch_eq (h : IsTerminal s) : branch s = .ok (.phrase s) := by
  obtain ⟨ts, hreads, hwords⟩ := id h
  rw [← h.normalize_eq] at hreads
  rw [branch_of_words hreads hwords, h.normalize_eq]

lemma expand_eq (h : IsTerminal s) : expand s = .ok [s] :=
  expand_of_phrase h.branch_eq

lemma count_eq (h : IsTerminal s) : count s = .ok 1 := by
  rw [count_eq_map_length, h.expand_eq]
  rfl

end IsTerminal

lemma exists_branch_of_mem_expand {template : Text} {ps : List Text}
    (h : expand template = .ok ps) {p : Text} (hp : p ∈ ps) :
    ∃ t, branch t = .ok (.phrase p) := by
  induction template using branch_induction generalizing ps with
  | step template ih =>
    cases hbranch : branch template with
    | error f => simp [expand_of_error hbranch] at h
    | ok result =>
      cases result with
      | phrase q =>
        obtain rfl : [q] = ps := Except.ok.inj ((expand_of_phrase hbranch).symm.trans h)
        obtain rfl := List.mem_singleton.1 hp
        exact ⟨template, hbranch⟩
      | templates us =>
        obtain ⟨u, hu, qs, hexpand, hpq⟩ := exists_of_mem_expand hbranch h hp
        exact ih us hbranch u hu hexpand hpq

theorem isTerminal_of_mem_expand {template : Text} {ps : List Text}
    (h : expand template = .ok ps) {p : Text} (hp : p ∈ ps) : IsTerminal p := by
  obtain ⟨t, hbranch⟩ := exists_branch_of_mem_expand h hp
  have hstep := branch_step t
  rw [hbranch] at hstep
  cases hstep with
  | phrase hreads hwords => exact ⟨_, hreads, hwords⟩

/-- Every phrase of a template is final: it has no round bracket, its brackets are balanced, all of
its tokens are words, and normalizing it, expanding it and counting it change nothing. -/
theorem phrase_is_final {template : Text} {ps : List Text} (h : expand template = .ok ps)
    {p : Text} (hp : p ∈ ps) :
    char '(' ∉ p ∧ char ')' ∉ p ∧ Balanced p ∧
      (∃ ts, tokenize p = .ok ts ∧ ∀ t ∈ ts, t.kind = .word) ∧
      normalize p = p ∧ expand p = .ok [p] ∧ count p = .ok 1 := by
  have hterminal := isTerminal_of_mem_expand h hp
  obtain ⟨ts, hreads, hwords⟩ := id hterminal
  have hkinds : ∀ t ∈ ts, t.kind = .word := by
    intro t ht
    simpa [Token.expandable] using hwords t ht
  exact ⟨hterminal.opener_not_mem, hterminal.closer_not_mem, hterminal.balanced,
    ⟨ts, tokenize_eq_ok_iff.2 hreads, hkinds⟩, hterminal.normalize_eq, hterminal.expand_eq,
    hterminal.count_eq⟩

/-- The second phrase of a template with nested lone words, an omission and a slot with blanks. -/
theorem phrase_is_final_slot :
    expand "((a)) (|b) \x7b(c  d|e)|S\x7d".toText =
        .ok ["a b \x7bc  d|S\x7d".toText, "a b \x7be|S\x7d".toText,
          "a \x7bc  d|S\x7d".toText, "a \x7be|S\x7d".toText] ∧
      char '(' ∉ "a \x7bc  d|S\x7d".toText ∧ char ')' ∉ "a \x7bc  d|S\x7d".toText ∧
      Balanced "a \x7bc  d|S\x7d".toText ∧
      (∃ ts, tokenize "a \x7bc  d|S\x7d".toText = .ok ts ∧ ∀ t ∈ ts, t.kind = .word) ∧
      normalize "a \x7bc  d|S\x7d".toText = "a \x7bc  d|S\x7d".toText ∧
      expand "a \x7bc  d|S\x7d".toText = .ok ["a \x7bc  d|S\x7d".toText] ∧
      count "a \x7bc  d|S\x7d".toText = .ok 1 :=
  have hexpand : expand "((a)) (|b) \x7b(c  d|e)|S\x7d".toText = _ := by decide +kernel
  ⟨hexpand, phrase_is_final hexpand (by decide)⟩

end Phrasebook.Template
