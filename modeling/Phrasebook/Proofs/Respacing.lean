import Phrasebook.Proofs.CrossProduct

/-!
# Spacing between tokens

Tokens joined by single spaces read as the same tokens again (`reads_joined`). A step of expansion
depends on nothing but the normal form of the template (`expand_congr`), and what it leaves is
joined by single spaces in any case. So a template with a group expands as its tokens do when they
are joined that way (`expand_joined`), although the normal form of the joined text may lack groups
that the template still has.
-/

namespace Phrasebook.Template

/-- The texts of tokens with single spaces between them. -/
def joined (ts : List Token) : Text :=
  Text.unwords (ts.map (·.text))

lemma reads_joined {ts : List Token} (hts : ∀ t ∈ ts, t.IsLexeme) : Reads (joined ts) ts := by
  have hrow : List.Forall₂ Reads (ts.map (·.text)) (ts.map fun t => [t]) := by
    apply forall₂_reads
    intro t ht
    exact (hts t ht).reads
  have hflat : (ts.map fun t => [t]).flatten = ts := by
    rw [← List.flatMap_def, List.flatMap_singleton']
  have hreads := reads_unwords hrow
  rwa [hflat] at hreads

lemma texts_settle (ts : List Token) :
    (ts.map Token.settle).map (·.text) = (ts.map (·.text)).map normalize := by
  simp [Function.comp_def, Token.settle_text]

lemma normalize_joined (ts : List Token) :
    normalize (joined ts) = joined (ts.map Token.settle) := by
  rw [joined, joined, normalize_unwords, texts_settle]

lemma normalize_substitute (head : List Token) (sub : Option Text) (tail : List Token) :
    normalize (substitute head sub tail) =
      substitute (head.map Token.settle) (sub.map normalize) (tail.map Token.settle) := by
  rw [substitute, substitute, normalize_unwords, List.map_append, List.map_append, texts_settle,
    texts_settle, Option.toList_map]

lemma settle_settled {ts : List Token} (hts : ∀ t ∈ ts, t.IsLexeme) :
    (ts.map Token.settle).map Token.settle = ts.map Token.settle := by
  rw [List.map_map]
  apply List.map_congr_left
  intro t ht
  exact (hts t ht).settle_settle

lemma reads_normalize_joined {ts : List Token} (hts : ∀ t ∈ ts, t.IsLexeme) :
    Reads (normalize (joined ts)) (ts.map Token.settle) := by
  rw [normalize_joined]
  apply reads_joined
  intro u hu
  obtain ⟨t, ht, rfl⟩ := List.mem_map.1 hu
  exact (hts t ht).settle

theorem expand_joined {template : Text} {ts : List Token} (h : Reads (normalize template) ts)
    (hx : ∃ t ∈ ts, t.expandable = true) : expand (joined ts) = expand template := by
  obtain ⟨head, t, tail, rfl, hleft⟩ := exists_leftmost h hx
  have ht : t.IsLexeme := hleft.isLexeme t (by simp)
  have htail : ∀ u ∈ tail, u.IsLexeme := fun u hu => hleft.isLexeme u (by simp [hu])
  have hrow : (head ++ t :: tail).map Token.settle = head ++ t.settle :: tail.map Token.settle := by
    rw [List.map_append, List.map_cons, hleft.head_settle]
  by_cases hsettle : t.settle.expandable = true
  · have hleft' : Leftmost (joined (head ++ t :: tail)) head t (tail.map Token.settle) := by
      refine ⟨?_, hleft.words, hleft.expandable⟩
      have hreads := reads_normalize_joined hleft.isLexeme
      rwa [hrow, Token.settle_eq_self hsettle] at hreads
    have hchild (sub : Option Text) : expand (substitute head sub (tail.map Token.settle)) =
        expand (substitute head sub tail) := by
      apply expand_congr
      rw [normalize_substitute, normalize_substitute, settle_settled htail]
    simp only [hleft.expand_eq, hleft'.expand_eq, hchild]
  · have hword : t.settle.expandable = false := by simpa using hsettle
    have hsingle : expand template = expand (substitute head (some t.settle.text) tail) := by
      rw [hleft.expand_eq, ht.settling.branches hword]
      simp only [Except.bind, Choices.toList, List.mapM_cons, List.mapM_nil]
      cases expand (substitute head (some t.settle.text) tail) with
      | error f => rfl
      | ok ps => exact congrArg Except.ok (List.append_nil ps)
    rw [hsingle]
    apply expand_congr
    rw [normalize_joined, hrow, normalize_substitute, hleft.head_settle, Option.map_some,
      ← Token.settle_text, ht.settle_settle]
    simp [joined, substitute]

/-- Tokens do not depend on the spacing between them, and neither does the expansion of a template
with a group: the template and its tokens joined by single spaces have the same phrases in the same
order, or the same fault. -/
theorem spacing_is_irrelevant :
    (∀ s ts, tokenize s = .ok ts → tokenize (joined ts) = .ok ts) ∧
      ∀ template ts, tokenize (normalize template) = .ok ts → (∃ t ∈ ts, t.expandable = true) →
        expand (joined ts) = expand template := by
  constructor
  · intro s ts h
    rw [tokenize_eq_ok_iff] at h ⊢
    exact reads_joined h.isLexeme
  · intro template ts h hx
    exact expand_joined (tokenize_eq_ok_iff.1 h) hx

/-- A wide blank and glued groups; and a template with a lone word before a group and one in a slot
behind it, both of which the normal form of the template still has as groups. -/
theorem spacing_is_irrelevant_nested :
    tokenize "go(a  b|c)\u3000d".toText =
        .ok [⟨.word, "go".toText⟩, ⟨.alternation, "(a  b|c)".toText⟩, ⟨.word, "d".toText⟩] ∧
      tokenize "go (a  b|c) d".toText =
        .ok [⟨.word, "go".toText⟩, ⟨.alternation, "(a  b|c)".toText⟩, ⟨.word, "d".toText⟩] ∧
      tokenize (normalize "((d))(|e  f)\x7b((g))|S\x7d".toText) =
        .ok [⟨.alternation, "(d)".toText⟩, ⟨.alternation, "(|e  f)".toText⟩,
          ⟨.slot, "\x7b(g)|S\x7d".toText⟩] ∧
      expand "(d) (|e  f) \x7b(g)|S\x7d".toText =
        expand "((d))(|e  f)\x7b((g))|S\x7d".toText := by
  have htokens : tokenize "go(a  b|c)\u3000d".toText =
      .ok [⟨.word, "go".toText⟩, ⟨.alternation, "(a  b|c)".toText⟩, ⟨.word, "d".toText⟩] := by
    decide +kernel
  have hnested : tokenize (normalize "((d))(|e  f)\x7b((g))|S\x7d".toText) =
      .ok [⟨.alternation, "(d)".toText⟩, ⟨.alternation, "(|e  f)".toText⟩,
        ⟨.slot, "\x7b(g)|S\x7d".toText⟩] := by
    decide +kernel
  have hretokens := spacing_is_irrelevant.1 _ _ htokens
  have hexpand := spacing_is_irrelevant.2 _ _ hnested ⟨_, List.mem_cons_self, rfl⟩
  exact ⟨htokens, hretokens, hnested, hexpand⟩

end Phrasebook.Template
