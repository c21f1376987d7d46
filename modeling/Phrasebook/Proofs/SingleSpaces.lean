import Phrasebook.Proofs.Respacing
import Phrasebook.Proofs.Terminal

/-!
# Spaces inside phrases

Every step of expansion joins tokens by single spaces, and what it joins is read as tokens again at
the next step. Only the substitution that is made last is not read again, so a phrase of a template
with a group has single spaces between its tokens, but for what the alternative chosen for the last
group has between its words (`phrase_spaced`).
-/

namespace Phrasebook

namespace Text

/-- A text that begins and ends with a character other than a blank. -/
structure IsTrimmed (s : Text) : Prop where
  ne_nil : s ≠ []
  first : ∀ c ∈ s.head?, isBlank c = false
  last : ∀ c ∈ s.getLast?, isBlank c = false

end Text

namespace Template

lemma isTrimmed_unwords {ws : List Text} (hne : ws ≠ []) (h : ∀ w ∈ ws, Text.IsTrimmed w) :
    Text.IsTrimmed (Text.unwords ws) := by
  induction ws with
  | nil => exact absurd rfl hne
  | cons w ws ih =>
    have hw := h w List.mem_cons_self
    cases ws with
    | nil => simpa [Text.unwords] using hw
    | cons v ws =>
      have hrest := ih (by simp) fun u hu => h u (List.mem_cons_of_mem w hu)
      rw [unwords_cons_cons]
      refine ⟨by simp, fun c hc => hw.first c ?_, fun c hc => hrest.last c ?_⟩
      · rwa [List.head?_append_of_ne_nil _ hw.ne_nil] at hc
      · rwa [List.getLast?_append_of_ne_nil _ (by simp), List.getLast?_cons_of_ne_nil hrest.ne_nil]
          at hc

lemma strip_unwords {ws : List Text} (h : ∀ w ∈ ws, Text.IsTrimmed w) :
    Text.strip (Text.unwords ws) = Text.unwords ws := by
  by_cases hne : ws = []
  · rw [hne]
    rfl
  · have htrimmed := isTrimmed_unwords hne h
    exact Text.strip_eq_self htrimmed.first htrimmed.last

lemma Token.IsLexeme.isTrimmed {t : Token} (ht : t.IsLexeme) : Text.IsTrimmed t.text := by
  rcases ht with ⟨run, hne, hrun, rfl⟩ | ht
  · exact ⟨hne, fun c hc => (isWordChar_iff.1 (hrun c (List.mem_of_mem_head? hc))).1,
      fun c hc => (isWordChar_iff.1 (hrun c (List.mem_of_mem_getLast? hc))).1⟩
  · obtain ⟨shape, inner, -, htext⟩ := ht.exists_enclosed
    have hopener : Text.isBlank shape.opener = false := by cases shape <;> decide
    have hcloser : Text.isBlank shape.closer = false := by cases shape <;> decide
    rw [htext]
    exact ⟨by simp, by simpa using hopener, by rw [List.getLast?_concat]; simpa using hcloser⟩

lemma isTrimmed_strip {s : Text} (hne : Text.strip s ≠ []) : Text.IsTrimmed (Text.strip s) := by
  have hfront (s : Text) : ∀ c ∈ (s.dropWhile Text.isBlank).head?, Text.isBlank c = false := by
    intro c hc
    have hhead := List.head?_dropWhile_not Text.isBlank s
    rwa [Option.mem_def.1 hc] at hhead
  have hprefix : Text.strip s <+: s.dropWhile Text.isBlank := by
    rw [← List.reverse_suffix]
    simpa [Text.strip, Text.stripEnd] using List.dropWhile_suffix Text.isBlank
  refine ⟨hne, fun c hc => hfront s c ?_,
    fun c hc => hfront (s.dropWhile Text.isBlank).reverse c ?_⟩
  · obtain ⟨rest, hrest⟩ := hprefix
    rw [← hrest, List.head?_append_of_ne_nil _ hne]
    exact hc
  · rwa [Text.strip, Text.stripEnd, List.getLast?_reverse] at hc

lemma isTrimmed_of_mem_alternatives {content w : Text} (h : w ∈ alternatives content) :
    Text.IsTrimmed w := by
  obtain ⟨hw, hne⟩ := List.mem_filter.1 h
  obtain ⟨piece, -, rfl⟩ := List.mem_map.1 hw
  exact isTrimmed_strip (by simpa using hne)

/-- The groups of a row of tokens that do not settle as words. -/
def lastingGroups (ts : List Token) : List Token :=
  (ts.map Token.settle).filter (·.expandable)

lemma lastingGroups_append (ts us : List Token) :
    lastingGroups (ts ++ us) = lastingGroups ts ++ lastingGroups us := by
  simp [lastingGroups]

lemma lastingGroups_eq_nil_iff {ts : List Token} :
    lastingGroups ts = [] ↔ ∀ t ∈ ts.map Token.settle, t.expandable = false := by
  simp [lastingGroups]

/-- The last group of a template is the last one of each template that a step leaves, as long as
there is one behind the group that the step resolves. -/
lemma Leftmost.getLast?_lastingGroups {template : Text} {head tail : List Token} {t : Token}
    (h : Leftmost template head t tail) (hmore : lastingGroups tail ≠ []) (ws : List Text) :
    (lastingGroups (head ++ ws.map .ofWord ++ tail.map Token.settle)).getLast? =
      (lastingGroups (head ++ t :: tail)).getLast? := by
  have htail : lastingGroups (tail.map Token.settle) = lastingGroups tail := by
    rw [lastingGroups, settle_settled fun u hu => h.isLexeme u (by simp [hu]), lastingGroups]
  rw [lastingGroups_append, htail, List.append_cons, lastingGroups_append (head ++ [t]),
    List.getLast?_append_of_ne_nil _ hmore, List.getLast?_append_of_ne_nil _ hmore]

/-- How a phrase with these tokens is spaced, given the last group of its template: by single spaces
between its tokens, but for blanks between the words of an alternative of that group. -/
inductive Spaced (last : Option Token) (p : Text) (us : List Token) : Prop
  | single (h : p = joined us)
  | within {t : Token} {before after : List Text} {w : Text} (hlast : last = some t)
      (hk : t.kind = .alternation) (hw : w ∈ alternatives (Text.inside t.text))
      (htexts : us.map (·.text) = before ++ Text.words w ++ after)
      (hp : p = Text.unwords (before ++ w :: after))

/-- A token that settles as a word is replaced by one token. -/
lemma Token.IsLexeme.textsOf_eq {t : Token} (ht : t.IsLexeme) (h : t.settle.expandable = false)
    {subs : Choices (Option Text)} (hs : t.branches = .ok subs) {s : Text}
    (hsub : some s ∈ subs.toList) : t.textsOf (some s) = [s] := by
  obtain rfl := Except.ok.inj (hs.symm.trans (ht.settling.branches h))
  obtain rfl : s = t.settle.text := by simpa [Choices.toList] using hsub
  have hchoices := ht.settling.choices
  rw [choices_of_not_expandable h, choices_of_branches hs] at hchoices
  simpa [Choices.toList] using (Except.ok.inj hchoices).symm

section Last

variable {template : Text} {head tail : List Token} {t : Token} {subs : Choices (Option Text)}
  {sub : Option Text}

lemma Leftmost.normalize_substitute_eq (h : Leftmost template head t tail)
    (hs : t.branches = .ok subs) (hsub : sub ∈ subs.toList) :
    normalize (substitute head sub tail) = substitute head sub (tail.map Token.settle) := by
  have hnormal : sub.map normalize = sub := by
    cases sub with
    | none => rfl
    | some s => rw [Option.map_some, h.isGroup.normalize_substitution h.expandable hs hsub]
  rw [normalize_substitute, h.head_settle, hnormal]

/-- The phrase that the last substitution makes. -/
lemma Leftmost.spaced_substitute (h : Leftmost template head t tail) (hs : t.branches = .ok subs)
    (hsub : sub ∈ subs.toList) (hmore : lastingGroups tail = []) :
    Spaced (lastingGroups (head ++ t :: tail)).getLast? (normalize (substitute head sub tail))
      (head ++ (t.textsOf sub).map .ofWord ++ tail.map Token.settle) := by
  rw [h.normalize_substitute_eq hs hsub]
  have hsingle : t.textsOf sub = sub.toList →
      Spaced (lastingGroups (head ++ t :: tail)).getLast?
        (substitute head sub (tail.map Token.settle))
        (head ++ (t.textsOf sub).map .ofWord ++ tail.map Token.settle) := by
    intro htexts
    refine .single ?_
    simp [joined, substitute, htexts, Function.comp_def]
  cases sub with
  | none => exact hsingle rfl
  | some s =>
    by_cases hsettle : t.settle.expandable = true
    · obtain ⟨hk, hw, -⟩ | ⟨hk, -⟩ := h.isGroup.substitution h.expandable hs hsub
      · have hlast : (lastingGroups (head ++ t :: tail)).getLast? = some t := by
          have hgroup : lastingGroups [t] = [t] := by
            simp [lastingGroups, Token.settle_eq_self hsettle, h.expandable]
          rw [List.append_cons, lastingGroups_append, lastingGroups_append, hgroup, hmore]
          simp
        have htexts :
            (head ++ (t.textsOf (some s)).map Token.ofWord ++
                tail.map Token.settle).map Token.text =
              head.map Token.text ++ Text.words s ++ (tail.map Token.settle).map Token.text := by
          simp [Token.textsOf, hk, Function.comp_def]
        refine .within hlast hk hw htexts ?_
        simp [substitute]
      · exact hsingle (by simp [Token.textsOf, hk])
    · have hlexeme : t.IsLexeme := .inr h.isGroup
      exact hsingle (hlexeme.textsOf_eq (by simpa using hsettle) hs hsub)

end Last

/-- The phrases of a template with a group. -/
theorem spaced_of_mem_expand {template : Text} {ts : List Token} (h : Reads (normalize template) ts)
    (hx : ∃ t ∈ ts, t.expandable = true) {ps : List Text} (hexpand : expand template = .ok ps)
    {p : Text} (hp : p ∈ ps) :
    ∃ us, Reads p us ∧ Spaced (lastingGroups ts).getLast? p us := by
  induction template using branch_induction generalizing ts ps with
  | step template ih =>
    have hstep := branch_step template
    generalize hbranch : branch template = result at hstep
    cases hstep with
    | unreadable hf => simp [tokenize_eq_ok_iff.2 h] at hf
    | phrase hreads hwords =>
      obtain rfl := h.unique hreads
      obtain ⟨t, ht, htx⟩ := hx
      simp [hwords t ht] at htx
    | stuck => simp [expand_of_error hbranch] at hexpand
    | @templates head tail t subs hleft hs =>
      obtain rfl := h.unique hleft.reads
      obtain ⟨u, hu, qs, hchild, hpq⟩ := exists_of_mem_expand hbranch hexpand hp
      obtain ⟨sub, hsub, rfl⟩ : ∃ sub ∈ subs.toList, substitute head sub tail = u := by
        simpa [Choices.toList_map] using hu
      have hreads := hleft.reads_substitute hs hsub
      by_cases hmore : lastingGroups tail = []
      · have hwords : ∀ v ∈ head ++ (t.textsOf sub).map .ofWord ++ tail.map Token.settle,
            v.expandable = false :=
          List.forall_mem_append.2 ⟨hleft.words_substitute sub, lastingGroups_eq_nil_iff.1 hmore⟩
        have hphrase := expand_of_phrase (branch_of_words hreads hwords)
        obtain rfl := Except.ok.inj (hphrase.symm.trans hchild)
        obtain rfl := List.mem_singleton.1 hpq
        exact ⟨_, hreads, hleft.spaced_substitute hs hsub hmore⟩
      · obtain ⟨v, hv, hvx⟩ : ∃ v ∈ tail.map Token.settle, v.expandable = true := by
          simpa using mt lastingGroups_eq_nil_iff.2 hmore
        have hspaced := ih _ hbranch _ hu hreads ⟨v, by simp [hv], hvx⟩ hchild hpq
        rwa [hleft.getLast?_lastingGroups hmore] at hspaced

lemma unwords_append {ws vs : List Text} (hws : ws ≠ []) (hvs : vs ≠ []) :
    Text.unwords (ws ++ vs) = Text.unwords ws ++ char ' ' :: Text.unwords vs := by
  induction ws with
  | nil => exact absurd rfl hws
  | cons w ws ih =>
    cases ws with
    | nil => simp [Text.unwords, List.intercalate_cons_of_ne_nil hvs]
    | cons v ws =>
      have hrest := ih (by simp)
      rw [List.cons_append, List.cons_append, unwords_cons_cons, ← List.cons_append, hrest,
        unwords_cons_cons]
      simp

/-- Words that are joined already can be joined to others. -/
lemma unwords_nested {ws : List Text} (hws : ws ≠ []) (before after : List Text) :
    Text.unwords (before ++ Text.unwords ws :: after) = Text.unwords (before ++ ws ++ after) := by
  have hbehind : Text.unwords (Text.unwords ws :: after) = Text.unwords (ws ++ after) := by
    cases after with
    | nil => simp [Text.unwords]
    | cons a after => rw [unwords_cons_cons, unwords_append hws (by simp)]
  by_cases hbefore : before = []
  · rw [hbefore, List.nil_append, hbehind, List.nil_append]
  · rw [unwords_append hbefore (by simp), hbehind, List.append_assoc,
      unwords_append hbefore (by simp [hws])]

namespace Spaced

variable {last : Option Token} {p : Text} {us : List Token}

lemma strip_eq (h : Spaced last p us) (hus : ∀ u ∈ us, u.IsLexeme) : Text.strip p = p := by
  have htexts : ∀ w ∈ us.map (·.text), Text.IsTrimmed w := by
    intro w hw
    obtain ⟨u, hu, rfl⟩ := List.mem_map.1 hw
    exact (hus u hu).isTrimmed
  cases h with
  | single hp =>
    rw [hp]
    exact strip_unwords htexts
  | @within t before after w _ _ hw htokens hp =>
    rw [hp]
    apply strip_unwords
    rw [htokens] at htexts
    intro v hv
    rcases List.mem_append.1 hv with hv | hv
    · exact htexts v (by simp [hv])
    · rcases List.mem_cons.1 hv with rfl | hv
      · exact isTrimmed_of_mem_alternatives hw
      · exact htexts v (by simp [hv])

lemma eq_joined (h : Spaced last p us)
    (hsingle : ∀ t ∈ last, t.kind = .alternation →
      ∀ w ∈ alternatives (Text.inside t.text), w = Text.unwords (Text.words w)) :
    p = joined us := by
  cases h with
  | single hp => exact hp
  | @within t before after w hlast hk hw htokens hp =>
    have heq := hsingle t hlast hk w hw
    have hne : Text.words w ≠ [] := by
      intro hnil
      rw [hnil] at heq
      exact (isTrimmed_of_mem_alternatives hw).ne_nil heq
    rw [joined, htokens, ← unwords_nested hne, ← heq]
    exact hp

end Spaced

/-- A phrase of a template with a group has no blanks at its ends and single spaces between its
tokens, but for blanks between the words of the alternative that is chosen for the last group that
holds more than a lone word. Where this group is a slot, or none of its alternatives has anything
but single spaces between its words, the phrase is its tokens joined by single spaces. -/
theorem phrase_spaced {template : Text} {ts : List Token}
    (htokens : tokenize (normalize template) = .ok ts) (hx : ∃ t ∈ ts, t.expandable = true)
    {ps : List Text} (h : expand template = .ok ps) {p : Text} (hp : p ∈ ps) :
    ∃ us, tokenize p = .ok us ∧ Text.strip p = p ∧ Spaced (lastingGroups ts).getLast? p us ∧
      ((∀ t ∈ (lastingGroups ts).getLast?, t.kind = .alternation →
          ∀ w ∈ alternatives (Text.inside t.text), w = Text.unwords (Text.words w)) →
        p = joined us) := by
  obtain ⟨us, hreads, hspaced⟩ := spaced_of_mem_expand (tokenize_eq_ok_iff.1 htokens) hx h hp
  exact ⟨us, tokenize_eq_ok_iff.2 hreads, hspaced.strip_eq hreads.isLexeme, hspaced,
    hspaced.eq_joined⟩

/-- Wide blanks in and around an alternation that is the last group but for a lone word in two pairs
of brackets, and in a slot that is the last group. -/
theorem phrase_spaced_last :
    (expand "(a  b|c)  x (d  e)   ((g))".toText = .ok ["a b x d  e g".toText, "c x d  e g".toText] ∧
      ∃ us, tokenize "a b x d  e g".toText = .ok us ∧
        Text.strip "a b x d  e g".toText = "a b x d  e g".toText ∧
        Spaced (some ⟨.alternation, "(d  e)".toText⟩) "a b x d  e g".toText us) ∧
    expand "(|a  b)  \x7b(c  d)|S\x7d".toText =
        .ok ["a b \x7bc  d|S\x7d".toText, "\x7bc  d|S\x7d".toText] ∧
      ∃ us, tokenize "a b \x7bc  d|S\x7d".toText = .ok us ∧
        "a b \x7bc  d|S\x7d".toText = joined us := by
  have htokens : tokenize (normalize "(a  b|c)  x (d  e)   ((g))".toText) =
      .ok [⟨.alternation, "(a  b|c)".toText⟩, ⟨.word, "x".toText⟩, ⟨.alternation, "(d  e)".toText⟩,
        ⟨.alternation, "(g)".toText⟩] := by
    decide +kernel
  have hexpand : expand "(a  b|c)  x (d  e)   ((g))".toText =
      .ok ["a b x d  e g".toText, "c x d  e g".toText] := by
    decide +kernel
  have hlast : (lastingGroups [⟨.alternation, "(a  b|c)".toText⟩, ⟨.word, "x".toText⟩,
      ⟨.alternation, "(d  e)".toText⟩, ⟨.alternation, "(g)".toText⟩]).getLast? =
        some ⟨.alternation, "(d  e)".toText⟩ := by
    decide +kernel
  have hslot : tokenize (normalize "(|a  b)  \x7b(c  d)|S\x7d".toText) =
      .ok [⟨.alternation, "(|a  b)".toText⟩, ⟨.slot, "\x7b(c  d)|S\x7d".toText⟩] := by
    decide +kernel
  have hexpand' : expand "(|a  b)  \x7b(c  d)|S\x7d".toText =
      .ok ["a b \x7bc  d|S\x7d".toText, "\x7bc  d|S\x7d".toText] := by
    decide +kernel
  have hlast' : (lastingGroups [⟨.alternation, "(|a  b)".toText⟩,
      ⟨.slot, "\x7b(c  d)|S\x7d".toText⟩]).getLast? = some ⟨.slot, "\x7b(c  d)|S\x7d".toText⟩ := by
    decide +kernel
  obtain ⟨us, hus, hstrip, hspaced, -⟩ :=
    phrase_spaced htokens ⟨_, List.mem_cons_self, rfl⟩ hexpand List.mem_cons_self
  obtain ⟨vs, hvs, -, -, hjoined⟩ :=
    phrase_spaced hslot ⟨_, List.mem_cons_self, rfl⟩ hexpand' List.mem_cons_self
  rw [hlast] at hspaced
  rw [hlast'] at hjoined
  refine ⟨⟨hexpand, us, hus, hstrip, hspaced⟩, hexpand', vs, hvs, hjoined fun t ht hk => ?_⟩
  obtain rfl := Option.mem_some.1 ht
  exact nomatch hk

/-- The blanks of an alternative that is chosen last stay in the phrase. -/
theorem not_joined_of_last_blanks :
    tokenize (normalize "(a  b|c)".toText) = .ok [⟨.alternation, "(a  b|c)".toText⟩] ∧
      expand "(a  b|c)".toText = .ok ["a  b".toText, "c".toText] ∧
      tokenize "a  b".toText = .ok [⟨.word, "a".toText⟩, ⟨.word, "b".toText⟩] ∧
      "a  b".toText ≠ joined [⟨.word, "a".toText⟩, ⟨.word, "b".toText⟩] := by
  decide +kernel

end Template

end Phrasebook
