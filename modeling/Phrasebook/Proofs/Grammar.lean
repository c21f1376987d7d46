import Phrasebook.Proofs.OpenBrackets

/-!
# The grammar of templates

A text has tokens exactly when its brackets are balanced and every group with no bracket open around
it holds what its shape allows. Otherwise the first violation in the order of the scan is reported
(`Verdict`): a group as soon as it closes, a closing bracket without a partner where it stands, and
an opener without a partner at the end (`tokenize_reports_first_violation`).
-/

namespace Phrasebook.Template

/-- The group of this shape around a text. -/
def Shape.enclose (shape : Shape) (inner : Text) : Text :=
  shape.opener :: inner ++ [shape.closer]

/-- What a group may hold: no bracket in a round one, and in a curly one either no round opener or
alternatives in round brackets with a name behind them. -/
def Shape.Allows : Shape → Text → Prop
  | .round, inner => ∀ c ∈ inner, isBracket c = false
  | .curly, inner => char '(' ∉ inner ∨
    ∃ choices name, inner = char '(' :: choices ++ char ')' :: name ∧
      (∀ c ∈ choices, isBracket c = false) ∧ ∀ c ∈ name, isBracket c = false

/-- The fault of a group that holds what its shape does not allow. -/
def Shape.malformed : Shape → Text → Text → Fault
  | .round => .nestedGroup
  | .curly => .malformedSlot

/-- After `before` the text has a group of this shape around `inner`, and no bracket is open around
the group. -/
structure Outermost (s before : Text) (shape : Shape) (inner : Text) : Prop where
  outside : Balanced before
  inside : Balanced inner
  stands : before ++ shape.enclose inner <+: s

/-- Every outermost group of the text holds what its shape allows. -/
def Orderly (s : Text) : Prop :=
  ∀ before shape inner, Outermost s before shape inner → shape.Allows inner

lemma Shape.allows_of_ofGroup {shape : Shape} {template inner : Text} (hinner : Balanced inner)
    {t : Token} (h : Token.ofGroup template (shape.enclose inner) = .ok t) :
    shape.Allows inner := by
  obtain ⟨hgroup, htext⟩ := Token.isGroup_of_ofGroup hinner h
  have hinside : Text.inside t.text = inner := by
    rw [htext, inside_enclose]
  cases hgroup with
  | @alternation choices hchoices =>
    rw [inside_enclose] at hinside
    subst hinside
    cases shape with
    | round => exact hchoices
    | curly => simp [Shape.opener] at htext
  | @slot choices name hchoices hname =>
    rw [inside_enclose] at hinside
    subst hinside
    cases shape with
    | round => simp [Shape.opener] at htext
    | curly => exact .inr ⟨choices, name, rfl, hchoices, hname⟩
  | @curly inner' _ hround =>
    rw [inside_enclose] at hinside
    subst hinside
    cases shape with
    | round => simp [Shape.opener] at htext
    | curly => exact .inl hround

lemma Shape.Allows.exists_ofGroup {shape : Shape} {inner : Text} (h : shape.Allows inner)
    (hinner : Balanced inner) (template : Text) :
    ∃ t, Token.ofGroup template (shape.enclose inner) = .ok t := by
  cases shape with
  | round => exact ⟨_, (Token.IsGroup.alternation h).ofGroup template⟩
  | curly =>
    rcases h with hround | ⟨choices, name, rfl, hchoices, hname⟩
    · exact ⟨_, (Token.IsGroup.curly hinner hround).ofGroup template⟩
    · exact ⟨_, (Token.IsGroup.slot hchoices hname).ofGroup template⟩

lemma Shape.eq_malformed_of_ofGroup {shape : Shape} {template inner : Text} {f : Fault}
    (h : Token.ofGroup template (shape.enclose inner) = .error f) :
    f = shape.malformed (shape.enclose inner) template := by
  unfold Token.ofGroup at h
  cases shape with
  | round =>
    rw [if_pos (by simp [Shape.enclose, Shape.opener])] at h
    split_ifs at h
    exact (Except.error.inj h).symm
  | curly =>
    rw [if_neg (by simp [Shape.enclose, Shape.opener])] at h
    split_ifs at h
    exact (Except.error.inj h).symm

lemma Shape.malformed_code_ne (shape : Shape) (group template : Text) :
    (shape.malformed group template).code ≠ "E_UNBALANCED_GROUP".toText := by
  cases shape with
  | round => exact (by decide : "E_MALFORMED_GROUP".toText ≠ "E_UNBALANCED_GROUP".toText)
  | curly => exact (by decide : "E_MALFORMED_SLOT".toText ≠ "E_UNBALANCED_GROUP".toText)

lemma Shape.balanced_enclose (shape : Shape) {inner : Text} (h : Balanced inner) :
    Balanced (shape.enclose inner) :=
  h.enclose shape

@[simp] lemma Shape.length_enclose (shape : Shape) (inner : Text) :
    (shape.enclose inner).length = inner.length + 2 := by
  simp [Shape.enclose]

namespace Outermost

variable {s before inner : Text} {shape : Shape}

lemma balanced (h : Outermost s before shape inner) : Balanced (before ++ shape.enclose inner) :=
  h.outside.append (shape.balanced_enclose h.inside)

lemma opens (h : Outermost s before shape inner) : before ++ shape.opener :: inner <+: s := by
  obtain ⟨rest, hrest⟩ := h.stands
  exact ⟨shape.closer :: rest, by simp [← hrest, Shape.enclose]⟩

/-- A group that ends within a beginning of the text is a group of the beginning. -/
lemma restrict {t : Text} (h : Outermost s before shape inner) (hts : t <+: s)
    (hle : (before ++ shape.enclose inner).length ≤ t.length) : Outermost t before shape inner :=
  ⟨h.outside, h.inside, List.prefix_of_prefix_length_le h.stands hts hle⟩

end Outermost

lemma orderly_nil : Orderly [] := by
  intro before shape inner hgroup
  have hempty := List.prefix_nil.1 hgroup.stands
  simp [Shape.enclose] at hempty

/-- One more character brings at most one outermost group, which it closes. -/
lemma Orderly.snoc {s : Text} {c : CodePoint} (h : Orderly s)
    (hlast : ∀ before (shape : Shape) inner, s ++ [c] = before ++ shape.enclose inner →
      Balanced before → Balanced inner → shape.Allows inner) : Orderly (s ++ [c]) := by
  intro before shape inner hgroup
  rcases List.prefix_concat_iff.1 hgroup.stands with heq | hprefix
  · exact hlast before shape inner heq.symm hgroup.outside hgroup.inside
  · exact h before shape inner ⟨hgroup.outside, hgroup.inside, hprefix⟩

lemma Orderly.snoc_plain {s : Text} {c : CodePoint} (h : Orderly s) (hc : bracket? c = none) :
    Orderly (s ++ [c]) := by
  refine h.snoc fun before shape inner heq _ _ => ?_
  rw [Shape.enclose, ← List.append_assoc] at heq
  obtain ⟨-, rfl⟩ := List.append_singleton_inj.1 heq
  simp at hc

lemma Orderly.snoc_open {s : Text} {c : CodePoint} (h : Orderly s) {o : Opening}
    {outer : List Opening}
    (hopen : Open (s ++ [c]) (o :: outer)) : Orderly (s ++ [c]) := by
  refine h.snoc fun before shape inner heq hbefore hinner => ?_
  rw [heq] at hopen
  have hclosed := hopen.unique (.none (hbefore.append (shape.balanced_enclose hinner)))
  simp at hclosed

/-- The character that closes a group outside all others keeps the text orderly if the group holds
what its shape allows. -/
lemma Orderly.snoc_group {before inner : Text} {shape : Shape}
    (h : Orderly (before ++ shape.opener :: inner)) (hbefore : Balanced before)
    (hinner : Balanced inner) (hallows : shape.Allows inner) :
    Orderly (before ++ shape.opener :: inner ++ [shape.closer]) := by
  refine h.snoc fun before' shape' inner' heq hbefore' hinner' => ?_
  rw [Shape.enclose, ← List.append_assoc] at heq
  obtain ⟨htext, hcloser⟩ := List.append_singleton_inj.1 heq
  obtain rfl := closer_inj.1 hcloser
  have hopen : Open (before ++ shape.opener :: inner) [⟨shape, before.length + 1⟩] :=
    .bracket shape (.none hbefore) hinner
  have hopen' : Open (before ++ shape.opener :: inner) [⟨shape, before'.length + 1⟩] := by
    rw [htext]
    exact .bracket shape (.none hbefore') hinner'
  have hlength : before.length = before'.length := by simpa using hopen.unique hopen'
  obtain ⟨-, hgroup⟩ := List.append_inj htext hlength
  obtain ⟨-, rfl⟩ := List.cons.inj hgroup
  exact hallows

/-- What the scan may find in a text. -/
inductive Verdict (s : Text) : Except Fault (List Token) → Prop
  | accepted {ts : List Token} (hbalanced : Balanced s) (horderly : Orderly s) :
      Verdict s (.ok ts)
  /-- A group is closed that holds what its shape does not allow. -/
  | malformed {before inner : Text} {shape : Shape} (hgroup : Outermost s before shape inner)
      (horderly : Orderly (before ++ shape.opener :: inner)) (hbad : ¬shape.Allows inner) :
      Verdict s (.error (shape.malformed (shape.enclose inner) s))
  /-- A closing bracket is met that matches no opener. -/
  | stray {pre rest : Text} {shape : Shape} {opened : List Opening}
      (hs : s = pre ++ shape.closer :: rest) (hopen : Open pre opened)
      (hstray : ∀ o ∈ opened.head?, o.shape ≠ shape) (horderly : Orderly pre) :
      Verdict s (.error (.unexpectedCloser shape (pre.length + 1) s))
  /-- The text ends with a bracket open. -/
  | unclosed {o : Opening} {outer : List Opening} (hopen : Open s (o :: outer))
      (horderly : Orderly s) : Verdict s (.error (.unclosedGroup o.shape o.column s))

lemma Verdict.map {s : Text} {result : Except Fault (List Token)} (h : Verdict s result)
    (f : List Token → List Token) : Verdict s (result >>= fun ts => .ok (f ts)) := by
  cases h with
  | accepted hbalanced horderly => exact .accepted hbalanced horderly
  | malformed hgroup horderly hbad => exact .malformed hgroup horderly hbad
  | stray hs hopen hstray horderly => exact .stray hs hopen hstray horderly
  | unclosed hopen horderly => exact .unclosed hopen horderly

/-- The state of a scan of the template: the text before what is held back, what is held back, the
column, the open brackets, and the text that is still to come. -/
structure Scanned (template before held : Text) (column : Nat) (opened : List Opening)
    (rest : Text) : Prop where
  text : before ++ held ++ rest = template
  place : column = (before ++ held).length + 1
  outside : Balanced before
  holds : Held (opened.map (·.shape)) held
  leaves : Open (before ++ held) opened
  orderly : Orderly (before ++ held)

namespace Scanned

variable {template before held rest : Text} {column : Nat} {opened : List Opening}

lemma advance {before' held' : Text} {c : CodePoint} {opened' : List Opening}
    (h : Scanned template before held column opened (c :: rest))
    (htext : before' ++ held' = before ++ held ++ [c]) (houtside : Balanced before')
    (hheld : Held (opened'.map (·.shape)) held') (hopen : Open (before ++ held ++ [c]) opened')
    (horderly : Orderly (before ++ held ++ [c])) :
    Scanned template before' held' (column + 1) opened' rest where
  text := by rw [htext, ← h.text]; simp
  place := by rw [htext, h.place, ← List.concat_eq_append, List.length_concat]
  outside := houtside
  holds := hheld
  leaves := by rwa [htext]
  orderly := by rwa [htext]

lemma eq_template (h : Scanned template before held column opened []) :
    before ++ held = template := by
  rw [← h.text, List.append_nil]

/-- The bracket that is met is now the innermost that is open. -/
lemma opens {shape : Shape}
    (h : Scanned template before held column opened (shape.opener :: rest)) :
    Open (before ++ held ++ [shape.opener]) (⟨shape, column⟩ :: opened) := by
  rw [h.place]
  exact .of_last (.opener (bracket?_opener shape) h.leaves)

/-- If one bracket is open and closes, an outermost group has been read. -/
lemma exists_outermost {o : Opening}
    (h : Scanned template before held column [o] (o.shape.closer :: rest)) :
    ∃ inner, held = o.shape.opener :: inner ∧ Balanced inner ∧
      Outermost template before o.shape inner := by
  obtain ⟨inner, hinner, rfl⟩ := h.holds.exists_balanced
  refine ⟨inner, rfl, hinner, h.outside, hinner, rest, ?_⟩
  rw [← h.text]
  simp [Shape.enclose]

end Scanned

theorem scan_verdict {template before held s : Text} {column : Nat} {opened : List Opening}
    (h : Scanned template before held column opened s) :
    Verdict template (scan template column held opened s) := by
  -- every step leads to a state of the same scan, or ends it
  fun_induction scan template column held opened s generalizing before with
  | case1 column run =>
    obtain rfl := h.eq_template
    exact .accepted h.leaves.balanced h.orderly
  | case2 column run o outer =>
    obtain rfl := h.eq_template
    exact .unclosed h.leaves h.orderly
  | case3 column held c rest shape hb ih =>
    obtain rfl := eq_opener_of_bracket? hb
    exact (ih (h.advance rfl h.leaves.balanced (.outermost shape .nil) h.opens
      (h.orderly.snoc_open h.opens))).map _
  | case4 column held c rest shape hb =>
    obtain rfl := eq_closer_of_bracket? hb
    rw [h.place]
    exact .stray h.text.symm h.leaves (by simp) h.orderly
  | case5 column held c rest hb hc ih =>
    have hopen : Open (before ++ held ++ [c]) [] := .of_last (.plain hb h.leaves)
    exact (ih (h.advance (List.append_nil _) hopen.balanced (.run (by simp)) hopen
      (h.orderly.snoc_plain hb))).map _
  | case6 column held c rest hb hc ih =>
    exact ih (h.advance (List.append_assoc ..).symm h.outside (h.holds.snoc_word hc hb)
      (.of_last (.plain hb h.leaves)) (h.orderly.snoc_plain hb))
  | case7 column held o outer c rest shape hb ih =>
    obtain rfl := eq_opener_of_bracket? hb
    exact ih (h.advance (List.append_assoc ..).symm h.outside (.inner shape h.holds .nil) h.opens
      (h.orderly.snoc_open h.opens))
  | case8 column held o c rest hb ih =>
    obtain rfl := eq_closer_of_bracket? hb
    obtain ⟨inner, rfl, hinner, hgroup⟩ := h.exists_outermost
    have horderly := h.orderly
    have hopen : Open (before ++ o.shape.opener :: inner ++ [o.shape.closer]) [] :=
      .of_last (.closer hb h.leaves)
    change Verdict template (Token.ofGroup template (o.shape.enclose inner) >>= fun token =>
      scan template (column + 1) [] [] rest >>= fun tokens => .ok (token :: tokens))
    cases hjudge : Token.ofGroup template (o.shape.enclose inner) with
    | error f =>
      rw [Shape.eq_malformed_of_ofGroup hjudge]
      refine .malformed hgroup horderly fun hallows => ?_
      obtain ⟨t, ht⟩ := hallows.exists_ofGroup hinner template
      simp [ht] at hjudge
    | ok t =>
      have hallows := Shape.allows_of_ofGroup hinner hjudge
      exact (ih (h.advance (List.append_nil _) hopen.balanced (.run (by simp)) hopen
        (horderly.snoc_group h.outside hinner hallows))).map _
  | case9 column held o c rest o' outer hb ih =>
    obtain rfl := eq_closer_of_bracket? hb
    have hopen : Open (before ++ held ++ [o.shape.closer]) (o' :: outer) :=
      .of_last (.closer hb h.leaves)
    exact ih (h.advance (List.append_assoc ..).symm h.outside h.holds.close hopen
      (h.orderly.snoc_open hopen))
  | case10 column held o outer c rest shape hb hne =>
    obtain rfl := eq_closer_of_bracket? hb
    rw [h.place]
    exact .stray h.text.symm h.leaves (by simpa using hne) h.orderly
  | case11 column held o outer c rest hb ih =>
    exact ih (h.advance (List.append_assoc ..).symm h.outside
      (h.holds.append (.plain (isBracket_eq_false_iff.2 hb) .nil))
      (.of_last (.plain hb h.leaves)) (h.orderly.snoc_plain hb))

theorem tokenize_verdict (s : Text) : Verdict s (tokenize s) :=
  scan_verdict ⟨rfl, rfl, .nil, .run (by simp), .none .nil, orderly_nil⟩

lemma exists_tokens_iff {s : Text} :
    (∃ ts, tokenize s = .ok ts) ↔ Balanced s ∧ Orderly s := by
  have hverdict := tokenize_verdict s
  generalize tokenize s = result at hverdict
  cases hverdict with
  | accepted hbalanced horderly => exact ⟨fun _ => ⟨hbalanced, horderly⟩, fun _ => ⟨_, rfl⟩⟩
  | malformed hgroup _ hbad =>
    refine ⟨by simp, ?_⟩
    rintro ⟨-, horderly⟩
    exact absurd (horderly _ _ _ hgroup) hbad
  | @stray pre rest shape opened hs hopen hstray _ =>
    refine ⟨by simp, ?_⟩
    rintro ⟨hbalanced, -⟩
    rw [hs] at hbalanced
    obtain ⟨o, ho, rfl⟩ := hopen.exists_head_of_closer (.none hbalanced)
    exact absurd rfl (hstray o ho)
  | unclosed hopen _ =>
    exact ⟨by simp, fun h => absurd h.1 hopen.not_balanced⟩

/-- At this place stands a closing bracket that matches no opener. -/
def StrayAt (s : Text) (q : Nat) : Prop :=
  ∃ shape : Shape, s[q]? = some shape.closer ∧ ¬HasPartner (s.take q) shape

/-- The place of the first closing bracket that matches no opener, and the end of the text if there
is none. -/
structure IsHorizon (s : Text) (q : Nat) : Prop where
  le : q ≤ s.length
  stray : q < s.length → StrayAt s q
  first : ∀ p < q, ¬StrayAt s p

/-- An outermost group that closes before the place and holds what its shape does not allow. -/
structure Breaks (s : Text) (q : Nat) (before : Text) (shape : Shape) (inner : Text) : Prop where
  group : Outermost s before shape inner
  closes : (before ++ shape.enclose inner).length ≤ q
  bad : ¬shape.Allows inner

lemma IsHorizon.unique {s : Text} {q q' : Nat} (h : IsHorizon s q) (h' : IsHorizon s q') :
    q = q' := by
  rcases Nat.lt_trichotomy q q' with hlt | heq | hlt
  · exact absurd (h.stray (Nat.lt_of_lt_of_le hlt h'.le)) (h'.first q hlt)
  · exact heq
  · exact absurd (h'.stray (Nat.lt_of_lt_of_le hlt h.le)) (h.first q' hlt)

lemma Open.not_strayAt {pre : Text} {opened : List Opening} (h : Open pre opened) (rest : Text)
    {p : Nat} (hp : p < pre.length) : ¬StrayAt (pre ++ rest) p := by
  rintro ⟨shape, hcloser, hpartner⟩
  rw [List.getElem?_append_left hp] at hcloser
  rw [List.take_append_of_le_length (Nat.le_of_lt hp)] at hpartner
  obtain ⟨_, hcloser⟩ := List.getElem?_eq_some_iff.1 hcloser
  have hpre : pre.take p ++ shape.closer :: pre.drop (p + 1) = pre := by
    rw [← hcloser]
    simp
  rw [← hpre] at h
  exact hpartner h.hasPartner_of_closer

lemma isHorizon_of_open {s : Text} {opened : List Opening} (h : Open s opened) :
    IsHorizon s s.length := by
  refine ⟨Nat.le_refl _, fun hlt => absurd hlt (Nat.lt_irrefl _), fun p hp => ?_⟩
  simpa using h.not_strayAt [] hp

lemma isHorizon_of_stray {pre : Text} {opened : List Opening} {shape : Shape}
    (h : Open pre opened) (hstray : ∀ o ∈ opened.head?, o.shape ≠ shape) (rest : Text) :
    IsHorizon (pre ++ shape.closer :: rest) pre.length := by
  refine ⟨by simp, fun _ => ⟨shape, by simp, ?_⟩, fun p hp => h.not_strayAt _ hp⟩
  rw [List.take_left' rfl, h.hasPartner_iff]
  rintro ⟨o, ho, rfl⟩
  exact hstray o ho rfl

theorem existsUnique_isHorizon (s : Text) : ∃! q, IsHorizon s q := by
  refine existsUnique_of_exists_of_unique ?_ fun q q' hq hq' => hq.unique hq'
  rcases Open.exists_or_stray s with
    ⟨opened, hopen⟩ | ⟨pre, opened, rest, shape, rfl, hopen, hstray⟩
  · exact ⟨_, isHorizon_of_open hopen⟩
  · exact ⟨_, isHorizon_of_stray hopen hstray rest⟩

/-- A group that the text has behind the orderly beginning `pre` does not close before `pre` ends,
if it holds what its shape does not allow. -/
lemma Breaks.length_lt {s pre before inner : Text} {q : Nat} {shape : Shape}
    (h : Breaks s q before shape inner) (hpre : pre <+: s) (horderly : Orderly pre) :
    pre.length < (before ++ shape.enclose inner).length := by
  by_contra hle
  exact h.bad (horderly _ _ _ (h.group.restrict hpre (by omega)))

/-- The first group that is closed in disorder is the leftmost that is in disorder. -/
lemma Breaks.le_of_orderly {s before inner before' inner' : Text} {q : Nat} {shape shape' : Shape}
    (hgroup : Outermost s before shape inner) (horderly : Orderly (before ++ shape.opener :: inner))
    (h : Breaks s q before' shape' inner') : before.length ≤ before'.length := by
  by_contra hlt
  have hlength := h.length_lt hgroup.opens horderly
  simp only [List.length_append, List.length_cons, Shape.length_enclose] at hlength
  have hinside : before <+: before' ++ shape'.opener :: inner' := by
    refine List.prefix_of_prefix_length_le ((List.prefix_append ..).trans hgroup.opens)
      h.group.opens ?_
    rw [List.length_append, List.length_cons]
    omega
  exact Open.not_balanced_of_inside (.none h.group.outside) h.group.inside hinside (by omega)
    hgroup.outside

/-- A text has tokens exactly when its brackets are balanced and its outermost groups hold what
their shapes allow. Otherwise its fault is the first violation up to the first closing bracket
without a partner, or up to the end if there is none: the leftmost group that closes before and
holds what its shape does not allow, and an unbalanced bracket if there is no such group. -/
theorem tokenize_reports_first_violation (s : Text) :
    ((∃ ts, tokenize s = .ok ts) ↔ Balanced s ∧ Orderly s) ∧
    (∃! q, IsHorizon s q) ∧
    ∀ q, IsHorizon s q → ¬(Balanced s ∧ Orderly s) →
      ((∃ before shape inner, Breaks s q before shape inner) →
        ∃ before shape inner, Breaks s q before shape inner ∧
          (∀ before' shape' inner', Breaks s q before' shape' inner' →
            before.length ≤ before'.length) ∧
          tokenize s = .error (shape.malformed (shape.enclose inner) s) ∧
          (shape.malformed (shape.enclose inner) s).code = match shape with
            | .round => "E_MALFORMED_GROUP".toText
            | .curly => "E_MALFORMED_SLOT".toText) ∧
      ((¬∃ before shape inner, Breaks s q before shape inner) →
        ∃ f, tokenize s = .error f ∧ f.code = "E_UNBALANCED_GROUP".toText) := by
  refine ⟨exists_tokens_iff, existsUnique_isHorizon s, ?_⟩
  intro q hq hviolated
  have hverdict := tokenize_verdict s
  generalize tokenize s = result at hverdict
  cases hverdict with
  | accepted hbalanced horderly => exact absurd ⟨hbalanced, horderly⟩ hviolated
  | @malformed before inner shape hgroup horderly hbad =>
    have hcloses : (before ++ shape.enclose inner).length ≤ q := by
      by_contra hlt
      obtain ⟨rest, hrest⟩ := hgroup.stands
      have hlength := congrArg List.length hrest
      rw [List.length_append] at hlength
      have hstray := hq.stray (by omega)
      rw [← hrest] at hstray
      exact Open.not_strayAt (.none hgroup.balanced) rest (by omega) hstray
    have hbreaks : Breaks s q before shape inner := ⟨hgroup, hcloses, hbad⟩
    refine ⟨fun _ => ⟨before, shape, inner, hbreaks, ?_, rfl, ?_⟩, fun hnone => ?_⟩
    · intro before' shape' inner' hother
      exact Breaks.le_of_orderly hgroup horderly hother
    · cases shape <;> rfl
    · exact absurd ⟨_, _, _, hbreaks⟩ hnone
  | @stray pre rest shape opened hs hopen hstray horderly =>
    subst hs
    obtain rfl := hq.unique (isHorizon_of_stray hopen hstray rest)
    refine ⟨fun ⟨before, shape', inner, hbreaks⟩ => ?_, fun _ => ⟨_, rfl, rfl⟩⟩
    have hlt := hbreaks.length_lt (List.prefix_append ..) horderly
    exact absurd hbreaks.closes (by omega)
  | unclosed hopen horderly =>
    obtain rfl := hq.unique (isHorizon_of_open hopen)
    refine ⟨fun ⟨before, shape', inner, hbreaks⟩ => ?_, fun _ => ⟨_, rfl, rfl⟩⟩
    exact absurd (horderly _ _ _ hbreaks.group) hbreaks.bad

/-- A group in disorder that closes before a stray bracket, and one that closes behind it. -/
theorem tokenize_reports_first_violation_race :
    (∃ before shape inner, Breaks "a(\x7bb\x7d)) (c".toText 6 before shape inner ∧
      (∀ before' shape' inner', Breaks "a(\x7bb\x7d)) (c".toText 6 before' shape' inner' →
        before.length ≤ before'.length) ∧
      tokenize "a(\x7bb\x7d)) (c".toText =
        .error (shape.malformed (shape.enclose inner) "a(\x7bb\x7d)) (c".toText) ∧
      (shape.malformed (shape.enclose inner) "a(\x7bb\x7d)) (c".toText).code = match shape with
        | .round => "E_MALFORMED_GROUP".toText
        | .curly => "E_MALFORMED_SLOT".toText) ∧
    ∃ f, tokenize "a) (\x7bb\x7d)".toText = .error f ∧ f.code = "E_UNBALANCED_GROUP".toText := by
  have hb : Balanced "\x7bb\x7d".toText := .group .curly (.plain rfl .nil) .nil
  have ha : Balanced "a".toText := .plain rfl .nil
  constructor
  · have hhorizon : IsHorizon ("a(\x7bb\x7d)".toText ++ Shape.round.closer :: " (c".toText) 6 :=
      isHorizon_of_stray (.none (ha.append (hb.enclose .round))) (by simp) _
    have hbad : ¬Shape.round.Allows "\x7bb\x7d".toText := fun h => by
      have hbracket := h '\x7b' (by decide)
      simp [isBracket, bracket?, Shape.opener] at hbracket
    have hbreaks : Breaks "a(\x7bb\x7d)) (c".toText 6 "a".toText .round "\x7bb\x7d".toText :=
      ⟨⟨ha, hb, ") (c".toText, rfl⟩, by decide, hbad⟩
    exact ((tokenize_reports_first_violation _).2.2 6 hhorizon fun h =>
      hbad (h.2 _ _ _ hbreaks.group)).1 ⟨_, _, _, hbreaks⟩
  · have hhorizon : IsHorizon ("a".toText ++ Shape.round.closer :: " (\x7bb\x7d)".toText) 1 :=
      isHorizon_of_stray (.none ha) (by simp) _
    refine ((tokenize_reports_first_violation _).2.2 1 hhorizon fun h => ?_).2 ?_
    · obtain ⟨ts, hts⟩ := (tokenize_reports_first_violation _).1.2 h
      have hstray : tokenize "a) (\x7bb\x7d)".toText =
          .error (.unexpectedCloser .round 2 "a) (\x7bb\x7d)".toText) := by decide +kernel
      cases hstray.symm.trans hts
    · rintro ⟨before, shape, inner, hbreaks⟩
      have hcloses := hbreaks.closes
      rw [List.length_append, Shape.length_enclose] at hcloses
      omega

end Phrasebook.Template
