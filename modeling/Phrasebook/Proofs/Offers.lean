import Mathlib.Data.List.TakeWhile
import Phrasebook.Proofs.Descending

/-!
# What a group offers

The alternatives of a group are cut out of its text at fixed places and at the first closing round
bracket, which are the right places in every text that the scan lets through as a group. What the
group offers are the pieces between its bars that hold more than blanks (`offered`). A slot puts
each of them between its brackets, an alternation gives each as it is, and may be left out if it has
one such piece and another that holds nothing (`group_offers`).
-/

namespace Phrasebook

namespace Text

/-- Whether a text holds nothing but blanks. -/
def isVoid (s : Text) : Bool :=
  s.all isBlank

lemma stripEnd_eq_nil_iff {s : Text} : stripEnd s = [] ↔ isVoid s = true := by
  rw [stripEnd, List.reverse_eq_nil_iff, List.dropWhile_eq_nil_iff, isVoid, List.all_eq_true]
  simp only [List.mem_reverse]

lemma strip_eq_nil_iff {s : Text} : strip s = [] ↔ isVoid s = true := by
  have hfront : (s.takeWhile isBlank).all isBlank = true := List.all_takeWhile
  have hsplit : isVoid s = isVoid (s.dropWhile isBlank) := by
    rw [isVoid, ← List.takeWhile_append_dropWhile (p := isBlank) (l := s), List.all_append, hfront,
      Bool.true_and, List.takeWhile_append_dropWhile, isVoid]
  rw [strip, stripEnd_eq_nil_iff, hsplit]

end Text

namespace Template

/-- What a group with these choices offers: the pieces between the bars that hold more than blanks,
without the blanks around them. -/
def offered (choices : Text) : List Text :=
  ((choices.splitOn (char '|')).filter fun piece => !Text.isVoid piece).map Text.strip

/-- Leaving a group out, which an alternation offers if it has a single piece that holds more than
blanks, and beside it a piece that does not. -/
def omission (choices : Text) : List (Option Text) :=
  if (offered choices).length = 1 ∧
      ∃ piece ∈ choices.splitOn (char '|'), Text.isVoid piece = true then
    [none]
  else []

lemma alternatives_eq_offered (choices : Text) : alternatives choices = offered choices := by
  rw [alternatives, offered, List.filter_map]
  congr 1
  refine List.filter_congr fun piece _ => ?_
  simp [Text.strip_eq_nil_iff]

lemma offered_eq_nil_iff {choices : Text} :
    offered choices = [] ↔ ∀ piece ∈ choices.splitOn (char '|'), Text.isVoid piece = true := by
  simp [offered]

lemma one_lt_length_iff {choices : Text} (h : (offered choices).length = 1) :
    1 < (choices.splitOn (char '|')).length ↔
      ∃ piece ∈ choices.splitOn (char '|'), Text.isVoid piece = true := by
  rw [offered, List.length_map] at h
  rw [← h, List.length_filter_lt_length_iff_exists]
  simp

/-- What becomes of a token with these choices when it is resolved: it fails if none of the pieces
holds more than blanks, and otherwise gives these substitutions. -/
structure Token.Resolves (t : Token) (choices : Text) (subs : List (Option Text)) : Prop where
  fails : (∃ f, t.branches = .error f ∧ f.code = "E_EMPTY_ALTERNATION".toText) ↔
    ∀ piece ∈ choices.splitOn (char '|'), Text.isVoid piece = true
  gives : (∃ piece ∈ choices.splitOn (char '|'), Text.isVoid piece = false) →
    ∃ cs, t.branches = .ok cs ∧ cs.toList = subs

lemma Token.resolves_of_substitutions {t : Token} (hx : t.expandable = true) {choices : Text}
    (hcontent : t.content = choices) {subs : List (Option Text)}
    (hsubs : ∀ ws, ws.toList = offered choices → (t.substitutions ws).toList = subs) :
    t.Resolves choices subs := by
  have h := branches_eq_map hx
  rw [hcontent, alternativesOf, alternatives_eq_offered] at h
  cases hoffered : offered choices with
  | nil =>
    have hvoid := offered_eq_nil_iff.1 hoffered
    rw [hoffered] at h
    refine ⟨⟨fun _ => hvoid, fun _ => ⟨_, h, rfl⟩⟩, ?_⟩
    rintro ⟨piece, hpiece, hsolid⟩
    rw [hvoid piece hpiece] at hsolid
    cases hsolid
  | cons w ws =>
    have hsolid : ¬∀ piece ∈ choices.splitOn (char '|'), Text.isVoid piece = true := by
      rw [← offered_eq_nil_iff, hoffered]
      exact List.cons_ne_nil w ws
    rw [hoffered] at h
    refine ⟨⟨?_, fun hvoid => absurd hvoid hsolid⟩, fun _ => ⟨_, h, hsubs ⟨w, ws⟩ hoffered.symm⟩⟩
    rintro ⟨f, hf, -⟩
    rw [h] at hf
    cases hf

section Group

variable {choices name : Text}

lemma slot_resolves (hchoices : ∀ c ∈ choices, isBracket c = false) :
    Token.Resolves
      ⟨.slot, char '\x7b' :: (char '(' :: choices ++ char ')' :: name) ++ [char '\x7d']⟩ choices
      ((offered choices).map fun w => some (char '\x7b' :: w ++ name ++ [char '\x7d'])) := by
  have hparts := slotParts_eq (not_mem_of_forall hchoices (b := ')') rfl) name
  refine Token.resolves_of_substitutions rfl ?_ fun ws hws => ?_
  · simp only [Token.content, inside_enclose, hparts]
  · simp only [Token.substitutions, inside_enclose, hparts, Choices.toList_map, hws]

lemma alternation_resolves :
    Token.Resolves ⟨.alternation, char '(' :: choices ++ [char ')']⟩ choices
      ((offered choices).map some ++ omission choices) := by
  have hcontent : Token.content ⟨.alternation, char '(' :: choices ++ [char ')']⟩ = choices :=
    inside_enclose '(' ')' choices
  refine Token.resolves_of_substitutions rfl hcontent ?_
  rintro ⟨w, others⟩ hws
  simp only [Token.substitutions, hcontent]
  rw [omission, ← hws]
  cases others with
  | nil =>
    have hlength : (offered choices).length = 1 := by rw [← hws]; rfl
    simp only [one_lt_length_iff hlength, Choices.toList, List.length_singleton, true_and]
    split_ifs <;> rfl
  | cons v vs => simp [Choices.toList, Choices.map]

end Group

/-- Every expandable token of a text is a slot or an alternation, written in brackets with no other
brackets among its choices and in its name. Resolving it fails if no piece between its bars holds
more than blanks. Otherwise a slot gives each such piece, without the blanks around it, in curly
brackets and with its name, and is never left out; an alternation gives each such piece, and may be
left out in the end if it has one such piece and another that holds nothing. What is substituted has
words for tokens, and only one if it stands for a slot. -/
theorem group_offers {s : Text} {ts : List Token} (h : tokenize s = .ok ts) {t : Token}
    (ht : t ∈ ts) (hx : t.expandable = true) :
    (t.kind = .slot → ∃ choices name,
      t.text = char '\x7b' :: (char '(' :: choices ++ char ')' :: name) ++ [char '\x7d'] ∧
      (∀ c ∈ choices, isBracket c = false) ∧ (∀ c ∈ name, isBracket c = false) ∧
      t.Resolves choices
        ((offered choices).map fun w => some (char '\x7b' :: w ++ name ++ [char '\x7d']))) ∧
    (t.kind = .alternation → ∃ choices,
      t.text = char '(' :: choices ++ [char ')'] ∧ (∀ c ∈ choices, isBracket c = false) ∧
      t.Resolves choices ((offered choices).map some ++ omission choices)) ∧
    ∀ cs sub, t.branches = .ok cs → some sub ∈ cs.toList →
      ∃ us, tokenize (normalize sub) = .ok us ∧ (∀ u ∈ us, u.kind = .word) ∧
        (t.kind = .slot → us.length = 1) := by
  have hgroup := ((tokenize_eq_ok_iff.1 h).isLexeme t ht).isGroup hx
  refine ⟨?_, ?_, ?_⟩
  · intro hk
    cases hgroup with
    | alternation => cases hk
    | curly => cases hk
    | slot hchoices hname => exact ⟨_, _, rfl, hchoices, hname, slot_resolves hchoices⟩
  · intro hk
    cases hgroup with
    | alternation hchoices => exact ⟨_, rfl, hchoices, alternation_resolves⟩
    | curly => cases hk
    | slot => cases hk
  · intro cs sub hs hsub
    refine ⟨(t.textsOf (some sub)).map .ofWord, ?_, ?_, ?_⟩
    · rw [hgroup.normalize_substitution hx hs hsub]
      exact tokenize_eq_ok_iff.2 (hgroup.reads_substitution hx hs hsub)
    · intro u hu
      obtain ⟨w, -, rfl⟩ := List.mem_map.1 hu
      rfl
    · intro hk
      simp [Token.textsOf, hk]

/-- A slot with blanks and empty pieces among its choices and a blank in its name, and an
alternation that may be left out. -/
theorem group_offers_spaced :
    tokenize "\x7b(a | b||)|x y\x7d( |go  on)".toText =
      .ok [⟨.slot, "\x7b(a | b||)|x y\x7d".toText⟩, ⟨.alternation, "( |go  on)".toText⟩] ∧
    (∃ choices name,
      "\x7b(a | b||)|x y\x7d".toText =
        char '\x7b' :: (char '(' :: choices ++ char ')' :: name) ++ [char '\x7d'] ∧
      (∀ c ∈ choices, isBracket c = false) ∧ (∀ c ∈ name, isBracket c = false) ∧
      Token.Resolves ⟨.slot, "\x7b(a | b||)|x y\x7d".toText⟩ choices
        ((offered choices).map fun w => some (char '\x7b' :: w ++ name ++ [char '\x7d']))) ∧
    (∃ choices, "( |go  on)".toText = char '(' :: choices ++ [char ')'] ∧
      (∀ c ∈ choices, isBracket c = false) ∧
      Token.Resolves ⟨.alternation, "( |go  on)".toText⟩ choices
        ((offered choices).map some ++ omission choices)) ∧
    ∃ us, tokenize (normalize "\x7bb|x y\x7d".toText) = .ok us ∧ (∀ u ∈ us, u.kind = .word) ∧
      (Kind.slot = .slot → us.length = 1) :=
  have htokens : tokenize "\x7b(a | b||)|x y\x7d( |go  on)".toText =
      .ok [⟨.slot, "\x7b(a | b||)|x y\x7d".toText⟩, ⟨.alternation, "( |go  on)".toText⟩] := by
    decide +kernel
  have hbranches : Token.branches ⟨.slot, "\x7b(a | b||)|x y\x7d".toText⟩ =
      .ok ⟨some "\x7ba|x y\x7d".toText, [some "\x7bb|x y\x7d".toText]⟩ := by
    decide +kernel
  ⟨htokens, (group_offers htokens List.mem_cons_self rfl).1 rfl,
    (group_offers htokens (List.mem_cons_of_mem _ List.mem_cons_self) rfl).2.1 rfl,
    (group_offers htokens List.mem_cons_self rfl).2.2 _ _ hbranches (by decide)⟩

end Template

end Phrasebook
