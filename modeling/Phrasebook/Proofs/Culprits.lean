import Phrasebook.Proofs.Grammar
import Phrasebook.Proofs.Literals

/-!
# Where a bracket fault points

The message of a bracket fault names a character and a column. It names either the first closing
bracket that matches no opener (`IsStrayCloser`) or the last opening bracket that nothing closes
(`IsLastUnclosed`), and says which of the two it is, so the column is the place of the culprit
whichever way the message is read (`bracket_fault_points_at_culprit`).
-/

namespace Phrasebook.Template

/-- The closing bracket at this place matches no opener, since the innermost bracket open before it
is missing or of the other shape. Every closing bracket before it matches its opener. -/
structure IsStrayCloser (s : Text) (shape : Shape) (q : Nat) : Prop where
  stands : s[q]? = some shape.closer
  matched : ∀ p < q, ¬StrayAt s p
  innermost : ∃ opened, Open (s.take q) opened ∧ ∀ o ∈ opened.head?, o.shape ≠ shape

/-- The opening bracket at this place has no partner, and the text behind it is balanced. Every
closing bracket of the text matches its opener. -/
structure IsLastUnclosed (s : Text) (shape : Shape) (q : Nat) : Prop where
  stands : s[q]? = some shape.opener
  matched : ∀ p, ¬StrayAt s p
  unmatched : ∀ inner rest, Balanced inner → s.drop (q + 1) ≠ inner ++ shape.closer :: rest
  behind : Balanced (s.drop (q + 1))

section Culprit

variable {s pre rest : Text} {shape : Shape} {o : Opening} {opened outer : List Opening}

lemma Open.isStrayCloser (h : Open pre opened) (hstray : ∀ o ∈ opened.head?, o.shape ≠ shape)
    (rest : Text) : IsStrayCloser (pre ++ shape.closer :: rest) shape pre.length where
  stands := by simp
  matched := (isHorizon_of_stray h hstray rest).first
  innermost := ⟨opened, by rwa [List.take_left' rfl], hstray⟩

lemma Open.not_stray (h : Open s opened) (p : Nat) : ¬StrayAt s p := by
  by_cases hp : p < s.length
  · exact (isHorizon_of_open h).first p hp
  · rintro ⟨shape, hcloser, -⟩
    rw [List.getElem?_eq_none (Nat.le_of_not_lt hp)] at hcloser
    exact nomatch hcloser

/-- Behind a balanced text no bracket of it is left to be closed. -/
lemma Balanced.ne_append_closer (h : Balanced s) {inner : Text} (hinner : Balanced inner) :
    s ≠ inner ++ shape.closer :: rest := by
  rintro rfl
  obtain ⟨o, ho, -⟩ := (Open.none hinner).exists_head_of_closer (.none h)
  exact nomatch ho

/-- The innermost bracket that a text leaves open is the last one without a partner. -/
lemma Open.exists_isLastUnclosed (h : Open s (o :: outer)) :
    ∃ q, o.column = q + 1 ∧ IsLastUnclosed s o.shape q := by
  have hmatched := h.not_stray
  cases h with
  | @bracket pre tail outer shape _ htail =>
    have hbehind : (pre ++ shape.opener :: tail).drop (pre.length + 1) = tail := by
      rw [List.append_cons, List.drop_left' (by simp)]
    refine ⟨pre.length, rfl, by simp, hmatched, fun inner rest hinner => ?_, by rwa [hbehind]⟩
    rw [hbehind]
    exact htail.ne_append_closer hinner

/-- What is at fault where a scan ends with a bracket that has no partner. -/
inductive Culprit (s : Text) : Fault → Prop
  | closer {shape : Shape} {q : Nat} (h : IsStrayCloser s shape q) :
      Culprit s (.unexpectedCloser shape (q + 1) s)
  | opener {shape : Shape} {q : Nat} (h : IsLastUnclosed s shape q) :
      Culprit s (.unclosedGroup shape (q + 1) s)

theorem culprit_of_tokenize {f : Fault} (h : tokenize s = .error f)
    (hcode : f.code = "E_UNBALANCED_GROUP".toText) : Culprit s f := by
  have hverdict := tokenize_verdict s
  rw [h] at hverdict
  cases hverdict with
  | @malformed _ _ shape => exact absurd hcode (shape.malformed_code_ne _ _)
  | stray hs hopen hstray _ =>
    have hcloser := hopen.isStrayCloser hstray
    subst hs
    exact .closer (hcloser _)
  | unclosed hopen _ =>
    obtain ⟨q, hcolumn, hlast⟩ := hopen.exists_isLastUnclosed
    rw [hcolumn]
    exact .opener hlast

end Culprit

/-- The message that a closing bracket is met that matches no opener. -/
def unexpectedMessage (c : CodePoint) (column : Nat) (s : Text) : Text :=
  "unexpected '".toText ++ [c] ++ "' at column ".toText ++ Text.ofNat column ++ " in ".toText ++
    Text.quoted s

/-- The message that nothing closes an opening bracket. -/
def neverClosedMessage (c : CodePoint) (column : Nat) (s : Text) : Text :=
  "'".toText ++ [c] ++ "' at column ".toText ++ Text.ofNat column ++
    " is never closed in ".toText ++ Text.quoted s

section Message

variable {c d : CodePoint} {n m : Nat} {s : Text}

lemma column_inj {rest rest' : Text}
    (h : c :: ("' at column ".toText ++ (Text.ofNat n ++ char ' ' :: rest)) =
      d :: ("' at column ".toText ++ (Text.ofNat m ++ char ' ' :: rest'))) : c = d ∧ n = m := by
  obtain ⟨hchar, hrest⟩ := List.cons.inj h
  rw [List.append_cancel_left_eq] at hrest
  exact ⟨hchar, (Text.ofNat_append_inj rfl hrest).1⟩

lemma unexpectedMessage_inj (h : unexpectedMessage c n s = unexpectedMessage d m s) :
    c = d ∧ n = m := by
  have hin : " in ".toText = char ' ' :: "in ".toText := by decide
  unfold unexpectedMessage at h
  rw [hin] at h
  simp only [List.append_assoc, List.append_cancel_left_eq, List.cons_append, List.nil_append] at h
  exact column_inj h

lemma neverClosedMessage_inj (h : neverClosedMessage c n s = neverClosedMessage d m s) :
    c = d ∧ n = m := by
  have hnever : " is never closed in ".toText = char ' ' :: "is never closed in ".toText := by
    decide
  unfold neverClosedMessage at h
  rw [hnever] at h
  simp only [List.append_assoc, List.append_cancel_left_eq, List.cons_append, List.nil_append] at h
  exact column_inj h

lemma unexpectedMessage_ne : unexpectedMessage c n s ≠ neverClosedMessage d m s := by
  intro h
  unfold unexpectedMessage neverClosedMessage at h
  simp only [List.append_assoc] at h
  have hfirst := congrArg (List.take 1) h
  rw [List.take_append_of_le_length (by decide), List.take_append_of_le_length (by decide)]
    at hfirst
  exact absurd hfirst (by decide)

end Message

/-- The message of a bracket fault names the bracket that is at fault, and the column where it
stands. -/
theorem bracket_fault_points_at_culprit {s : Text} {f : Fault} (h : tokenize s = .error f)
    (hcode : f.code = "E_UNBALANCED_GROUP".toText) :
    (∃ c column, f.message = unexpectedMessage c column s ∨
      f.message = neverClosedMessage c column s) ∧
    (∀ c column, f.message = unexpectedMessage c column s →
      ∃ shape q, c = shape.closer ∧ column = q + 1 ∧ IsStrayCloser s shape q) ∧
    ∀ c column, f.message = neverClosedMessage c column s →
      ∃ shape q, c = shape.opener ∧ column = q + 1 ∧ IsLastUnclosed s shape q := by
  cases culprit_of_tokenize h hcode with
  | @closer shape q hcloser =>
    have hmessage : (Fault.unexpectedCloser shape (q + 1) s).message =
        unexpectedMessage shape.closer (q + 1) s := rfl
    refine ⟨⟨_, _, .inl hmessage⟩, fun c column heq => ?_, fun c column heq => ?_⟩
    · obtain ⟨rfl, rfl⟩ := unexpectedMessage_inj (hmessage.symm.trans heq)
      exact ⟨shape, q, rfl, rfl, hcloser⟩
    · exact absurd (hmessage.symm.trans heq) unexpectedMessage_ne
  | @opener shape q hopener =>
    have hmessage : (Fault.unclosedGroup shape (q + 1) s).message =
        neverClosedMessage shape.opener (q + 1) s := rfl
    refine ⟨⟨_, _, .inr hmessage⟩, fun c column heq => ?_, fun c column heq => ?_⟩
    · exact absurd (heq.symm.trans hmessage) unexpectedMessage_ne
    · obtain ⟨rfl, rfl⟩ := neverClosedMessage_inj (hmessage.symm.trans heq)
      exact ⟨shape, q, rfl, rfl, hopener⟩

/-- A bracket of the wrong shape inside a group, and two brackets open at the end. -/
theorem bracket_fault_points_at_culprit_mixed :
    (∃ f, tokenize "(a) (b\x7d".toText = .error f ∧ f.code = "E_UNBALANCED_GROUP".toText ∧
      f.message = unexpectedMessage '\x7d' 7 "(a) (b\x7d".toText ∧
      IsStrayCloser "(a) (b\x7d".toText .curly 6) ∧
    ∃ f, tokenize "(\x7ba\x7d \x7b(b)".toText = .error f ∧ f.code = "E_UNBALANCED_GROUP".toText ∧
      f.message = neverClosedMessage '\x7b' 6 "(\x7ba\x7d \x7b(b)".toText ∧
      IsLastUnclosed "(\x7ba\x7d \x7b(b)".toText .curly 5 := by
  have hstray : tokenize "(a) (b\x7d".toText =
      .error (.unexpectedCloser .curly 7 "(a) (b\x7d".toText) := by
    decide +kernel
  have hopen : tokenize "(\x7ba\x7d \x7b(b)".toText =
      .error (.unclosedGroup .curly 6 "(\x7ba\x7d \x7b(b)".toText) := by
    decide +kernel
  refine ⟨⟨_, hstray, rfl, rfl, ?_⟩, ⟨_, hopen, rfl, rfl, ?_⟩⟩
  · obtain ⟨shape, q, hshape, hq, hcloser⟩ :=
      (bracket_fault_points_at_culprit hstray rfl).2.1 Shape.curly.closer 7 rfl
    obtain rfl : q = 6 := by omega
    obtain rfl := closer_inj.1 hshape
    exact hcloser
  · obtain ⟨shape, q, hshape, hq, hopener⟩ :=
      (bracket_fault_points_at_culprit hopen rfl).2.2 Shape.curly.opener 6 rfl
    obtain rfl : q = 5 := by omega
    obtain rfl := opener_inj.1 hshape
    exact hopener

end Phrasebook.Template
