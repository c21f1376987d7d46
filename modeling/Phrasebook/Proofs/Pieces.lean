import Mathlib.Data.List.Chain
import Phrasebook.Proofs.Grammar
import Phrasebook.Proofs.Settling

/-!
# The pieces of a text

A text falls in at most one way into pieces with blanks around them, where a piece is a run of word
characters or a group, and two runs next to each other have a blank between them
(`Division.Divides.unique`). The tokens of a text are its pieces, and what a piece is settles the
kind of its token (`tokens_are_pieces`).
-/

namespace Phrasebook.Template

/-- A text without blanks and brackets that is not empty. -/
def IsRun (s : Text) : Prop :=
  s ≠ [] ∧ ∀ c ∈ s, isWordChar c = true

/-- A group of this shape: the last character closes the first bracket. -/
def IsEnclosed (shape : Shape) (s : Text) : Prop :=
  ∃ inner, Balanced inner ∧ s = shape.enclose inner

def IsPiece (s : Text) : Prop :=
  IsRun s ∨ ∃ shape, IsEnclosed shape s

def IsBlanks (s : Text) : Prop :=
  ∀ c ∈ s, Text.isBlank c = true

/-- Blanks, and after them pieces, each with the blanks behind it. -/
structure Division where
  lead : Text
  parts : List (Text × Text)

def spelled (parts : List (Text × Text)) : Text :=
  parts.flatMap fun p => p.1 ++ p.2

/-- Two runs have at least one blank between them; groups need none. -/
structure Separated (parts : List (Text × Text)) : Prop where
  pieces : ∀ p ∈ parts, IsPiece p.1
  gaps : ∀ p ∈ parts, IsBlanks p.2
  apart : parts.IsChain fun p q => IsRun p.1 → IsRun q.1 → p.2 ≠ []

namespace Division

def pieces (d : Division) : List Text :=
  d.parts.map Prod.fst

/-- The text consists of the pieces and the blanks, in this order. -/
structure Divides (d : Division) (s : Text) : Prop where
  text : s = d.lead ++ spelled d.parts
  lead : IsBlanks d.lead
  parts : Separated d.parts

end Division

lemma run_append_inj {p : CodePoint → Bool} {run run' s s' : Text} (hrun : ∀ c ∈ run, p c = true)
    (hrun' : ∀ c ∈ run', p c = true) (hs : ∀ c ∈ s.head?, p c = false)
    (hs' : ∀ c ∈ s'.head?, p c = false) (h : run ++ s = run' ++ s') : run = run' ∧ s = s' := by
  have hend {t : Text} (ht : ∀ c ∈ t.head?, p c = false) : t.takeWhile p = [] := by
    cases t with
    | nil => rfl
    | cons c t => rw [List.takeWhile_cons_of_neg (by simp [ht c rfl])]
  have htake := congrArg (List.takeWhile p) h
  rw [List.takeWhile_append_of_pos hrun, List.takeWhile_append_of_pos hrun', hend hs, hend hs',
    List.append_nil, List.append_nil] at htake
  subst htake
  exact ⟨rfl, List.append_cancel_left h⟩

lemma IsRun.exists_cons {s : Text} (h : IsRun s) : ∃ c t, s = c :: t ∧ isWordChar c = true := by
  obtain ⟨c, t, rfl⟩ := List.exists_cons_of_ne_nil h.1
  exact ⟨c, t, rfl, h.2 c List.mem_cons_self⟩

section Groups

variable {shape shape' : Shape} {s s' t t' : Text}

lemma IsEnclosed.exists_cons (h : IsEnclosed shape s) : ∃ t, s = shape.opener :: t := by
  obtain ⟨inner, -, rfl⟩ := h
  exact ⟨_, rfl⟩

lemma IsEnclosed.shape_eq (h : IsEnclosed shape s) (h' : IsEnclosed shape' s) : shape = shape' := by
  obtain ⟨t, rfl⟩ := h.exists_cons
  obtain ⟨t', heq⟩ := h'.exists_cons
  exact opener_inj.1 (List.cons.inj heq).1

lemma IsEnclosed.isEnclosed_iff (h : IsEnclosed shape s) :
    IsEnclosed shape' s ↔ shape' = shape := by
  constructor
  · intro h'
    exact h'.shape_eq h
  · rintro rfl
    exact h

lemma IsEnclosed.not_isRun (h : IsEnclosed shape s) : ¬IsRun s := by
  intro hrun
  obtain ⟨t, rfl⟩ := h.exists_cons
  have hopener := hrun.2 _ List.mem_cons_self
  rw [not_isWordChar_of_isBracket (isBracket_opener shape)] at hopener
  exact Bool.false_ne_true hopener

/-- Of two groups at the beginning of a text none is longer than the other. -/
lemma IsEnclosed.length_le (h : IsEnclosed shape s) (h' : IsEnclosed shape' s') (hs : s <+: t)
    (hs' : s' <+: t) : s'.length ≤ s.length := by
  obtain ⟨inner, hinner, rfl⟩ := h
  obtain ⟨inner', hinner', rfl⟩ := h'
  by_contra hlt
  rw [Shape.length_enclose, Shape.length_enclose] at hlt
  have hinside : shape.enclose inner <+: shape'.opener :: inner' := by
    apply List.prefix_of_prefix_length_le hs ((List.prefix_append _ _).trans hs')
    rw [Shape.length_enclose, List.length_cons]
    omega
  apply Open.not_balanced_of_inside (.none .nil) hinner' hinside (by simp)
  exact shape.balanced_enclose hinner

lemma IsEnclosed.append_inj (h : IsEnclosed shape s) (h' : IsEnclosed shape' s')
    (heq : s ++ t = s' ++ t') : s = s' ∧ t = t' := by
  have hs : s <+: s ++ t := List.prefix_append s t
  have hs' : s' <+: s ++ t := heq ▸ List.prefix_append s' t'
  have hlength : s.length = s'.length := by
    apply Nat.le_antisymm
    · exact h'.length_le h hs' hs
    · exact h.length_le h' hs hs'
  exact List.append_inj heq hlength

lemma IsRun.append_ne (h : IsRun s) (h' : IsEnclosed shape s') : s ++ t ≠ s' ++ t' := by
  intro heq
  obtain ⟨c, u, rfl, hc⟩ := h.exists_cons
  obtain ⟨u', rfl⟩ := h'.exists_cons
  obtain ⟨rfl, -⟩ := List.cons.inj heq
  rw [not_isWordChar_of_isBracket (isBracket_opener shape)] at hc
  exact Bool.false_ne_true hc

end Groups

lemma IsPiece.exists_cons {s : Text} (h : IsPiece s) :
    ∃ c t, s = c :: t ∧ Text.isBlank c = false := by
  rcases h with hrun | ⟨shape, hgroup⟩
  · obtain ⟨c, t, rfl, hc⟩ := hrun.exists_cons
    exact ⟨c, t, rfl, (isWordChar_iff.1 hc).1⟩
  · obtain ⟨t, rfl⟩ := hgroup.exists_cons
    refine ⟨_, t, rfl, ?_⟩
    by_contra hblank
    have hbracket := not_isBracket_of_isBlank (by simpa using hblank)
    simp at hbracket

namespace Separated

variable {p q : Text × Text} {parts parts' : List (Text × Text)}

lemma tail (h : Separated (p :: parts)) : Separated parts where
  pieces q hq := h.pieces q (List.mem_cons_of_mem p hq)
  gaps q hq := h.gaps q (List.mem_cons_of_mem p hq)
  apart := h.apart.tail

lemma spelled_ne_nil (h : Separated (p :: parts)) : spelled (p :: parts) ≠ [] := by
  obtain ⟨c, t, hp, -⟩ := (h.pieces p List.mem_cons_self).exists_cons
  simp [spelled, hp]

lemma head_spelled (h : Separated parts) :
    ∀ c ∈ (spelled parts).head?, Text.isBlank c = false := by
  cases parts with
  | nil => simp [spelled]
  | cons p parts =>
    obtain ⟨c, t, hp, hc⟩ := (h.pieces p List.mem_cons_self).exists_cons
    simpa [spelled, hp] using hc

/-- A run ends where its blanks begin, or else the next group. -/
lemma head_behind_run (h : Separated (p :: parts)) (hp : IsRun p.1) :
    ∀ c ∈ (p.2 ++ spelled parts).head?, isWordChar c = false := by
  have hgap := h.gaps p List.mem_cons_self
  cases hblanks : p.2 with
  | cons b gap =>
    rw [hblanks] at hgap
    simpa using not_isWordChar_of_isBlank (hgap b List.mem_cons_self)
  | nil =>
    cases parts with
    | nil => simp [spelled]
    | cons q parts =>
      rcases h.tail.pieces q List.mem_cons_self with hq | ⟨shape, hq⟩
      · exact absurd hblanks (h.apart.rel_head? rfl hp hq)
      · obtain ⟨t, ht⟩ := hq.exists_cons
        simp [spelled, ht, not_isWordChar_of_isBracket]

lemma piece_inj (h : Separated (p :: parts)) (h' : Separated (q :: parts'))
    (heq : spelled (p :: parts) = spelled (q :: parts')) :
    p.1 = q.1 ∧ p.2 ++ spelled parts = q.2 ++ spelled parts' := by
  have heq : p.1 ++ (p.2 ++ spelled parts) = q.1 ++ (q.2 ++ spelled parts') := by
    simpa [spelled] using heq
  rcases h.pieces p List.mem_cons_self with hp | ⟨shape, hp⟩
  · rcases h'.pieces q List.mem_cons_self with hq | ⟨shape', hq⟩
    · exact run_append_inj hp.2 hq.2 (h.head_behind_run hp) (h'.head_behind_run hq) heq
    · exact absurd heq (hp.append_ne hq)
  · rcases h'.pieces q List.mem_cons_self with hq | ⟨shape', hq⟩
    · exact absurd heq.symm (hq.append_ne hp)
    · exact hp.append_inj hq heq

theorem unique (h : Separated parts) (h' : Separated parts')
    (heq : spelled parts = spelled parts') : parts = parts' := by
  induction parts generalizing parts' with
  | nil =>
    cases parts' with
    | nil => rfl
    | cons q parts' => exact absurd heq.symm h'.spelled_ne_nil
  | cons p parts ih =>
    cases parts' with
    | nil => exact absurd heq h.spelled_ne_nil
    | cons q parts' =>
      obtain ⟨hpiece, hrest⟩ := h.piece_inj h' heq
      obtain ⟨hgap, hspelled⟩ := run_append_inj (h.gaps p List.mem_cons_self)
        (h'.gaps q List.mem_cons_self) h.tail.head_spelled h'.tail.head_spelled hrest
      rw [ih h.tail h'.tail hspelled, Prod.ext hpiece hgap]

end Separated

/-- A text has at most one division. -/
theorem Division.Divides.unique {d d' : Division} {s : Text} (h : d.Divides s)
    (h' : d'.Divides s) : d = d' := by
  obtain ⟨hlead, hspelled⟩ := run_append_inj h.lead h'.lead h.parts.head_spelled
    h'.parts.head_spelled (h.text.symm.trans h'.text)
  have hparts := h.parts.unique h'.parts hspelled
  cases d
  cases d'
  subst hlead hparts
  rfl

lemma Token.IsGroup.exists_isEnclosed {t : Token} (ht : t.IsGroup) :
    ∃ shape, IsEnclosed shape t.text := by
  obtain ⟨shape, inner, hinner, htext⟩ := ht.exists_enclosed
  exact ⟨shape, inner, hinner, htext⟩

/-- A piece before a division, as far as it keeps away from the first piece there. -/
lemma Division.Divides.cons {d : Division} {s piece : Text} (h : d.Divides s)
    (hpiece : IsPiece piece)
    (hend : IsRun piece → ∀ c ∈ s.head?, isWordChar c = false) :
    Divides ⟨[], (piece, d.lead) :: d.parts⟩ (piece ++ s) where
  text := by simp [h.text, spelled]
  lead := by simp [IsBlanks]
  parts := by
    refine ⟨?_, ?_, ?_⟩
    · exact List.forall_mem_cons.2 ⟨hpiece, h.parts.pieces⟩
    · exact List.forall_mem_cons.2 ⟨h.lead, h.parts.gaps⟩
    · apply h.parts.apart.cons
      intro q hq hrun hrun' hlead
      have hlead : d.lead = [] := hlead
      obtain ⟨parts, hparts⟩ := List.head?_eq_some_iff.1 hq
      obtain ⟨c, t, hnext, hc⟩ := hrun'.exists_cons
      have hstop : isWordChar c = false := by
        apply hend hrun
        simp [h.text, hlead, hparts, spelled, hnext]
      rw [hstop] at hc
      exact Bool.false_ne_true hc

lemma Reads.exists_division {s : Text} {ts : List Token} (h : Reads s ts) :
    ∃ d : Division, d.Divides s ∧ d.pieces = ts.map (·.text) := by
  induction h with
  | nil => exact ⟨⟨[], []⟩, ⟨rfl, by simp [IsBlanks], ⟨by simp, by simp, .nil⟩⟩, rfl⟩
  | @blank c s ts hc _ ih =>
    obtain ⟨d, hd, hpieces⟩ := ih
    refine ⟨⟨c :: d.lead, d.parts⟩, ⟨?_, ?_, hd.parts⟩, hpieces⟩
    · rw [hd.text, List.cons_append]
    · exact List.forall_mem_cons.2 ⟨hc, hd.lead⟩
  | @word run s ts hne hrun hend _ ih =>
    obtain ⟨d, hd, hpieces⟩ := ih
    refine ⟨_, hd.cons (.inl ⟨hne, hrun⟩) fun _ => hend, ?_⟩
    simpa [Division.pieces] using hpieces
  | @group t s ts ht _ ih =>
    obtain ⟨d, hd, hpieces⟩ := ih
    obtain ⟨shape, hgroup⟩ := ht.exists_isEnclosed
    refine ⟨_, hd.cons (.inr ⟨shape, hgroup⟩) fun hrun => absurd hrun hgroup.not_isRun, ?_⟩
    simpa [Division.pieces] using hpieces

/-- The kind of a token is what its text is: a round group, a curly group with a round bracket in
it, or anything else. -/
structure Token.IsKindOfText (t : Token) : Prop where
  alternation : t.kind = .alternation ↔ IsEnclosed .round t.text
  slot : t.kind = .slot ↔ IsEnclosed .curly t.text ∧ char '(' ∈ t.text
  word : t.kind = .word ↔
    ¬IsEnclosed .round t.text ∧ ¬(IsEnclosed .curly t.text ∧ char '(' ∈ t.text)

lemma Token.IsLexeme.isKindOfText {t : Token} (ht : t.IsLexeme) : t.IsKindOfText := by
  rcases ht with ⟨run, hne, hrun, rfl⟩ | ht
  · have hgroup (shape : Shape) : ¬IsEnclosed shape run := fun h => h.not_isRun ⟨hne, hrun⟩
    constructor <;> simp [hgroup]
  · cases ht with
    | @alternation choices hchoices =>
      have htext : IsEnclosed .round (char '(' :: choices ++ [char ')']) :=
        ⟨choices, balanced_of_forall hchoices, rfl⟩
      generalize char '(' :: choices ++ [char ')'] = s at htext
      constructor <;> simp [htext.isEnclosed_iff]
    | @slot choices name hchoices hname =>
      have htext : IsEnclosed .curly
          (char '\x7b' :: (char '(' :: choices ++ char ')' :: name) ++ [char '\x7d']) :=
        ⟨_, .group .round (balanced_of_forall hchoices) (balanced_of_forall hname), rfl⟩
      have hround : char '(' ∈
          char '\x7b' :: (char '(' :: choices ++ char ')' :: name) ++ [char '\x7d'] := by
        simp
      generalize char '\x7b' :: (char '(' :: choices ++ char ')' :: name) ++ [char '\x7d'] = s
        at htext hround
      constructor <;> simp [htext.isEnclosed_iff, hround]
    | @curly inner hinner hround =>
      have htext : IsEnclosed .curly (char '\x7b' :: inner ++ [char '\x7d']) := ⟨inner, hinner, rfl⟩
      have hround : char '(' ∉ char '\x7b' :: inner ++ [char '\x7d'] := by simpa using hround
      generalize char '\x7b' :: inner ++ [char '\x7d'] = s at htext hround
      constructor <;> simp [htext.isEnclosed_iff, hround]

/-- The tokens of a text are the pieces of its only division, and their kinds are those of the
pieces. So nothing of the text but the blanks between its pieces is missing in the tokens, and
nothing is moved or doubled. -/
theorem tokens_are_pieces {s : Text} {ts : List Token} (h : tokenize s = .ok ts) :
    (∃ d : Division, d.Divides s ∧ d.pieces = ts.map (·.text) ∧
        ∀ d' : Division, d'.Divides s → d' = d) ∧
      ∀ t ∈ ts, t.IsKindOfText := by
  have hreads := tokenize_eq_ok_iff.1 h
  obtain ⟨d, hd, hpieces⟩ := hreads.exists_division
  refine ⟨⟨d, hd, hpieces, fun d' hd' => hd'.unique hd⟩, ?_⟩
  intro t ht
  exact (hreads.isLexeme t ht).isKindOfText

/-- A word and two groups without a blank between them, and words behind a wide blank. -/
theorem tokens_are_pieces_glued :
    tokenize "go(a  b|c)\x7b(d)|S T\x7de\u3000f ".toText =
        .ok [⟨.word, "go".toText⟩, ⟨.alternation, "(a  b|c)".toText⟩,
          ⟨.slot, "\x7b(d)|S T\x7d".toText⟩, ⟨.word, "e".toText⟩, ⟨.word, "f".toText⟩] ∧
      (∃ d : Division, d.Divides "go(a  b|c)\x7b(d)|S T\x7de\u3000f ".toText ∧
        d.pieces = ["go".toText, "(a  b|c)".toText, "\x7b(d)|S T\x7d".toText, "e".toText,
          "f".toText] ∧
        ∀ d' : Division, d'.Divides "go(a  b|c)\x7b(d)|S T\x7de\u3000f ".toText → d' = d) ∧
      Token.IsKindOfText ⟨.slot, "\x7b(d)|S T\x7d".toText⟩ := by
  have htokens : tokenize "go(a  b|c)\x7b(d)|S T\x7de\u3000f ".toText =
      .ok [⟨.word, "go".toText⟩, ⟨.alternation, "(a  b|c)".toText⟩,
        ⟨.slot, "\x7b(d)|S T\x7d".toText⟩, ⟨.word, "e".toText⟩, ⟨.word, "f".toText⟩] := by
    decide +kernel
  obtain ⟨hdivision, hkinds⟩ := tokens_are_pieces htokens
  exact ⟨htokens, hdivision, hkinds _ (by decide)⟩

end Phrasebook.Template
