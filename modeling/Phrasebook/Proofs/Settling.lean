import Phrasebook.Proofs.Spacing

/-!
# Normal forms of rejoined tokens

The normal form of a text can be taken piece by piece wherever a character stands that a lone word
cannot hold (`normalize_append`), so a row of tokens that is joined by spaces and normalized again
keeps its tokens, but for the groups that hold a lone word: these settle as words
(`reads_normalize_substitute`).
-/

namespace Phrasebook.Template

lemma loneWord?_append_closer {w : Text} (hne : w ≠ []) (hw : ∀ c ∈ w, isPlain c = true)
    (rest : Text) : loneWord? (w ++ char ')' :: rest) = some (w, rest) := by
  obtain ⟨c, w', rfl⟩ := List.exists_cons_of_ne_nil hne
  have hclose : isPlain ')' = false := by decide
  unfold loneWord?
  rw [List.takeWhile_append_of_pos hw, List.dropWhile_append_of_pos hw]
  simp [hclose]

lemma loneWord?_append {c : CodePoint} (hc : isPlain c = false) (hclose : c ≠ ')') (s t : Text) :
    loneWord? (s ++ c :: t) = (loneWord? s).map fun p => (p.1, p.2 ++ c :: t) := by
  cases h : loneWord? s with
  | some p =>
    obtain ⟨rfl, hne, hw⟩ := loneWord?_eq_some h
    rw [List.append_assoc, List.cons_append, loneWord?_append_closer hne hw]
    rfl
  | none =>
    rw [Option.map_none, Option.eq_none_iff_forall_ne_some]
    rintro ⟨w, rest⟩ hsome
    obtain ⟨heq, hne, hw⟩ := loneWord?_eq_some hsome
    rcases List.append_eq_append_iff.1 heq with ⟨w', rfl, hrest⟩ | ⟨s', rfl, hrest⟩
    · cases w' with
      | nil => exact hclose (by simpa using (List.cons.inj hrest).1)
      | cons d w' =>
        obtain rfl : c = d := (List.cons.inj hrest).1
        rw [hw c (by simp)] at hc
        exact Bool.false_ne_true hc.symm
    · cases s' with
      | nil => exact hclose (by simpa using (List.cons.inj hrest).1.symm)
      | cons d s' =>
        obtain rfl : ')' = d := (List.cons.inj hrest).1
        rw [loneWord?_append_closer hne hw] at h
        exact Option.some_ne_none _ h

@[simp] lemma normalize_nil : normalize [] = [] := by
  rw [normalize]

lemma normalize_cons {c : CodePoint} (hc : c ≠ '(') (s : Text) :
    normalize (c :: s) = c :: normalize s := by
  rw [normalize, if_neg hc]

lemma normalize_of_word {s w rest : Text} (h : loneWord? s = some (w, rest)) :
    normalize (char '(' :: s) = w ++ normalize rest := by
  rw [normalize, if_pos rfl]
  split <;> rename_i h'
  · obtain ⟨rfl, rfl⟩ : w = _ ∧ rest = _ := by simpa [h] using h'
    rfl
  · simp [h] at h'

lemma normalize_of_no_word {s : Text} (h : loneWord? s = none) :
    normalize (char '(' :: s) = char '(' :: normalize s := by
  rw [normalize, if_pos rfl]
  split <;> rename_i h'
  · simp [h] at h'
  · rfl

/-- The normal form can be taken on both sides of a character that a lone word cannot hold. -/
theorem normalize_append {c : CodePoint} (hc : isPlain c = false) (hclose : c ≠ ')') (s t : Text) :
    normalize (s ++ c :: t) = normalize s ++ normalize (c :: t) := by
  fun_induction normalize s with
  | case1 => rfl
  | case2 s w rest h ih =>
    have hword : loneWord? (s ++ c :: t) = some (w, rest ++ c :: t) := by
      rw [loneWord?_append hc hclose, h]
      rfl
    rw [List.cons_append, normalize_of_word hword, ih, List.append_assoc]
  | case3 s h ih =>
    have hword : loneWord? (s ++ c :: t) = none := by
      rw [loneWord?_append hc hclose, h]
      rfl
    rw [List.cons_append, normalize_of_no_word hword, ih, List.cons_append]
  | case4 d s hd ih => rw [List.cons_append, normalize_cons hd, ih, List.cons_append]

lemma normalize_append_space (s t : Text) :
    normalize (s ++ char ' ' :: t) = normalize s ++ char ' ' :: normalize t := by
  rw [normalize_append rfl (by decide), normalize_cons (by decide)]

lemma normalize_unwords (ws : List Text) :
    normalize (Text.unwords ws) = Text.unwords (ws.map normalize) := by
  induction ws with
  | nil => simp [Text.unwords]
  | cons w ws ih =>
    cases ws with
    | nil => simp [Text.unwords]
    | cons v ws =>
      rw [unwords_cons_cons, normalize_append_space, ih]
      simp [unwords_cons_cons]

/-- What has no opening round bracket stays as it is, whatever follows. -/
lemma normalize_append_left {s : Text} (h : char '(' ∉ s) (t : Text) :
    normalize (s ++ t) = s ++ normalize t := by
  induction s with
  | nil => rfl
  | cons c s ih =>
    rw [List.cons_append, normalize_cons (fun hc => h (by simp [hc])),
      ih (fun hs => h (by simp [hs])), List.cons_append]

lemma normalize_eq_self {s : Text} (h : char '(' ∉ s) : normalize s = s := by
  simpa using normalize_append_left h []

/-- Alternatives that are one lone word. -/
def IsLone (choices : Text) : Prop :=
  choices ≠ [] ∧ ∀ c ∈ choices, isPlain c = true

lemma normalize_lone {choices : Text} (h : IsLone choices) (rest : Text) :
    normalize (char '(' :: choices ++ char ')' :: rest) = choices ++ normalize rest :=
  normalize_of_word (loneWord?_append_closer h.1 h.2 rest)

lemma normalize_not_lone {choices : Text} (hchoices : ∀ c ∈ choices, isBracket c = false)
    (h : ¬IsLone choices) (rest : Text) :
    normalize (char '(' :: choices ++ char ')' :: rest) =
      char '(' :: choices ++ char ')' :: normalize rest := by
  have hword : loneWord? (choices ++ char ')' :: rest) = none := by
    rw [Option.eq_none_iff_forall_ne_some]
    rintro ⟨w, rest'⟩ hsome
    obtain ⟨heq, hne, hw⟩ := loneWord?_eq_some hsome
    have hclose : char ')' ∉ w := by
      intro hmem
      exact absurd (hw _ hmem) (by decide)
    have hparts := slotParts_eq (not_mem_of_forall hchoices rfl) rest
    rw [List.cons_append, heq, ← List.cons_append, slotParts_eq hclose] at hparts
    obtain ⟨rfl, -⟩ := Prod.mk.inj hparts
    exact absurd ⟨hne, hw⟩ h
  rw [List.cons_append, normalize_of_no_word hword,
    normalize_append_left (not_mem_of_forall hchoices rfl), normalize_cons (by decide)]
  rfl

/-- The token that the normal form of a token's text is. -/
def Token.settle (t : Token) : Token :=
  if normalize t.text = t.text then t else .ofWord (normalize t.text)

lemma Token.settle_of_not_mem {t : Token} (h : char '(' ∉ t.text) : t.settle = t := by
  rw [settle, if_pos (normalize_eq_self h)]

lemma Token.settle_text (t : Token) : t.settle.text = normalize t.text := by
  unfold settle
  split_ifs with h
  · exact h.symm
  · rfl

lemma Token.settle_of_normalize {t : Token} {s : Text} (h : normalize t.text = s)
    (hlt : s.length < t.text.length) : t.settle = .ofWord s := by
  have hne : normalize t.text ≠ t.text := by
    intro heq
    rw [← h, heq] at hlt
    exact Nat.lt_irrefl _ hlt
  rw [settle, if_neg hne, h]

lemma isBracket_of_isPlain {c : CodePoint} (h : isPlain c = true) : isBracket c = false := by
  simp only [isPlain, Bool.and_eq_true, Bool.not_eq_true'] at h
  exact h.2

lemma isWordChar_of_isPlain {c : CodePoint} (h : isPlain c = true) : isWordChar c = true := by
  simp only [isPlain, Bool.and_eq_true, Bool.not_eq_true'] at h
  exact isWordChar_iff.2 ⟨h.1.1, h.2⟩

/-- The forms of a token of a text: a run of word characters or a closed group. -/
def Token.IsLexeme (t : Token) : Prop :=
  (∃ run, run ≠ [] ∧ (∀ c ∈ run, isWordChar c = true) ∧ t = .ofWord run) ∨ t.IsGroup

lemma Reads.isLexeme {s : Text} {ts : List Token} (h : Reads s ts) : ∀ t ∈ ts, t.IsLexeme := by
  induction h with
  | nil => simp
  | blank _ _ ih => exact ih
  | word hne hrun _ _ ih =>
    intro t ht
    rcases List.mem_cons.1 ht with rfl | ht
    · exact .inl ⟨_, hne, hrun, rfl⟩
    · exact ih t ht
  | group hgroup _ ih =>
    intro t ht
    rcases List.mem_cons.1 ht with rfl | ht
    · exact .inr hgroup
    · exact ih t ht

lemma Token.IsGroup.reads {t : Token} (ht : t.IsGroup) : Reads t.text [t] := by
  simpa using Reads.group ht .nil

lemma reads_ofWord {run : Text} (hne : run ≠ []) (hrun : ∀ c ∈ run, isWordChar c = true) :
    Reads run [.ofWord run] := by
  simpa using Reads.word hne hrun (by simp) .nil

lemma Token.IsLexeme.isGroup {t : Token} (ht : t.IsLexeme) (hx : t.expandable = true) :
    t.IsGroup := by
  rcases ht with ⟨run, -, -, rfl⟩ | ht
  · exact absurd hx (by simp [expandable])
  · exact ht

lemma Token.IsLexeme.reads {t : Token} (ht : t.IsLexeme) : Reads t.text [t] := by
  rcases ht with ⟨run, hne, hrun, rfl⟩ | ht
  · exact reads_ofWord hne hrun
  · exact ht.reads

lemma Token.IsLexeme.not_mem_of_word {t : Token} (ht : t.IsLexeme) (hk : t.kind = .word) :
    char '(' ∉ t.text := by
  rcases ht with ⟨run, _, hrun, rfl⟩ | ht
  · exact not_mem_of_forall (fun c hc => (isWordChar_iff.1 (hrun c hc)).2) rfl
  · cases ht with
    | alternation => simp at hk
    | slot => simp at hk
    | curly h hround => simpa using hround

/-- How a token settles: it stays, or the brackets around a lone word go, in a round group or in a
slot, and a word is left. -/
inductive Token.Settling : Token → Token → Prop
  | stay (t : Token) : Settling t t
  | alternation {choices : Text} (h : IsLone choices) :
      Settling ⟨.alternation, char '(' :: choices ++ [char ')']⟩ (.ofWord choices)
  | slot {choices name : Text} (h : IsLone choices) (hname : ∀ c ∈ name, isBracket c = false) :
      Settling ⟨.slot, char '\x7b' :: (char '(' :: choices ++ char ')' :: name) ++ [char '\x7d']⟩
        (.ofWord (char '\x7b' :: (choices ++ name) ++ [char '\x7d']))

lemma Token.settling_of_fixed {t : Token} (h : normalize t.text = t.text) :
    t.Settling t.settle := by
  rw [settle, if_pos h]
  exact .stay t

lemma Token.settling_alternation {choices : Text} (hchoices : ∀ c ∈ choices, isBracket c = false) :
    Settling ⟨.alternation, char '(' :: choices ++ [char ')']⟩
      (settle ⟨.alternation, char '(' :: choices ++ [char ')']⟩) := by
  by_cases hlone : IsLone choices
  · have hnormal : normalize (char '(' :: choices ++ [char ')']) = choices := by
      simpa using normalize_lone hlone []
    have hlt : choices.length < (char '(' :: choices ++ [char ')']).length := by
      rw [List.length_append, List.length_cons]
      omega
    rw [settle_of_normalize hnormal hlt]
    exact .alternation hlone
  · refine settling_of_fixed ?_
    simpa using normalize_not_lone hchoices hlone []

lemma Token.settling_slot {choices name : Text} (hchoices : ∀ c ∈ choices, isBracket c = false)
    (hname : ∀ c ∈ name, isBracket c = false) :
    Settling ⟨.slot, char '\x7b' :: (char '(' :: choices ++ char ')' :: name) ++ [char '\x7d']⟩
      (settle
        ⟨.slot, char '\x7b' :: (char '(' :: choices ++ char ')' :: name) ++ [char '\x7d']⟩) := by
  have hcurly : char '(' ∉ name ++ [char '\x7d'] := by
    simpa using not_mem_of_forall hname rfl
  have hinner :
      normalize (char '\x7b' :: (char '(' :: choices ++ char ')' :: name) ++ [char '\x7d']) =
      char '\x7b' :: normalize (char '(' :: choices ++ char ')' :: (name ++ [char '\x7d'])) := by
    rw [List.cons_append, normalize_cons (by decide)]
    simp
  by_cases hlone : IsLone choices
  · rw [normalize_lone hlone, normalize_eq_self hcurly, ← List.append_assoc,
      ← List.cons_append] at hinner
    have hlt : (char '\x7b' :: (choices ++ name) ++ [char '\x7d']).length <
        (char '\x7b' :: (char '(' :: choices ++ char ')' :: name) ++ [char '\x7d']).length := by
      simp only [List.length_append, List.length_cons]
      omega
    rw [settle_of_normalize hinner hlt]
    exact .slot hlone hname
  · refine settling_of_fixed ?_
    rw [hinner, normalize_not_lone hchoices hlone, normalize_eq_self hcurly]
    simp

theorem Token.IsLexeme.settling {t : Token} (ht : t.IsLexeme) : t.Settling t.settle := by
  by_cases hk : t.kind = .word
  · exact settling_of_fixed (normalize_eq_self (ht.not_mem_of_word hk))
  · rcases ht with ⟨run, _, _, rfl⟩ | ht
    · exact absurd rfl hk
    · cases ht with
      | curly => exact absurd rfl hk
      | alternation hchoices => exact settling_alternation hchoices
      | slot hchoices hname => exact settling_slot hchoices hname

lemma IsLone.not_isBracket {choices : Text} (h : IsLone choices) :
    ∀ c ∈ choices, isBracket c = false :=
  fun c hc => isBracket_of_isPlain (h.2 c hc)

theorem Token.IsLexeme.reads_settle {t : Token} (ht : t.IsLexeme) :
    Reads (normalize t.text) [t.settle] := by
  rw [← settle_text]
  have hsettling := ht.settling
  generalize t.settle = u at hsettling
  cases hsettling with
  | stay => exact ht.reads
  | alternation hlone =>
    exact reads_ofWord hlone.1 fun c hc => isWordChar_of_isPlain (hlone.2 c hc)
  | @slot choices name hlone hname =>
    have hinner : ∀ c ∈ choices ++ name, isBracket c = false :=
      List.forall_mem_append.2 ⟨hlone.not_isBracket, hname⟩
    exact (Token.IsGroup.curly (balanced_of_forall hinner) (not_mem_of_forall hinner rfl)).reads

lemma Token.IsLexeme.settle {t : Token} (ht : t.IsLexeme) : t.settle.IsLexeme :=
  ht.reads_settle.isLexeme _ List.mem_cons_self

lemma Token.settle_eq_self {t : Token} (h : t.settle.expandable = true) : t.settle = t := by
  unfold Token.settle at h ⊢
  split_ifs at h ⊢ with hnormal
  · rfl
  · simp [expandable] at h

lemma Token.IsLexeme.settle_settle {t : Token} (ht : t.IsLexeme) : t.settle.settle = t.settle := by
  by_cases hx : t.settle.expandable = true
  · rw [settle_eq_self hx, settle_eq_self hx]
  · have hk : t.settle.kind = .word := by simpa [expandable] using hx
    exact settle_of_not_mem (ht.settle.not_mem_of_word hk)

lemma Token.Settling.expandable {t u : Token} (h : t.Settling u) (hu : u.expandable = true) :
    t.expandable = true := by
  cases h with
  | stay => exact hu
  | alternation => rfl
  | slot => rfl

end Phrasebook.Template
