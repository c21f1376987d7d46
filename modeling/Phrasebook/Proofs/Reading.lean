import Phrasebook.Proofs.Nesting

/-!
# How a text reads as tokens

`Reads s ts` says without a scanner that the text `s` is written with the tokens `ts`: blanks
stand anywhere between tokens, a word outside groups ends where no word character follows, and a
group is one of three forms. The scan finds a row of tokens exactly when the text reads as that
row (`tokenize_eq_ok_iff`), so that laws of tokens need not follow the scan.
-/

namespace Phrasebook.Template

/-- The forms of a closed group: alternatives in round brackets, alternatives and a name in curly
ones, and a curly group with no round bracket in it, which is a word. -/
inductive Token.IsGroup : Token → Prop
  | alternation {choices : Text} (h : ∀ c ∈ choices, isBracket c = false) :
      IsGroup ⟨.alternation, char '(' :: choices ++ [char ')']⟩
  | slot {choices name : Text} (hchoices : ∀ c ∈ choices, isBracket c = false)
      (hname : ∀ c ∈ name, isBracket c = false) :
      IsGroup ⟨.slot, char '\x7b' :: (char '(' :: choices ++ char ')' :: name) ++ [char '\x7d']⟩
  | curly {inner : Text} (h : Balanced inner) (hround : char '(' ∉ inner) :
      IsGroup ⟨.word, char '\x7b' :: inner ++ [char '\x7d']⟩

/-- The text is written with these tokens. -/
inductive Reads : Text → List Token → Prop
  | nil : Reads [] []
  | blank {c : CodePoint} {s : Text} {ts : List Token} (hc : Text.isBlank c = true)
      (h : Reads s ts) :
      Reads (c :: s) ts
  | word {run s : Text} {ts : List Token} (hne : run ≠ []) (hrun : ∀ c ∈ run, isWordChar c = true)
      (hend : ∀ c ∈ s.head?, isWordChar c = false) (h : Reads s ts) :
      Reads (run ++ s) (⟨.word, run⟩ :: ts)
  | group {t : Token} {s : Text} {ts : List Token} (ht : t.IsGroup) (h : Reads s ts) :
      Reads (t.text ++ s) (t :: ts)

@[simp] lemma inside_enclose (c d : CodePoint) (s : Text) : Text.inside (c :: s ++ [d]) = s := by
  simp [Text.inside]

lemma slotParts_eq {choices : Text} (h : char ')' ∉ choices) (name : Text) :
    slotParts (char '(' :: choices ++ char ')' :: name) = (choices, name) := by
  have hp : ∀ c ∈ char '(' :: choices, (decide (c ≠ ')')) = true := by
    intro c hc
    rcases List.mem_cons.1 hc with rfl | hc
    · decide
    · rw [decide_eq_true_eq]
      rintro rfl
      exact h hc
  unfold slotParts
  rw [if_pos (by simp), List.takeWhile_append_of_pos hp, List.dropWhile_append_of_pos hp]
  simp

lemma eq_of_slotParts {s : Text} (hhead : s.head? = some '(') (hclose : char ')' ∈ s) :
    s = char '(' :: (slotParts s).1 ++ char ')' :: (slotParts s).2 := by
  obtain ⟨before, name, rfl, hbefore⟩ := List.eq_append_cons_of_mem hclose
  cases before with
  | nil => simp at hhead
  | cons c choices =>
    obtain rfl : c = '(' := by simpa using hhead
    rw [slotParts_eq fun h => hbefore (by simp [h])]

lemma not_mem_of_forall {s : Text} (h : ∀ c ∈ s, isBracket c = false) {b : CodePoint}
    (hb : isBracket b = true) : b ∉ s := by
  intro hmem
  rw [h b hmem] at hb
  exact Bool.false_ne_true hb

lemma Token.IsGroup.ofGroup {t : Token} (ht : t.IsGroup) (template : Text) :
    Token.ofGroup template t.text = .ok t := by
  cases ht with
  | alternation h =>
    simp only [Token.ofGroup, inside_enclose]
    rw [if_pos (by simp), if_neg (by simpa using h)]
  | @slot choices name hchoices hname =>
    simp only [Token.ofGroup, inside_enclose, slotParts_eq (not_mem_of_forall hchoices rfl) name]
    rw [if_neg (by simp), if_pos (by simp),
      if_pos ⟨by simp, by simpa using hchoices, by simpa using hname⟩]
  | curly h hround =>
    simp only [Token.ofGroup, inside_enclose]
    rw [if_neg (by simp), if_neg hround]

lemma Token.isGroup_of_ofGroup {template s : Text} {shape : Shape} (hs : Balanced s) {t : Token}
    (h : Token.ofGroup template (shape.opener :: s ++ [shape.closer]) = .ok t) :
    t.IsGroup ∧ t.text = shape.opener :: s ++ [shape.closer] := by
  unfold Token.ofGroup at h
  rw [inside_enclose] at h
  cases shape with
  | round =>
    rw [if_pos (by simp [Shape.opener])] at h
    by_cases hin : s.any isBracket = true
    · simp [hin] at h
    · rw [if_neg hin] at h
      obtain rfl := Except.ok.inj h
      exact ⟨.alternation (by simpa using hin), rfl⟩
  | curly =>
    rw [if_neg (by simp [Shape.opener])] at h
    by_cases hround : char '(' ∈ s
    · rw [if_pos hround] at h
      split_ifs at h with hslot
      obtain ⟨hhead, hchoices, hname⟩ := hslot
      obtain rfl := Except.ok.inj h
      have hclose : char ')' ∈ s := (hs.closer_mem_iff .round).2 hround
      have heq := eq_of_slotParts hhead hclose
      have hslot := IsGroup.slot (any_isBracket_eq_false hchoices) (any_isBracket_eq_false hname)
      rw [← heq] at hslot
      exact ⟨hslot, rfl⟩
    · rw [if_neg hround] at h
      obtain rfl := Except.ok.inj h
      exact ⟨.curly hs hround, rfl⟩

lemma Reads.run {run s : Text} {ts : List Token} (hrun : ∀ c ∈ run, isWordChar c = true)
    (hend : ∀ c ∈ s.head?, isWordChar c = false) (h : Reads s ts) :
    Reads (run ++ s) (Token.ofRun run ++ ts) := by
  cases run with
  | nil => exact h
  | cons c run => exact .word (by simp) hrun hend h

lemma not_isWordChar_of_isBlank {c : CodePoint} (h : Text.isBlank c = true) :
    isWordChar c = false := by
  simp [isWordChar, h]

lemma not_isWordChar_of_isBracket {c : CodePoint} (h : isBracket c = true) :
    isWordChar c = false := by
  simp [isWordChar, h]

lemma isWordChar_iff {c : CodePoint} :
    isWordChar c = true ↔ Text.isBlank c = false ∧ isBracket c = false := by
  simp [isWordChar]

/-- A run that is held back goes on with a word character. -/
lemma Held.snoc_word {held : Text} {c : CodePoint} (h : Held [] held)
    (hblank : ¬Text.isBlank c = true) (hb : bracket? c = none) : Held [] (held ++ [c]) := by
  cases h with
  | run hrun =>
    refine .run fun d hd => ?_
    rcases List.mem_append.1 hd with hd | hd
    · exact hrun d hd
    · rw [List.mem_singleton.1 hd, isWordChar_iff, isBracket_eq_false_iff]
      exact ⟨by simpa using hblank, hb⟩

theorem reads_of_scan {template held s : Text} {column : Nat} {opened : List Opening}
    {ts : List Token} (h : scan template column held opened s = .ok ts)
    (hheld : Held (opened.map (·.shape)) held) : Reads (held ++ s) ts := by
  -- every step keeps what it holds back a run or a chain of open groups
  fun_induction scan template column held opened s generalizing ts with
  | case1 column run =>
    obtain rfl := Except.ok.inj h
    cases hheld with
    | run hrun => simpa using Reads.run hrun (by simp) .nil
  | case2 => simp at h
  | case3 column held c rest shape hb ih =>
    obtain ⟨us, hus, h⟩ := Except.bind_eq_ok h
    obtain rfl := Except.ok.inj h
    obtain rfl := eq_opener_of_bracket? hb
    cases hheld with
    | run hrun =>
      exact .run hrun (by simp [not_isWordChar_of_isBracket]) (ih hus (.outermost shape .nil))
  | case4 => simp at h
  | case5 column held c rest hb hc ih =>
    obtain ⟨us, hus, h⟩ := Except.bind_eq_ok h
    obtain rfl := Except.ok.inj h
    cases hheld with
    | run hrun =>
      exact .run hrun (by simp [not_isWordChar_of_isBlank hc]) (.blank hc (ih hus (.run (by simp))))
  | case6 column held c rest hb hc ih =>
    have hread := ih h (hheld.snoc_word hc hb)
    simpa using hread
  | case7 column held o outer c rest shape hb ih =>
    obtain rfl := eq_opener_of_bracket? hb
    have hread := ih h (.inner shape hheld .nil)
    simpa using hread
  | case8 column held o c rest hb ih =>
    obtain ⟨t, ht, h⟩ := Except.bind_eq_ok h
    obtain ⟨us, hus, h⟩ := Except.bind_eq_ok h
    obtain rfl := Except.ok.inj h
    obtain rfl := eq_closer_of_bracket? hb
    obtain ⟨inner, hinner, rfl⟩ := hheld.exists_balanced
    obtain ⟨hgroup, htext⟩ := Token.isGroup_of_ofGroup hinner ht
    have hread := Reads.group hgroup (ih hus (.run (by simp)))
    rw [htext] at hread
    simpa using hread
  | case9 column held o c rest o' outer hb ih =>
    obtain rfl := eq_closer_of_bracket? hb
    have hread := ih h hheld.close
    simpa using hread
  | case10 => simp at h
  | case11 column held o outer c rest hb ih =>
    have hread := ih h (hheld.append (.plain (isBracket_eq_false_iff.2 hb) .nil))
    simpa using hread

lemma Token.IsGroup.exists_enclosed {t : Token} (ht : t.IsGroup) :
    ∃ (shape : Shape) (inner : Text),
      Balanced inner ∧ t.text = shape.opener :: inner ++ [shape.closer] := by
  cases ht with
  | alternation h => exact ⟨.round, _, balanced_of_forall h, rfl⟩
  | slot hchoices hname =>
    exact ⟨.curly, _, .group .round (balanced_of_forall hchoices) (balanced_of_forall hname), rfl⟩
  | curly h _ => exact ⟨.curly, _, h, rfl⟩

lemma scan_run {run : Text} (hrun : ∀ c ∈ run, isWordChar c = true) (template : Text)
    (column : Nat) (held s : Text) :
    scan template column held [] (run ++ s) =
      scan template (column + run.length) (held ++ run) [] s := by
  induction run generalizing column held with
  | nil => simp
  | cons c run ih =>
    obtain ⟨hblank, hbracket⟩ := isWordChar_iff.1 (hrun c (by simp))
    rw [List.cons_append, scan.eq_def]
    simp only [isBracket_eq_false_iff.1 hbracket, hblank, Bool.false_eq_true, if_false]
    rw [ih fun d hd => hrun d (by simp [hd])]
    simp only [List.length_cons, List.append_assoc, List.singleton_append]
    congr 1
    omega

lemma scan_blank {c : CodePoint} (hc : Text.isBlank c = true) (template : Text) (column : Nat)
    (held s : Text) :
    scan template column held [] (c :: s) =
      (scan template (column + 1) [] [] s).map fun ts => Token.ofRun held ++ ts := by
  rw [scan.eq_def]
  simp only [isBracket_eq_false_iff.1 (not_isBracket_of_isBlank hc), hc, if_true]
  rfl

lemma scan_group {t : Token} (ht : t.IsGroup) (template : Text) (column : Nat) (held s : Text) :
    scan template column held [] (t.text ++ s) =
      (scan template (column + t.text.length) [] [] s).map fun ts =>
        Token.ofRun held ++ t :: ts := by
  obtain ⟨shape, inner, hinner, htext⟩ := ht.exists_enclosed
  have hjudge := ht.ofGroup template
  rw [htext] at hjudge ⊢
  rw [List.append_assoc, List.cons_append, scan.eq_def]
  simp only [bracket?_opener]
  rw [scan_balanced hinner, List.singleton_append, scan.eq_def]
  simp only [bracket?_closer, if_true, List.cons_append, List.nil_append]
  rw [← List.cons_append, hjudge]
  have hcolumn : column + 1 + inner.length + 1 =
      column + (shape.opener :: inner ++ [shape.closer]).length := by
    simp only [List.cons_append, List.length_cons, List.length_append, List.length_nil]
    omega
  rw [hcolumn]
  cases scan template (column + (shape.opener :: inner ++ [shape.closer]).length) [] [] s <;> rfl

theorem scan_of_reads {s : Text} {ts : List Token} (h : Reads s ts) (template : Text)
    (column : Nat) {held : Text} (hend : held ≠ [] → ∀ c ∈ s.head?, isWordChar c = false) :
    scan template column held [] s = .ok (Token.ofRun held ++ ts) := by
  induction h generalizing column held with
  | nil => simp [scan]
  | blank hc _ ih => rw [scan_blank hc, ih (column + 1) (by simp)]; rfl
  | @word run s ts hne hrun hboundary _ ih =>
    have hheld : held = [] := by
      by_contra hheld
      obtain ⟨c, run', rfl⟩ := List.exists_cons_of_ne_nil hne
      have hstop := hend hheld c (by simp)
      rw [hrun c (by simp)] at hstop
      exact Bool.false_ne_true hstop.symm
    subst hheld
    rw [scan_run hrun, ih _ fun _ => hboundary, List.nil_append]
    obtain ⟨c, run', rfl⟩ := List.exists_cons_of_ne_nil hne
    rfl
  | group ht _ ih => rw [scan_group ht, ih _ (by simp)]; rfl

/-- A text has these tokens exactly when it is written with them. -/
theorem tokenize_eq_ok_iff {s : Text} {ts : List Token} : tokenize s = .ok ts ↔ Reads s ts := by
  constructor
  · intro h
    exact reads_of_scan h (.run (by simp))
  · intro h
    exact scan_of_reads h s 1 (by simp)

lemma Reads.unique {s : Text} {ts us : List Token} (h : Reads s ts) (h' : Reads s us) :
    ts = us := by
  rw [← tokenize_eq_ok_iff] at h h'
  rw [h] at h'
  exact Except.ok.inj h'

end Phrasebook.Template
