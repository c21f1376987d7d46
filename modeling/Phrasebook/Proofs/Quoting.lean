import Mathlib.Tactic.IntervalCases
import Phrasebook.Text.Quoted

/-!
# Reading quoted text back

What stands between quote marks can be read back character by character (`unquotedChar?_append`),
whatever follows it, and so a quoted text is told from every other one even when more is written
behind it (`quoted_append_inj`). Two messages that differ in what they name are two.
-/

namespace Phrasebook.Text

lemma ofDigits_append_singleton (base d : Nat) (ds : List Nat) :
    ofDigits base (ds ++ [d]) = base * ofDigits base ds + d := by
  simp [ofDigits]

lemma ofDigits_zeros_append (base k : Nat) (ds : List Nat) :
    ofDigits base (List.replicate k 0 ++ ds) = ofDigits base ds := by
  have hzeros : ofDigits base (List.replicate k 0) = 0 := by
    induction k with
    | zero => rfl
    | succ k ih => rw [List.replicate_succ', ofDigits_append_singleton, ih, Nat.mul_zero]
  unfold ofDigits at hzeros ⊢
  rw [List.foldl_append, hzeros]

lemma hexValue?_digitChar {d : Nat} (h : d < 16) : hexValue? (char d.digitChar) = some d := by
  interval_cases d <;> decide

lemma inBase_of_lt {base n : Nat} (h : n < base) : inBase base n = [char n.digitChar] := by
  rw [inBase, Nat.toDigits_of_lt_base h, List.map_singleton]

section Digits

variable {base : Nat} (hbase : 1 < base)
include hbase

lemma inBase_of_le {n : Nat} (h : base ≤ n) :
    inBase base n = inBase base (n / base) ++ [char (n % base).digitChar] := by
  rw [inBase, Nat.toDigits_of_base_le hbase h, List.map_append, List.map_singleton, inBase]

/-- The digits of a number in a base, if they are read one by one, denote the number. -/
lemma ofDigits_inBase_of {value : CodePoint → Option Nat}
    (hvalue : ∀ d < base, value (char d.digitChar) = some d) (n : Nat) :
    ofDigits base ((inBase base n).filterMap value) = n := by
  induction n using Nat.strongRecOn with
  | ind n ih =>
    by_cases h : n < base
    · rw [inBase_of_lt h, List.filterMap_cons, hvalue n h]
      simp [ofDigits]
    · rw [inBase_of_le hbase (Nat.le_of_not_lt h), List.filterMap_append, List.filterMap_cons,
        hvalue _ (Nat.mod_lt n (by omega)), List.filterMap_nil, ofDigits_append_singleton,
        ih (n / base) (Nat.div_lt_self (by omega) hbase)]
      exact Nat.div_add_mod n base

lemma exists_digit_of_mem_inBase {n : Nat} {c : CodePoint} (hc : c ∈ inBase base n) :
    ∃ d < base, c = char d.digitChar := by
  induction n using Nat.strongRecOn with
  | ind n ih =>
    by_cases h : n < base
    · rw [inBase_of_lt h, List.mem_singleton] at hc
      exact ⟨n, h, hc⟩
    · rw [inBase_of_le hbase (Nat.le_of_not_lt h)] at hc
      rcases List.mem_append.1 hc with hc | hc
      · exact ih (n / base) (Nat.div_lt_self (by omega) hbase) hc
      · exact ⟨n % base, Nat.mod_lt n (by omega), List.mem_singleton.1 hc⟩

end Digits

lemma ofDigits_inBase (n : Nat) :
    ofDigits 16 ((inBase 16 n).filterMap hexValue?) = n :=
  ofDigits_inBase_of (by decide) (fun _ h => hexValue?_digitChar h) n

lemma ofDigits_padded (width n : Nat) :
    ofDigits 16 ((padded 16 width n).filterMap hexValue?) = n := by
  have hzero : hexValue? '0' = some 0 := by decide
  rw [padded, List.filterMap_append, List.filterMap_replicate_of_some hzero,
    ofDigits_zeros_append, ofDigits_inBase]

lemma length_padded {width n : Nat} (hwidth : 0 < width) (h : n < 16 ^ width) :
    (padded 16 width n).length = width := by
  have := (Nat.length_toDigits_le_iff (by decide : 1 < 16) hwidth).2 h
  simp only [padded, inBase, List.length_append, List.length_replicate, List.length_map]
  omega

/-- The character whose number the next digits are, and what is behind them. -/
def numberedChar (width : Nat) (s : Text) : CodePoint × Text :=
  (CodePoint.ofNat (ofDigits 16 ((s.take width).filterMap hexValue?)), s.drop width)

/-- The next character of what stands between quote marks, and what is behind it. -/
def unquotedChar? : Text → Option (CodePoint × Text)
  | '\\' :: 'n' :: s => some ('\n', s)
  | '\\' :: 'r' :: s => some ('\r', s)
  | '\\' :: 't' :: s => some ('\t', s)
  | '\\' :: 'x' :: s => some (numberedChar 2 s)
  | '\\' :: 'u' :: s => some (numberedChar 4 s)
  | '\\' :: 'U' :: s => some (numberedChar 8 s)
  | '\\' :: c :: s => some (c, s)
  | c :: s => some (c, s)
  | [] => none

lemma numberedChar_append {width : Nat} (hwidth : 0 < width) {c : CodePoint}
    (h : c.toNat < 16 ^ width) (s : Text) :
    numberedChar width (padded 16 width c.toNat ++ s) = (c, s) := by
  have hlength := length_padded hwidth h
  rw [numberedChar, List.take_left' hlength, List.drop_left' hlength, ofDigits_padded,
    CodePoint.ofNat_toNat]

lemma unquotedChar?_numbered (c : CodePoint) (s : Text) :
    unquotedChar? (numbered c.toNat ++ s) = some (c, s) := by
  unfold numbered
  split_ifs with htwo hfour
  · exact congrArg some (numberedChar_append (by decide) htwo s)
  · exact congrArg some (numberedChar_append (by decide) hfour s)
  · have hlt : c.toNat < 16 ^ 8 := by
      have hvalid := c.toNat_lt
      omega
    exact congrArg some (numberedChar_append (by decide) hlt s)

lemma unquotedChar?_cons {c : CodePoint} (h : c ≠ '\\') (s : Text) :
    unquotedChar? (c :: s) = some (c, s) := by
  unfold unquotedChar?
  split <;> simp_all

lemma quoteMark_eq (s : Text) : quoteMark s = '\x27' ∨ quoteMark s = '\x22' := by
  unfold quoteMark
  split_ifs
  · exact .inr rfl
  · exact .inl rfl

section Mark

variable {mark : CodePoint} (hmark : mark = '\x27' ∨ mark = '\x22')
include hmark

theorem unquotedChar?_append (c : CodePoint) (s : Text) :
    unquotedChar? (quotedChar mark c ++ s) = some (c, s) := by
  unfold quotedChar
  split_ifs with hescaped hfeed hreturn htab hprintable
  · rcases hescaped with rfl | rfl
    · rcases hmark with rfl | rfl <;> rfl
    · rfl
  · rw [hfeed]; rfl
  · rw [hreturn]; rfl
  · rw [htab]; rfl
  · exact unquotedChar?_cons (not_or.1 hescaped).2 s
  · exact unquotedChar?_numbered c s

/-- No character is written with the quote mark first. -/
lemma head_quotedChar (c : CodePoint) (s : Text) : (quotedChar mark c ++ s).head? ≠ some mark := by
  have hslash : '\\' ≠ mark := by
    rcases hmark with rfl | rfl <;> decide
  unfold quotedChar numbered
  split_ifs <;> simp_all

lemma flatMap_quotedChar_inj {s t rest other : Text}
    (h : s.flatMap (quotedChar mark) ++ mark :: rest =
      t.flatMap (quotedChar mark) ++ mark :: other) : s = t ∧ rest = other := by
  induction s generalizing t with
  | nil =>
    cases t with
    | nil => simpa using h
    | cons d t =>
      rw [List.flatMap_cons, List.append_assoc] at h
      exact absurd (congrArg List.head? h).symm (head_quotedChar hmark d _)
  | cons c s ih =>
    rw [List.flatMap_cons, List.append_assoc] at h
    cases t with
    | nil => exact absurd (congrArg List.head? h) (head_quotedChar hmark c _)
    | cons d t =>
      rw [List.flatMap_cons, List.append_assoc] at h
      have hread := congrArg unquotedChar? h
      rw [unquotedChar?_append hmark, unquotedChar?_append hmark, Option.some.injEq,
        Prod.mk.injEq] at hread
      obtain ⟨rfl, htail⟩ := hread
      obtain ⟨rfl, hrest⟩ := ih htail
      exact ⟨rfl, hrest⟩

end Mark

/-- A quoted text tells the text, and where it ends. -/
theorem quoted_append_inj {s t rest other : Text} (h : quoted s ++ rest = quoted t ++ other) :
    s = t ∧ rest = other := by
  simp only [quoted, List.cons_append, List.append_assoc, List.cons.injEq] at h
  obtain ⟨hmark, h⟩ := h
  rw [hmark] at h
  exact flatMap_quotedChar_inj (quoteMark_eq t) h

end Phrasebook.Text
