import Mathlib.Data.List.Chain
import Mathlib.Data.List.TakeDrop
import Phrasebook.Document.Json.Printer
import Phrasebook.Document.Json.Reader
import Phrasebook.Proofs.Quoting

/-!
# Reading printed strings and numerals back

A string is printed character by character, each of them as itself, by a letter, or by its number,
and read back in the same steps (`string_printed`). The numeral of an integer is read back by its
digits, unless it has more of them than the reader takes (`value_ofInt`).
-/

namespace Phrasebook

/-- Whether a code point is the first half of a pair. -/
def CodePoint.IsHigh (c : CodePoint) : Prop :=
  0xD800 ≤ c.toNat ∧ c.toNat < 0xDC00

/-- Whether a code point is the second half of a pair. -/
def CodePoint.IsLow (c : CodePoint) : Prop :=
  0xDC00 ≤ c.toNat ∧ c.toNat < 0xE000

instance (c : CodePoint) : Decidable c.IsHigh :=
  inferInstanceAs (Decidable (_ ∧ _))

instance (c : CodePoint) : Decidable c.IsLow :=
  inferInstanceAs (Decidable (_ ∧ _))

namespace Text

/-- No two halves stand side by side that are printed like the character of the pair. -/
def IsJoined (t : Text) : Prop :=
  t.IsChain fun c d => ¬(c.IsHigh ∧ d.IsLow)

lemma digitValue?_digitChar {d : Nat} (h : d < 10) : digitValue? (char d.digitChar) = some d := by
  interval_cases d <;> decide

lemma decimal_ofNat (n : Nat) : decimal (ofNat n) = n :=
  ofDigits_inBase_of (by decide) (fun _ h => digitValue?_digitChar h) n

lemma isDigit_of_mem_ofNat {n : Nat} {c : CodePoint} (hc : c ∈ ofNat n) : isDigit c = true := by
  obtain ⟨d, hd, rfl⟩ := exists_digit_of_mem_inBase (by decide) hc
  simp [isDigit, digitValue?_digitChar hd]

lemma not_mem_ofNat {c : CodePoint} (hc : isDigit c = false) (n : Nat) : c ∉ ofNat n := by
  intro h
  rw [isDigit_of_mem_ofNat h] at hc
  exact Bool.noConfusion hc

lemma ofNat_append_inj {n m : Nat} {c : CodePoint} (hc : isDigit c = false) {s t : Text}
    (h : ofNat n ++ c :: s = ofNat m ++ c :: t) : n = m ∧ s = t := by
  have hdigits (n : Nat) (s : Text) : (ofNat n ++ c :: s).takeWhile isDigit = ofNat n ∧
      (ofNat n ++ c :: s).dropWhile isDigit = c :: s := by
    have hall : ∀ d ∈ ofNat n, isDigit d = true := fun d hd => isDigit_of_mem_ofNat hd
    rw [List.takeWhile_append_of_pos hall, List.dropWhile_append_of_pos hall]
    simp [hc]
  have hnumeral := congrArg (List.takeWhile isDigit) h
  have hrest := congrArg (List.dropWhile isDigit) h
  rw [(hdigits n s).1, (hdigits m t).1] at hnumeral
  rw [(hdigits n s).2, (hdigits m t).2] at hrest
  refine ⟨?_, (List.cons.inj hrest).2⟩
  rw [← decimal_ofNat n, hnumeral, decimal_ofNat]

lemma ofNat_ne_nil (n : Nat) : ofNat n ≠ [] :=
  mt List.map_eq_nil_iff.1 Nat.toDigits_ne_nil

lemma exists_head_ofNat {n : Nat} (h : n ≠ 0) : ∃ c ds, ofNat n = c :: ds ∧ c ≠ '0' := by
  unfold ofNat
  induction n using Nat.strongRecOn with
  | ind n ih =>
    by_cases hlt : n < 10
    · refine ⟨char n.digitChar, [], Text.inBase_of_lt hlt, ?_⟩
      interval_cases n <;> simp_all
    · obtain ⟨c, ds, hds, hc⟩ := ih (n / 10) (by omega) (by omega)
      refine ⟨c, ds ++ [char (n % 10).digitChar], ?_, hc⟩
      rw [Text.inBase_of_le (by decide) (by omega), hds]
      rfl

end Text

namespace Json

lemma mapM_eq_filterMap {α β : Type} {f : α → Option β} {l : List α}
    (h : ∀ a ∈ l, (f a).isSome = true) : l.mapM f = some (l.filterMap f) := by
  induction l with
  | nil => rfl
  | cons a l ih =>
    obtain ⟨b, hb⟩ := Option.isSome_iff_exists.1 (h a List.mem_cons_self)
    rw [List.mapM_cons, ih fun c hc => h c (List.mem_cons_of_mem a hc), List.filterMap_cons, hb]
    rfl

lemma hexValue?_of_mem_padded {width n : Nat} {c : CodePoint} (hc : c ∈ Text.padded 16 width n) :
    (Text.hexValue? c).isSome = true := by
  rcases List.mem_append.1 hc with hc | hc
  · rw [List.eq_of_mem_replicate hc]
    rfl
  · obtain ⟨d, hd, rfl⟩ := Text.exists_digit_of_mem_inBase (by decide) hc
    rw [Text.hexValue?_digitChar hd]
    rfl

section Escapes

variable {n : Nat} (h : n < 16 ^ 4)
include h

lemma fourDigits?_padded (s : Text) : fourDigits? (Text.padded 16 4 n ++ s) = some n := by
  have hlength : (Text.padded 16 4 n).length = 4 := Text.length_padded (by decide) h
  have hvalues : (Text.padded 16 4 n).mapM Text.hexValue? =
      some ((Text.padded 16 4 n).filterMap Text.hexValue?) :=
    mapM_eq_filterMap fun c hc => hexValue?_of_mem_padded hc
  have hnumber := Text.ofDigits_padded 4 n
  have hfour : ((Text.padded 16 4 n).filterMap Text.hexValue?).length = 4 := by
    rw [List.length_filterMap_eq_countP, List.countP_eq_length.2, hlength]
    exact fun c hc => hexValue?_of_mem_padded hc
  rw [fourDigits?, List.take_left' hlength, hvalues]
  generalize (Text.padded 16 4 n).filterMap Text.hexValue? = ds at hfour hnumber
  match ds, hfour with
  | [a, b, c, d], _ => exact congrArg some hnumber

lemma drop_padded (s : Text) : (Text.padded 16 4 n ++ s).drop 4 = s :=
  List.drop_left' (Text.length_padded (by decide) h)

end Escapes

/-- A text does not begin with the escape of the second half of a pair. -/
def BeginsApart (s : Text) : Prop :=
  ∀ digits, s = char '\\' :: char 'u' :: digits →
    ∃ m, fourDigits? digits = some m ∧ ¬(0xDC00 ≤ m ∧ m < 0xE000)

lemma numberEscape_single {n : Nat} (h : n < 0x10000) {s : Text} (hs : s ≠ [])
    (hapart : 0xD800 ≤ n ∧ n < 0xDC00 → BeginsApart s) :
    numberEscape (Text.padded 16 4 n ++ s) = .ok (CodePoint.ofNat n, s) := by
  obtain ⟨c, s, rfl⟩ := List.exists_cons_of_ne_nil hs
  have hn : n < 16 ^ 4 := by omega
  unfold numberEscape
  simp only [drop_padded hn, fourDigits?_padded hn]
  split_ifs with hhalf
  · obtain ⟨hlow, hhigh, -, htake⟩ := hhalf
    obtain ⟨m, hm, hrange⟩ := hapart ⟨hlow, hhigh⟩ ((c :: s).drop 2)
      (by rw [← List.take_append_drop 2 (c :: s), htake]; rfl)
    simp only [hm, if_neg hrange]
  · rfl

/-- The two halves of a pair, one escaped behind the other, are read as one character. -/
lemma numberEscape_pair {m : Nat} (h : m < 0x100000) {s : Text} (hs : s ≠ []) :
    numberEscape (Text.padded 16 4 (0xD800 + m / 0x400) ++
      char '\\' :: char 'u' :: (Text.padded 16 4 (0xDC00 + m % 0x400) ++ s)) =
      .ok (CodePoint.ofNat (0x10000 + m), s) := by
  have hhigh : 0xD800 + m / 0x400 < 16 ^ 4 := by omega
  have hlow : 0xDC00 + m % 0x400 < 16 ^ 4 := by omega
  have hlength := Text.length_padded (by decide : 0 < 4) hlow
  have hpos := List.length_pos_iff.2 hs
  have hpaired : paired (0xD800 + m / 0x400) (0xDC00 + m % 0x400) =
      CodePoint.ofNat (0x10000 + m) := by
    have hsum : 0x10000 + (0xD800 + m / 0x400 - 0xD800) * 0x400 +
        (0xDC00 + m % 0x400 - 0xDC00) = 0x10000 + m := by
      omega
    rw [paired, hsum]
  unfold numberEscape
  simp only [drop_padded hhigh, fourDigits?_padded hhigh]
  rw [if_pos ⟨by omega, by omega, by simp [hlength]; omega, rfl⟩]
  simp only [List.drop_succ_cons, List.drop_zero, fourDigits?_padded hlow, drop_padded hlow]
  rw [if_pos ⟨by omega, by omega⟩, hpaired]

lemma numberEscaped_single {n : Nat} (h : n < 0x10000) :
    numberEscaped n = char '\\' :: char 'u' :: Text.padded 16 4 n :=
  if_pos h

lemma numberEscaped_pair {n : Nat} (h : ¬ n < 0x10000) :
    numberEscaped n = char '\\' :: char 'u' :: Text.padded 16 4 (0xD800 + (n - 0x10000) / 0x400) ++
      char '\\' :: char 'u' :: Text.padded 16 4 (0xDC00 + (n - 0x10000) % 0x400) := by
  rw [numberEscaped, if_neg h]

lemma numberEscaped_pair_append {n : Nat} (h : ¬ n < 0x10000) (s : Text) :
    numberEscaped n ++ s = char '\\' :: char 'u' ::
      (Text.padded 16 4 (0xD800 + (n - 0x10000) / 0x400) ++
        char '\\' :: char 'u' :: (Text.padded 16 4 (0xDC00 + (n - 0x10000) % 0x400) ++ s)) := by
  have happend (a b : Text) : (char '\\' :: char 'u' :: a ++ char '\\' :: char 'u' :: b) ++ s =
      char '\\' :: char 'u' :: (a ++ char '\\' :: char 'u' :: (b ++ s)) := by
    simp
  rw [numberEscaped_pair h, happend]

/-- A first half of a pair is told from the pair by what stands behind it. -/
lemma numberEscape_escaped (c : CodePoint) {s : Text} (hs : s ≠ [])
    (hapart : c.IsHigh → BeginsApart s) :
    ∃ digits, numberEscaped c.toNat ++ s = char '\\' :: char 'u' :: digits ∧
      numberEscape digits = .ok (c, s) := by
  by_cases hn : c.toNat < 0x10000
  · refine ⟨Text.padded 16 4 c.toNat ++ s, by rw [numberEscaped_single hn]; rfl, ?_⟩
    rw [numberEscape_single hn hs hapart, CodePoint.ofNat_toNat]
  · have hvalid := c.toNat_lt
    have hm : 0x10000 + (c.toNat - 0x10000) = c.toNat := by omega
    refine ⟨_, numberEscaped_pair_append hn s, ?_⟩
    rw [numberEscape_pair (by omega) hs, hm, CodePoint.ofNat_toNat]

section Characters

variable (opened fuel : Nat) (read : Text) {c : CodePoint} {s : Text}

lemma stringBody_cons (hquote : c ≠ '\x22') (hslash : c ≠ '\\') (hlow : ¬ c.toNat ≤ 0x1F) :
    stringBody opened (fuel + 1) read (c :: s) = stringBody opened fuel (c :: read) s := by
  simp only [stringBody, if_neg hquote, if_neg hslash, if_neg hlow]

lemma stringBody_numberEscape {digits : Text} (h : numberEscape digits = .ok (c, s)) :
    stringBody opened (fuel + 1) read (char '\\' :: char 'u' :: digits) =
      stringBody opened fuel (c :: read) s := by
  have hstep : stringBody opened (fuel + 1) read (char '\\' :: char 'u' :: digits) =
      (numberEscape digits).bind fun p => stringBody opened fuel (p.1 :: read) p.2 := rfl
  rw [hstep, h]
  rfl

lemma stringBody_numberEscaped (hs : s ≠ []) (hapart : c.IsHigh → BeginsApart s) :
    stringBody opened (fuel + 1) read (numberEscaped c.toNat ++ s) =
      stringBody opened fuel (c :: read) s := by
  obtain ⟨digits, hdigits, hread⟩ := numberEscape_escaped c hs hapart
  rw [hdigits, stringBody_numberEscape opened fuel read hread]

lemma stringBody_escaped {e : CodePoint} (he : e ≠ 'u') (h : escaped? e = some c) :
    stringBody opened (fuel + 1) read (char '\\' :: e :: s) =
      stringBody opened fuel (c :: read) s := by
  have hslash : char '\\' ≠ '\x22' := by decide
  simp only [stringBody, if_neg hslash, if_true, h]

end Characters

/-- The three ways in which a character of a string is printed. -/
inductive PrintedChar (c : CodePoint) : Text → Prop
  | escaped {e : CodePoint} (he : e ≠ 'u') (h : escaped? e = some c) : PrintedChar c ['\\', e]
  | itself (hquote : c ≠ '\x22') (hslash : c ≠ '\\') (h : 0x20 ≤ c.toNat ∧ c.toNat < 0x7F) :
      PrintedChar c [c]
  | numbered : PrintedChar c (numberEscaped c.toNat)

lemma printedChar_cases (c : CodePoint) : PrintedChar c (printedChar c) := by
  unfold printedChar
  split
  · exact .escaped (by decide) rfl
  · exact .escaped (by decide) rfl
  · exact .escaped (by decide) rfl
  · exact .escaped (by decide) rfl
  · exact .escaped (by decide) rfl
  · exact .escaped (by decide) rfl
  · exact .escaped (by decide) rfl
  · rename_i hquote hslash _ _ _ _ _
    split_ifs with hplain
    · exact .itself hquote hslash hplain
    · exact .numbered

lemma stringBody_printedChar (c : CodePoint) {s : Text} (hs : s ≠ [])
    (hapart : c.IsHigh → BeginsApart s) (opened fuel : Nat) (read : Text) :
    stringBody opened (fuel + 1) read (printedChar c ++ s) =
      stringBody opened fuel (c :: read) s := by
  have hcases := printedChar_cases c
  generalize printedChar c = printed at hcases ⊢
  cases hcases with
  | escaped he h => exact stringBody_escaped opened fuel read he h
  | itself hquote hslash h => exact stringBody_cons opened fuel read hquote hslash (by omega)
  | numbered => exact stringBody_numberEscaped opened fuel read hs hapart

lemma printedChar_ne_nil (c : CodePoint) : printedChar c ≠ [] := by
  have hcases := printedChar_cases c
  generalize printedChar c = printed at hcases ⊢
  cases hcases with
  | escaped | itself => exact List.cons_ne_nil _ _
  | numbered =>
    unfold numberEscaped
    split_ifs <;> exact List.cons_ne_nil _ _

lemma beginsApart_cons {c : CodePoint} (h : c ≠ '\\') (s : Text) : BeginsApart (c :: s) :=
  fun _ hs => absurd (List.cons.inj hs).1 h

lemma beginsApart_numberEscaped {c : CodePoint} (h : ¬c.IsLow) (s : Text) :
    BeginsApart (numberEscaped c.toNat ++ s) := by
  intro digits hdigits
  by_cases hn : c.toNat < 0x10000
  · rw [numberEscaped_single hn, List.cons_append, List.cons_append] at hdigits
    obtain rfl := (List.cons.inj (List.cons.inj hdigits).2).2
    exact ⟨c.toNat, fourDigits?_padded (by omega) s, h⟩
  · have hvalid := c.toNat_lt
    rw [numberEscaped_pair_append hn] at hdigits
    obtain rfl := (List.cons.inj (List.cons.inj hdigits).2).2
    exact ⟨_, fourDigits?_padded (by omega) _, by omega⟩

lemma beginsApart_printedChar {c : CodePoint} (h : ¬c.IsLow) (s : Text) :
    BeginsApart (printedChar c ++ s) := by
  have hcases := printedChar_cases c
  generalize printedChar c = printed at hcases ⊢
  cases hcases with
  | escaped he => exact fun _ hs => absurd (List.cons.inj (List.cons.inj hs).2).1 he
  | itself _ hslash => exact beginsApart_cons hslash s
  | numbered => exact beginsApart_numberEscaped h s

lemma beginsApart_printed {t : Text} (h : ∀ c ∈ t.head?, ¬c.IsLow) (rest : Text) :
    BeginsApart (t.flatMap printedChar ++ char '\x22' :: rest) := by
  cases t with
  | nil => exact beginsApart_cons (by decide) rest
  | cons c t =>
    rw [List.flatMap_cons, List.append_assoc]
    exact beginsApart_printedChar (h c rfl) _

lemma stringBody_printed {t : Text} (ht : t.IsJoined) (opened : Nat) {fuel : Nat}
    (h : t.length < fuel) (read rest : Text) :
    stringBody opened fuel read (t.flatMap printedChar ++ char '\x22' :: rest) =
      .ok (read.reverse ++ t, rest) := by
  induction t generalizing fuel read with
  | nil =>
    obtain ⟨fuel, rfl⟩ := Nat.exists_eq_succ_of_ne_zero (by omega : fuel ≠ 0)
    rw [List.append_nil]
    rfl
  | cons c t ih =>
    obtain ⟨fuel, rfl⟩ := Nat.exists_eq_succ_of_ne_zero (by omega : fuel ≠ 0)
    obtain ⟨hhead, htail⟩ := List.isChain_cons.1 ht
    rw [List.flatMap_cons, List.append_assoc, stringBody_printedChar c (by simp)
      (fun hhigh => beginsApart_printed (fun d hd hlow => hhead d hd ⟨hhigh, hlow⟩) rest),
      ih htail (by simpa using h), List.reverse_cons, List.append_assoc]
    rfl

lemma length_le_printed (t : Text) : t.length ≤ (t.flatMap printedChar).length := by
  induction t with
  | nil => exact Nat.le_refl 0
  | cons c t ih =>
    have hpos := List.length_pos_iff.2 (printedChar_ne_nil c)
    rw [List.flatMap_cons, List.length_append, List.length_cons]
    omega

lemma string_printed {t : Text} (ht : t.IsJoined) (rest : Text) :
    string (t.flatMap printedChar ++ char '\x22' :: rest) = .ok (t, rest) := by
  have hlength := length_le_printed t
  rw [string, stringBody_printed ht _ (by rw [List.length_append]; omega)]
  rfl

/-- What may follow a value: nothing, a comma, or a line break. -/
def Follows (rest : Text) : Prop :=
  ∀ c ∈ rest.head?, c = ',' ∨ c = '\n'

/-- An integer whose numeral is short enough to be read. -/
def IsShort (n : Int) : Prop :=
  (Text.ofNat n.natAbs).length ≤ maxDigits

lemma exists_digit_ofNat (n : Nat) : ∃ d < 10, ∃ ds, Text.ofNat n = char d.digitChar :: ds := by
  obtain ⟨c, ds, hds⟩ := List.exists_cons_of_ne_nil (Text.ofNat_ne_nil n)
  obtain ⟨d, hd, rfl⟩ := Text.exists_digit_of_mem_inBase (n := n) (by decide)
    (hds ▸ List.mem_cons_self)
  exact ⟨d, hd, ds, hds⟩

section Numbers

variable {rest : Text} (hrest : Follows rest)
include hrest

lemma digits_append {ds : Text} (hds : ∀ c ∈ ds, Text.isDigit c = true) :
    digits (ds ++ rest) = (ds, rest) := by
  have hend : rest.takeWhile Text.isDigit = [] ∧ rest.dropWhile Text.isDigit = rest := by
    cases rest with
    | nil => exact ⟨rfl, rfl⟩
    | cons c s => rcases hrest c rfl with rfl | rfl <;> exact ⟨rfl, rfl⟩
  rw [digits, List.span_eq_takeWhile_dropWhile, List.takeWhile_append_of_pos hds,
    List.dropWhile_append_of_pos hds, hend.1, hend.2, List.append_nil]

lemma fractionPart_eq : fractionPart rest = ([], rest) := by
  cases rest with
  | nil => rfl
  | cons c s => rcases hrest c rfl with rfl | rfl <;> rfl

lemma powerPart?_eq : powerPart? rest = none := by
  cases rest with
  | nil => rfl
  | cons c s => rcases hrest c rfl with rfl | rfl <;> rfl

lemma wholePart?_ofNat (n : Nat) :
    wholePart? (Text.ofNat n ++ rest) = some (Text.ofNat n, rest) := by
  by_cases hn : n = 0
  · rw [hn]
    rfl
  · obtain ⟨c, ds, hds, hc⟩ := Text.exists_head_ofNat hn
    have hdigits := digits_append hrest fun c hc => Text.isDigit_of_mem_ofNat (n := n) hc
    rw [hds, List.cons_append] at hdigits ⊢
    unfold wholePart?
    split
    · rename_i heq
      exact absurd (List.cons.inj heq).1 hc
    · rw [hdigits]

lemma number_ofNat {n : Nat} (h : (Text.ofNat n).length ≤ maxDigits) :
    number (Text.ofNat n ++ rest) = .ok (int n, rest) := by
  obtain ⟨d, hd, ds, hds⟩ := exists_digit_ofNat n
  have hminus : char d.digitChar ≠ '-' := by
    interval_cases d <;> decide
  have hwhole := wholePart?_ofNat hrest n
  unfold number
  split
  · rename_i negative unsigned heq
    split at heq
    · rename_i heq'
      rw [hds] at heq'
      exact absurd (List.cons.inj heq').1 hminus
    · obtain ⟨rfl, rfl⟩ := Prod.mk.inj heq
      simp only [hwhole, fractionPart_eq hrest, powerPart?_eq hrest, Text.decimal_ofNat,
        if_neg (Nat.not_lt.2 h), Bool.false_eq_true, if_false]

lemma number_minus {n : Nat} (h : (Text.ofNat n).length ≤ maxDigits) :
    number (char '-' :: Text.ofNat n ++ rest) = .ok (int (-n), rest) := by
  have hwhole := wholePart?_ofNat hrest n
  simp only [number, List.cons_append, hwhole, fractionPart_eq hrest, powerPart?_eq hrest,
    Text.decimal_ofNat, if_neg (Nat.not_lt.2 h), if_true]

lemma value_ofInt {n : Int} (h : IsShort n) (fuel : Nat) :
    value (fuel + 1) (Text.ofInt n ++ rest) = .ok (int n, rest) := by
  cases n with
  | ofNat n =>
    obtain ⟨d, hd, ds, hds⟩ := exists_digit_ofNat n
    have hnumber : value (fuel + 1) (Text.ofNat n ++ rest) = number (Text.ofNat n ++ rest) := by
      rw [hds]
      interval_cases d <;> rfl
    rw [Text.ofInt, hnumber]
    exact number_ofNat hrest h
  | negSucc n =>
    obtain ⟨d, hd, ds, hds⟩ := exists_digit_ofNat (n + 1)
    have hnumber : value (fuel + 1) (char '-' :: Text.ofNat (n + 1) ++ rest) =
        number (char '-' :: Text.ofNat (n + 1) ++ rest) := by
      rw [hds]
      interval_cases d <;> rfl
    rw [Text.ofInt, hnumber]
    exact number_minus hrest h

end Numbers

end Json

end Phrasebook
