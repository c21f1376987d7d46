import Phrasebook.Proofs.Rereading
import Phrasebook.Proofs.Sorting
import Phrasebook.Text.Ansi

/-!
# Printed lines

Printing takes out control sequences and nothing else, so a text without escape characters is
printed as it is (`printed_eq_self`), and so is the line of a JSON report, which is read back as
the report with the members of its objects in the order of their names (`isPrintedAs_inOrder`).
-/

namespace Phrasebook

namespace Text

lemma stripAnsi_cons {c : CodePoint} (h : c ≠ '\x1b') (s : Text) :
    stripAnsi (c :: s) = c :: stripAnsi s := by
  rw [stripAnsi, if_neg h]

lemma stripAnsi_escape_of_some {s rest : Text} (h : behindSequence? s = some rest) :
    stripAnsi (char '\x1b' :: s) = stripAnsi rest := by
  rw [stripAnsi, if_pos rfl]
  split <;> simp_all

lemma stripAnsi_escape_of_none {s : Text} (h : behindSequence? s = none) :
    stripAnsi (char '\x1b' :: s) = char '\x1b' :: stripAnsi s := by
  rw [stripAnsi, if_pos rfl]
  split <;> simp_all

lemma stripAnsi_eq_self {s : Text} (h : char '\x1b' ∉ s) : stripAnsi s = s := by
  induction s with
  | nil => rw [stripAnsi]
  | cons c s ih =>
    rw [List.mem_cons, not_or] at h
    rw [stripAnsi_cons (Ne.symm h.1), ih h.2]

/-- Whether a character has no place in a control sequence, not even at its ends. -/
def isForeign (c : CodePoint) : Bool :=
  c ≠ '\x1b' && c ≠ '[' && !isParameter c && !isAsciiLetter c

section Foreign

variable {c : CodePoint} (h : isForeign c = true) (t : Text)
include h

lemma behindSequence?_append (s : Text) :
    behindSequence? (s ++ c :: t) = (behindSequence? s).map (· ++ c :: t) := by
  simp only [isForeign, Bool.and_eq_true, decide_eq_true_eq, Bool.not_eq_true'] at h
  obtain ⟨⟨⟨-, hopen⟩, hparameter⟩, hletter⟩ := h
  cases s with
  | nil => simp [behindSequence?, hopen]
  | cons d s =>
    by_cases hd : d = '['
    · rw [hd, List.cons_append]
      simp only [behindSequence?, List.dropWhile_append]
      cases hdrop : s.dropWhile isParameter with
      | nil => simp [hparameter, hletter]
      | cons e rest => by_cases he : isAsciiLetter e = true <;> simp [he]
    · simp [behindSequence?, hd]

/-- Control sequences do not reach beyond a character that has no place in them. -/
lemma stripAnsi_append (s : Text) : stripAnsi (s ++ c :: t) = stripAnsi s ++ c :: stripAnsi t := by
  have hc : c ≠ '\x1b' := by
    rintro rfl
    exact absurd h (by decide)
  induction s using stripAnsi.induct with
  | case1 => rw [List.nil_append, stripAnsi_cons hc, stripAnsi, List.nil_append]
  | case2 s rest hrest ih =>
    have hsome : behindSequence? (s ++ c :: t) = some (rest ++ c :: t) := by
      rw [behindSequence?_append h, hrest, Option.map_some]
    rw [List.cons_append, stripAnsi_escape_of_some hsome, stripAnsi_escape_of_some hrest, ih]
  | case3 s hrest ih =>
    have hnone : behindSequence? (s ++ c :: t) = none := by
      rw [behindSequence?_append h, hrest, Option.map_none]
    rw [List.cons_append, stripAnsi_escape_of_none hnone, stripAnsi_escape_of_none hrest, ih,
      List.cons_append]
  | case4 d s hd ih => rw [List.cons_append, stripAnsi_cons hd, stripAnsi_cons hd, ih,
      List.cons_append]

end Foreign

lemma sublist_of_behindSequence? {s rest : Text} (h : behindSequence? s = some rest) :
    rest.Sublist s := by
  unfold behindSequence? at h
  split at h
  · rename_i s
    split at h
    · rename_i c more hdrop
      split at h
      · obtain rfl := Option.some.inj h
        have hmore : more.Sublist (s.dropWhile isParameter) := hdrop ▸ List.sublist_cons_self c more
        exact (hmore.trans (List.dropWhile_sublist _)).cons _
      · exact nomatch h
    · exact nomatch h
  · exact nomatch h

lemma stripAnsi_sublist (s : Text) : (stripAnsi s).Sublist s := by
  induction s using stripAnsi.induct with
  | case1 => rw [stripAnsi]
  | case2 s rest hrest ih =>
    rw [stripAnsi_escape_of_some hrest]
    exact (ih.trans (sublist_of_behindSequence? hrest)).cons _
  | case3 s hrest ih =>
    rw [stripAnsi_escape_of_none hrest]
    exact ih.cons_cons _
  | case4 c s hc ih =>
    rw [stripAnsi_cons hc]
    exact ih.cons_cons _

end Text

namespace Json

/-- The value of the member of an object that has a name. -/
def member? (name : Text) : Json → Option Json
  | object members => members.lookup name
  | _ => none

section Sorting

variable {α : Type}

lemma byName_iff {a b : Text × α} : byName a b = true ↔ a.1 ≤ b.1 := by
  rw [byName, Bool.not_eq_true', ← Bool.not_eq_true, List.lex_eq_true_iff_lex, ← not_lt]
  simp

lemma pairwise_mergeSort_byName (members : List (Text × α)) :
    (members.mergeSort byName).Pairwise fun a b => byName a b = true := by
  apply List.pairwise_mergeSort
  · intro a b c hab hbc
    rw [byName_iff] at hab hbc ⊢
    exact hab.trans hbc
  · intro a b
    rw [Bool.or_eq_true, byName_iff, byName_iff]
    exact le_total a.1 b.1

lemma mergeSort_mergeSort_byName (members : List (Text × α)) :
    (members.mergeSort byName).mergeSort byName = members.mergeSort byName :=
  List.mergeSort_of_pairwise (pairwise_mergeSort_byName members)

lemma lookup_eq_some {members : List (Text × α)} (h : (members.map Prod.fst).Nodup) {name : Text}
    {a : α} (hmem : (name, a) ∈ members) : members.lookup name = some a := by
  obtain ⟨before, after, rfl⟩ := List.append_of_mem hmem
  refine List.lookup_eq_some_iff.2 ⟨before, after, rfl, fun m hm => ?_⟩
  rw [List.map_append, List.nodup_append] at h
  have hne := h.2.2 m.1 (List.mem_map_of_mem hm) name (by simp)
  simpa using Ne.symm hne

end Sorting

/-- The member of a name is the same in any order, if no other member has the name. -/
lemma member?_inOrder {members : List (Text × Json)} (h : (members.map Prod.fst).Nodup)
    {name : Text} {j : Json} (hmem : (name, j) ∈ members) :
    (object members).inOrder.member? name = some j.inOrder := by
  have hnodup :
      (((members.mergeSort byName).map fun m => (m.1, m.2.inOrder)).map Prod.fst).Nodup := by
    rw [List.map_map]
    exact ((List.mergeSort_perm members byName).map Prod.fst).nodup_iff.2 h
  rw [inOrder_object]
  exact lookup_eq_some hnodup (List.mem_map.2 ⟨(name, j), List.mem_mergeSort.2 hmem, rfl⟩)

section Order

variable {fits : Int → Prop} {sound : Text → Prop} {j : Json} (h : j.Integral fits sound)
include h

lemma integral_inOrder : j.inOrder.Integral fits sound := by
  induction h with
  | null => exact .null
  | bool b => exact .bool b
  | int hn => exact .int hn
  | text ht => exact .text ht
  | @array items h ih =>
    rw [inOrder_array]
    refine .array fun i hi => ?_
    obtain ⟨j, hj, rfl⟩ := List.mem_map.1 hi
    exact ih j hj
  | @object members hnames h ih =>
    rw [inOrder_object]
    refine .object (fun m hm => ?_) fun m hm => ?_
    · obtain ⟨n, hn, rfl⟩ := List.mem_map.1 hm
      exact hnames n (List.mem_mergeSort.1 hn)
    · obtain ⟨n, hn, rfl⟩ := List.mem_map.1 hm
      exact ih n (List.mem_mergeSort.1 hn)

lemma inOrder_inOrder : j.inOrder.inOrder = j.inOrder := by
  induction h with
  | null | bool | int | text => rfl
  | @array items h ih =>
    rw [inOrder_array, inOrder_array, List.map_map]
    exact congrArg array (List.map_congr_left ih)
  | @object members hnames h ih =>
    rw [inOrder_object, inOrder_object, mergeSort_map_byName, mergeSort_mergeSort_byName,
      List.map_map]
    refine congrArg object (List.map_congr_left fun m hm => ?_)
    exact congrArg (Prod.mk m.1) (ih m (List.mem_mergeSort.1 hm))

lemma printAt_inOrder (level : Nat) : printAt level j.inOrder = printAt level j := by
  induction h generalizing level with
  | null | bool | int | text => rfl
  | @array items h ih =>
    rw [inOrder_array, printAt_array, printAt_array, List.map_map]
    exact congrArg _ (List.map_congr_left fun j hj => ih j hj (level + 1))
  | @object members hnames h ih =>
    rw [inOrder_object, printAt_object, printAt_object, mergeSort_map_byName,
      mergeSort_mergeSort_byName, List.map_map]
    refine congrArg _ (List.map_congr_left fun m hm => ?_)
    exact congrArg (_ ++ ·) (ih m (List.mem_mergeSort.1 hm) (level + 1))

end Order

end Json

namespace Command

/-- A text on a line of its own, without control sequences for a terminal. -/
def printedLine (t : Text) : Text :=
  Text.stripAnsi (t ++ [char '\n'])

lemma printedLine_eq_stripAnsi (t : Text) : printedLine t = Text.stripAnsi t ++ [char '\n'] := by
  rw [printedLine, Text.stripAnsi_append rfl, Text.stripAnsi]

lemma printedLine_eq {t : Text} (h : char '\x1b' ∉ t) : printedLine t = t ++ [char '\n'] := by
  rw [printedLine_eq_stripAnsi, Text.stripAnsi_eq_self h]

/-- A document on a line of its own, from which it is read back if its numbers can be read. -/
structure IsPrintedAs (stdout : Text) (document : Json) : Prop where
  text : stdout = document.print ++ [char '\n']
  read : document.Legible → Json.read stdout = .ok document

section Document

variable {fits : Int → Prop} {sound : Text → Prop} {j : Json} (h : j.Integral fits sound)
include h

lemma printedLine_print : printedLine j.print = j.print ++ [char '\n'] := by
  refine printedLine_eq fun hmem => ?_
  exact absurd (Json.isSevenBit_of_mem_printAt h 0 _ hmem) (by decide)

/-- The document that is read from a printed line has its members in the order of their names. -/
theorem isPrintedAs_inOrder : IsPrintedAs (j.print ++ [char '\n']) j.inOrder := by
  have htext : j.print ++ [char '\n'] = j.inOrder.print ++ [char '\n'] := by
    rw [Json.print, Json.print, Json.printAt_inOrder h]
  refine ⟨htext, fun hlegible => ?_⟩
  rw [htext, Json.read_print hlegible, Json.inOrder_inOrder h]

end Document

end Command

end Phrasebook
