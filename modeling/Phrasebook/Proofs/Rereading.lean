import Phrasebook.Proofs.Literals
import Phrasebook.Proofs.Spacing

/-!
# Reading printed JSON back

A value without floating numbers is printed in characters of seven bits, and reading what is printed
gives the value back, the members of its objects in the order of their names (`read_print`). The
parts of an array or an object are read one after the other, as they are listed.
-/

namespace Phrasebook.Json

/-- The only numbers in a value are integers, and they and the texts satisfy conditions. -/
inductive Integral (fits : Int → Prop) (sound : Text → Prop) : Json → Prop
  | null : Integral fits sound null
  | bool (b : Bool) : Integral fits sound (bool b)
  | int {n : Int} (h : fits n) : Integral fits sound (int n)
  | text {t : Text} (h : sound t) : Integral fits sound (text t)
  | array {items : List Json} (h : ∀ j ∈ items, Integral fits sound j) :
      Integral fits sound (array items)
  | object {members : List (Text × Json)} (hnames : ∀ m ∈ members, sound m.1)
      (h : ∀ m ∈ members, Integral fits sound m.2) : Integral fits sound (object members)

/-- A value is legible if its numbers are integers with numerals short enough to be read, and no
halves in its texts can be taken for a pair. -/
def Legible (j : Json) : Prop :=
  j.Integral IsShort Text.IsJoined

mutual

/-- A value with the members of its objects in the order of their names. -/
def inOrder : Json → Json
  | array items => .array (itemsInOrder items)
  | object members => .object ((membersInOrder members).mergeSort byName)
  | j => j

def itemsInOrder : List Json → List Json
  | [] => []
  | j :: rest => j.inOrder :: itemsInOrder rest

def membersInOrder : List (Text × Json) → List (Text × Json)
  | [] => []
  | (name, j) :: rest => (name, j.inOrder) :: membersInOrder rest

end

lemma itemsInOrder_eq (items : List Json) : itemsInOrder items = items.map inOrder := by
  induction items with
  | nil => rfl
  | cons j items ih => rw [itemsInOrder, ih, List.map_cons]

lemma membersInOrder_eq (members : List (Text × Json)) :
    membersInOrder members = members.map fun m => (m.1, m.2.inOrder) := by
  induction members with
  | nil => rfl
  | cons m members ih => rw [membersInOrder, ih, List.map_cons]

lemma mergeSort_map_byName {α β : Type} (f : Text × α → β) (members : List (Text × α)) :
    (members.map fun m => (m.1, f m)).mergeSort byName =
      (members.mergeSort byName).map fun m => (m.1, f m) := by
  symm
  exact List.map_mergeSort (r := byName) (f := fun m => (m.1, f m)) fun _ _ _ _ => rfl

lemma inOrder_array (items : List Json) : (array items).inOrder = array (items.map inOrder) := by
  rw [inOrder, itemsInOrder_eq]

lemma inOrder_object (members : List (Text × Json)) :
    (object members).inOrder =
      object ((members.mergeSort byName).map fun m => (m.1, m.2.inOrder)) := by
  rw [inOrder, membersInOrder_eq, mergeSort_map_byName]

lemma printItems_eq (level : Nat) (items : List Json) :
    printItems level items = items.map (printAt level) := by
  induction items with
  | nil => rfl
  | cons j items ih => rw [printItems, ih, List.map_cons]

/-- A member of an object as it is printed at a level. -/
def printedMember (level : Nat) (m : Text × Json) : Text :=
  printedText m.1 ++ ": ".toText ++ printAt level m.2

lemma printMembers_eq (level : Nat) (members : List (Text × Json)) :
    printMembers level members = members.map fun m => (m.1, printedMember level m) := by
  induction members with
  | nil => rfl
  | cons m members ih => rw [printMembers, ih, List.map_cons]; rfl

lemma printAt_array (level : Nat) (items : List Json) :
    printAt level (array items) = bracketed '[' ']' level (items.map (printAt (level + 1))) := by
  rw [printAt, printItems_eq]

lemma printAt_object (level : Nat) (members : List (Text × Json)) :
    printAt level (object members) = bracketed '\x7b' '\x7d' level
      ((members.mergeSort byName).map (printedMember (level + 1))) := by
  rw [printAt, printMembers_eq, mergeSort_map_byName, List.map_map]
  rfl

/-- Parts of a level, one to a line, with commas between them. -/
def listed (level : Nat) (parts : List Text) : Text :=
  (char ',' :: newLine level).intercalate parts

lemma bracketed_cons_append (opener closer : CodePoint) (level : Nat) (part : Text)
    (parts : List Text)
    (rest : Text) :
    bracketed opener closer level (part :: parts) ++ rest =
      opener :: (newLine (level + 1) ++ (listed (level + 1) (part :: parts) ++
        (newLine level ++ closer :: rest))) := by
  simp [bracketed, listed]

lemma skipSpaces_newLine (level : Nat) (s : Text) :
    skipSpaces (newLine level ++ s) = skipSpaces s := by
  have hspaces : ∀ c ∈ newLine level, isSpace c = true := by
    intro c hc
    rcases List.mem_cons.1 hc with rfl | hc
    · rfl
    · rw [List.eq_of_mem_replicate hc]
      rfl
  exact List.dropWhile_append_of_pos hspaces

lemma skipSpaces_cons {c : CodePoint} (h : isSpace c = false) (s : Text) :
    skipSpaces (c :: s) = c :: s := by
  simp [skipSpaces, h]

lemma exists_head {fits : Int → Prop} {sound : Text → Prop} {j : Json} (h : j.Integral fits sound)
    (level : Nat) :
    ∃ c s, printAt level j = c :: s ∧ isSpace c = false ∧ c ≠ ']' := by
  cases h with
  | null => exact ⟨_, _, rfl, rfl, by decide⟩
  | bool b => cases b <;> exact ⟨_, _, rfl, rfl, by decide⟩
  | text t => exact ⟨_, _, rfl, rfl, by decide⟩
  | @int n =>
    cases n with
    | ofNat n =>
      obtain ⟨d, hd, ds, hds⟩ := exists_digit_ofNat n
      refine ⟨d.digitChar, ds, hds, ?_⟩
      interval_cases d <;> exact ⟨rfl, by decide⟩
    | negSucc n => exact ⟨_, _, rfl, rfl, by decide⟩
  | @array items =>
    rw [printAt_array]
    cases items <;> exact ⟨_, _, rfl, rfl, by decide⟩
  | @object members =>
    rw [printAt_object]
    cases members.mergeSort byName <;> exact ⟨_, _, rfl, rfl, by decide⟩

section Steps

variable {fuel : Nat} {s rest after : Text} {j : Json}

lemma items_last (hvalue : value fuel s = .ok (j, rest))
    (hend : skipSpaces rest = char ']' :: after)
    (read : List Json) : items (fuel + 1) read s = .ok (array (j :: read).reverse, after) := by
  simp only [items, hvalue, Bind.bind, Except.bind, hend]

lemma items_more (hvalue : value fuel s = .ok (j, rest))
    (hcomma : skipSpaces rest = char ',' :: after)
    (read : List Json) : items (fuel + 1) read s = items fuel (j :: read) (skipSpaces after) := by
  simp only [items, hvalue, Bind.bind, Except.bind, hcomma]

lemma value_array (hs : skipSpaces s = rest) (hrest : rest.head? ≠ some ']') :
    value (fuel + 1) (char '[' :: s) = items fuel [] rest := by
  simp only [value, hs]
  split
  · exact absurd rfl hrest
  · rfl

section Members

variable {t named : Text} (hname : string s = .ok (t, char ':' :: char ' ' :: named))
  (hspace : skipSpaces named = named) (hvalue : value fuel named = .ok (j, rest))
include hname hspace hvalue

lemma members_last (hend : skipSpaces rest = char '\x7d' :: after) (read : List (Text × Json)) :
    members (fuel + 1) read (char '\x22' :: s) = .ok (object ((t, j) :: read).reverse, after) := by
  have hcolon : skipSpaces (char ':' :: char ' ' :: named) = char ':' :: char ' ' :: named := rfl
  have hnamed : skipSpaces (char ' ' :: named) = named := hspace
  simp only [members, hname, hcolon, hnamed, hvalue, Bind.bind, Except.bind, hend]

lemma members_more (hcomma : skipSpaces rest = char ',' :: after) (read : List (Text × Json)) :
    members (fuel + 1) read (char '\x22' :: s) =
      members fuel ((t, j) :: read) (skipSpaces after) := by
  have hcolon : skipSpaces (char ':' :: char ' ' :: named) = char ':' :: char ' ' :: named := rfl
  have hnamed : skipSpaces (char ' ' :: named) = named := hspace
  simp only [members, hname, hcolon, hnamed, hvalue, Bind.bind, Except.bind, hcomma]

end Members

lemma value_object (hs : skipSpaces s = rest) (hrest : rest.head? ≠ some '\x7d') :
    value (fuel + 1) (char '\x7b' :: s) = members fuel [] rest := by
  simp only [value, hs]
  split
  · exact absurd rfl hrest
  · rfl

end Steps

lemma listed_singleton (level : Nat) (part : Text) : listed level [part] = part := by
  simp [listed]

lemma listed_cons_cons_append (level : Nat) (part next : Text) (parts : List Text) (s : Text) :
    listed level (part :: next :: parts) ++ s =
      part ++ char ',' :: (newLine level ++ (listed level (next :: parts) ++ s)) := by
  simp [listed, List.intercalate_cons_cons]

lemma exists_listed_cons (level : Nat) (part : Text) (parts : List Text) :
    ∃ more, listed level (part :: parts) = part ++ more := by
  cases parts with
  | nil => exact ⟨[], by rw [listed_singleton, List.append_nil]⟩
  | cons next parts =>
    have h := listed_cons_cons_append level part next parts []
    rw [List.append_nil] at h
    exact ⟨_, h⟩

lemma follows_newLine (level : Nat) (s : Text) : Follows (newLine level ++ s) := by
  intro c hc
  obtain rfl := Option.some.inj hc
  exact .inr rfl

lemma follows_comma (s : Text) : Follows (char ',' :: s) := by
  intro c hc
  obtain rfl := Option.some.inj hc
  exact .inl rfl

section Parts

variable {α : Type} (step : Nat → List α → Text → Except Fault (Json × Text))
  (finish : List α → Json) (closer : CodePoint) (print : α → Text) (give : α → α)

/-- A step reads a printed part, and then either ends the list or goes on behind the comma. -/
structure ReadsPart (a : α) : Prop where
  starts : ∀ s, skipSpaces (print a ++ s) = print a ++ s
  head : ∀ s, (print a ++ s).head? ≠ some closer
  last : ∀ {fuel : Nat} {rest after : Text} (read : List α), Follows rest →
    2 * (print a ++ rest).length < fuel → skipSpaces rest = closer :: after →
      step (fuel + 1) read (print a ++ rest) = .ok (finish (give a :: read), after)
  more : ∀ {fuel : Nat} {rest after : Text} (read : List α), Follows rest →
    2 * (print a ++ rest).length < fuel → skipSpaces rest = char ',' :: after →
      step (fuel + 1) read (print a ++ rest) = step fuel (give a :: read) (skipSpaces after)

variable {step finish closer print give}

lemma listed_read {as : List α} (hne : as ≠ [])
    (hparts : ∀ a ∈ as, ReadsPart step finish closer print give a)
    (hcloser : isSpace closer = false) {level outer fuel : Nat} (read : List α) {rest : Text}
    (hfuel : 2 * (listed level (as.map print) ++ (newLine outer ++ closer :: rest)).length + 1 <
      fuel) :
    step fuel read (listed level (as.map print) ++ (newLine outer ++ closer :: rest)) =
      .ok (finish ((as.map give).reverse ++ read), rest) := by
  induction as generalizing fuel read with
  | nil => exact absurd rfl hne
  | cons a as ih =>
    obtain ⟨fuel, rfl⟩ := Nat.exists_eq_succ_of_ne_zero (by omega : fuel ≠ 0)
    have ha := hparts a List.mem_cons_self
    cases as with
    | nil =>
      rw [List.map_singleton, listed_singleton] at hfuel ⊢
      apply ha.last read (follows_newLine outer _) (by omega)
      rw [skipSpaces_newLine, skipSpaces_cons hcloser]
    | cons b as =>
      have hb := hparts b (by simp)
      rw [List.map_cons, List.map_cons, listed_cons_cons_append] at hfuel ⊢
      have hstarts : skipSpaces (newLine level ++ (listed level (print b :: as.map print) ++
          (newLine outer ++ closer :: rest))) =
          listed level (print b :: as.map print) ++ (newLine outer ++ closer :: rest) := by
        obtain ⟨more, hmore⟩ := exists_listed_cons level (print b) (as.map print)
        rw [skipSpaces_newLine, hmore, List.append_assoc, hb.starts]
      have hlength : 2 * (listed level ((b :: as).map print) ++
          (newLine outer ++ closer :: rest)).length + 1 < fuel := by
        simp only [List.length_append, List.length_cons, List.map_cons] at hfuel ⊢
        omega
      have hrest := fun c hc => hparts c (List.mem_cons_of_mem a hc)
      rw [ha.more read (follows_comma _) (by omega) (skipSpaces_cons rfl _), hstarts,
        ← List.map_cons, ih (List.cons_ne_nil b as) hrest _ hlength]
      simp

lemma bracketed_read {opener : CodePoint} {as : List α}
    (hparts : ∀ a ∈ as, ReadsPart step finish closer print give a)
    (hcloser : isSpace closer = false)
    (hempty : ∀ fuel rest, value (fuel + 1) (opener :: closer :: rest) = .ok (finish [], rest))
    (hopen : ∀ {fuel : Nat} {s t : Text}, skipSpaces s = t → t.head? ≠ some closer →
      value (fuel + 1) (opener :: s) = step fuel [] t) {level fuel : Nat} {rest : Text}
    (hfuel : 2 * (bracketed opener closer level (as.map print) ++ rest).length < fuel + 1) :
    value (fuel + 1) (bracketed opener closer level (as.map print) ++ rest) =
      .ok (finish (as.map give).reverse, rest) := by
  cases as with
  | nil => exact hempty fuel rest
  | cons a as =>
    have ha := hparts a List.mem_cons_self
    obtain ⟨more, hmore⟩ := exists_listed_cons (level + 1) (print a) (as.map print)
    rw [List.map_cons, bracketed_cons_append] at hfuel ⊢
    have hstarts : skipSpaces (newLine (level + 1) ++
        (listed (level + 1) (print a :: as.map print) ++ (newLine level ++ closer :: rest))) =
        listed (level + 1) (print a :: as.map print) ++ (newLine level ++ closer :: rest) := by
      rw [skipSpaces_newLine, hmore, List.append_assoc, ha.starts]
    have hhead : (listed (level + 1) (print a :: as.map print) ++
        (newLine level ++ closer :: rest)).head? ≠ some closer := by
      rw [hmore, List.append_assoc]
      exact ha.head _
    rw [hopen hstarts hhead, ← List.map_cons, listed_read (List.cons_ne_nil a as) hparts hcloser]
    · rw [List.append_nil]
    · rw [List.length_cons, List.length_append] at hfuel
      rw [List.map_cons]
      omega

end Parts

/-- A value is read back from what is printed at a level, whatever follows. -/
def ReadsBack (level : Nat) (j : Json) : Prop :=
  ∀ fuel rest, Follows rest → 2 * (printAt level j ++ rest).length < fuel →
    value fuel (printAt level j ++ rest) = .ok (j.inOrder, rest)

lemma skipSpaces_printAt {fits : Int → Prop} {sound : Text → Prop} {j : Json}
    (h : j.Integral fits sound) (level : Nat)
    (s : Text) : skipSpaces (printAt level j ++ s) = printAt level j ++ s := by
  obtain ⟨c, more, hprint, hc, -⟩ := exists_head h level
  rw [hprint]
  exact skipSpaces_cons hc _

lemma readsPart_item {level : Nat} {j : Json} (h : j.Legible) (hread : ReadsBack level j) :
    ReadsPart items (fun read => array read.reverse) ']' (printAt level) inOrder j where
  starts := skipSpaces_printAt h level
  head s := by
    obtain ⟨c, more, hprint, -, hclose⟩ := exists_head h level
    rw [hprint]
    simpa using hclose
  last read hrest hfuel hend := items_last (hread _ _ hrest hfuel) hend read
  more read hrest hfuel hcomma := items_more (hread _ _ hrest hfuel) hcomma read

lemma readsPart_member {level : Nat} {m : Text × Json} (hjoined : m.1.IsJoined)
    (h : m.2.Legible) (hread : ReadsBack level m.2) :
    ReadsPart members (fun read => object read.reverse) '\x7d' (printedMember level)
      (fun m => (m.1, m.2.inOrder)) m := by
  have htext (rest : Text) :
      printedMember level m ++ rest = char '\x22' :: (m.1.flatMap printedChar ++
      char '\x22' :: char ':' :: char ' ' :: (printAt level m.2 ++ rest)) := by
    simp [printedMember, printedText, String.toText]
  have hname (rest : Text) : string (m.1.flatMap printedChar ++
      char '\x22' :: char ':' :: char ' ' :: (printAt level m.2 ++ rest)) =
      .ok (m.1, char ':' :: char ' ' :: (printAt level m.2 ++ rest)) :=
    string_printed hjoined _
  have hvalue {fuel : Nat} {rest : Text} (hrest : Follows rest)
      (hfuel : 2 * (printedMember level m ++ rest).length < fuel) :
      value fuel (printAt level m.2 ++ rest) = .ok (m.2.inOrder, rest) := by
    apply hread fuel rest hrest
    rw [htext] at hfuel
    simp only [List.length_append, List.length_cons] at hfuel ⊢
    omega
  constructor
  · intro s
    rw [htext]
    exact skipSpaces_cons rfl _
  · intro s
    rw [htext]
    simp
  · intro fuel rest after read hrest hfuel hend
    have hmember := hvalue hrest hfuel
    rw [htext]
    exact members_last (hname rest) (skipSpaces_printAt h level rest) hmember hend read
  · intro fuel rest after read hrest hfuel hcomma
    have hmember := hvalue hrest hfuel
    rw [htext]
    exact members_more (hname rest) (skipSpaces_printAt h level rest) hmember hcomma read

/-- What is printed of a legible value reads back as the value. -/
theorem readsBack {j : Json} (h : j.Legible) (level : Nat) : ReadsBack level j := by
  induction h generalizing level with
  | null =>
    intro fuel rest _ hfuel
    obtain ⟨fuel, rfl⟩ := Nat.exists_eq_succ_of_ne_zero (by omega : fuel ≠ 0)
    rfl
  | bool b =>
    intro fuel rest _ hfuel
    obtain ⟨fuel, rfl⟩ := Nat.exists_eq_succ_of_ne_zero (by omega : fuel ≠ 0)
    cases b <;> rfl
  | int hn =>
    intro fuel rest hrest hfuel
    obtain ⟨fuel, rfl⟩ := Nat.exists_eq_succ_of_ne_zero (by omega : fuel ≠ 0)
    exact value_ofInt hrest hn fuel
  | @text t ht =>
    intro fuel rest _ hfuel
    obtain ⟨fuel, rfl⟩ := Nat.exists_eq_succ_of_ne_zero (by omega : fuel ≠ 0)
    have htext : printAt level (text t) ++ rest =
        char '\x22' :: (t.flatMap printedChar ++ char '\x22' :: rest) := by
      simp [printAt, printedText]
    have hstep : value (fuel + 1) (char '\x22' :: (t.flatMap printedChar ++ char '\x22' :: rest)) =
        (string (t.flatMap printedChar ++ char '\x22' :: rest)).bind fun p =>
          .ok (text p.1, p.2) := rfl
    rw [htext, hstep, string_printed ht]
    rfl
  | @array items h ih =>
    intro fuel rest _ hfuel
    obtain ⟨fuel, rfl⟩ := Nat.exists_eq_succ_of_ne_zero (by omega : fuel ≠ 0)
    have hparts := fun i hi => readsPart_item (h i hi) (ih i hi (level + 1))
    rw [printAt_array] at hfuel ⊢
    rw [bracketed_read hparts rfl (fun _ _ => rfl) value_array hfuel, List.reverse_reverse,
      inOrder_array]
  | @object members hnames h ih =>
    intro fuel rest _ hfuel
    obtain ⟨fuel, rfl⟩ := Nat.exists_eq_succ_of_ne_zero (by omega : fuel ≠ 0)
    have hparts : ∀ m ∈ members.mergeSort byName, ReadsPart Json.members
        (fun read => object read.reverse) '\x7d' (printedMember (level + 1))
        (fun m => (m.1, m.2.inOrder)) m := by
      intro m hm
      have hm := List.mem_mergeSort.1 hm
      exact readsPart_member (hnames m hm) (h m hm) (ih m hm (level + 1))
    rw [printAt_object] at hfuel ⊢
    rw [bracketed_read hparts rfl (fun _ _ => rfl) value_object hfuel, List.reverse_reverse,
      inOrder_object]

/-- A character of seven bits that is printable, or a line feed. -/
def isSevenBit (c : CodePoint) : Bool :=
  c = '\n' || (0x20 ≤ c.toNat && c.toNat < 0x7F)

lemma isSevenBit_of_mem_inBase {base n : Nat} (hbase : 1 < base) (hle : base ≤ 16) {c : CodePoint}
    (hc : c ∈ Text.inBase base n) : isSevenBit c = true := by
  obtain ⟨d, hd, rfl⟩ := Text.exists_digit_of_mem_inBase hbase hc
  have hlt : d < 16 := by omega
  interval_cases d <;> decide

lemma isSevenBit_of_mem_padded {width n : Nat} {c : CodePoint} (hc : c ∈ Text.padded 16 width n) :
    isSevenBit c = true := by
  rcases List.mem_append.1 hc with hc | hc
  · rw [List.eq_of_mem_replicate hc]
    rfl
  · exact isSevenBit_of_mem_inBase (by decide) (Nat.le_refl 16) hc

lemma isSevenBit_of_mem_escape {n : Nat} {c : CodePoint}
    (hc : c ∈ char '\\' :: char 'u' :: Text.padded 16 4 n) :
    isSevenBit c = true := by
  rcases List.mem_cons.1 hc with rfl | hc
  · rfl
  · rcases List.mem_cons.1 hc with rfl | hc
    · rfl
    · exact isSevenBit_of_mem_padded hc

lemma isSevenBit_of_mem_numberEscaped {n : Nat} {c : CodePoint} (hc : c ∈ numberEscaped n) :
    isSevenBit c = true := by
  by_cases hn : n < 0x10000
  · rw [numberEscaped_single hn] at hc
    exact isSevenBit_of_mem_escape hc
  · rw [numberEscaped_pair hn] at hc
    exact (List.mem_append.1 hc).elim isSevenBit_of_mem_escape isSevenBit_of_mem_escape

lemma isSevenBit_of_escaped? {e c : CodePoint} (h : escaped? e = some c) : isSevenBit e = true := by
  unfold escaped? at h
  split at h
  all_goals first | rfl | exact nomatch h

lemma isSevenBit_of_mem_printedText {t : Text} {c : CodePoint} (hc : c ∈ printedText t) :
    isSevenBit c = true := by
  simp only [printedText, List.cons_append, List.mem_cons, List.mem_append, List.mem_flatMap,
    List.not_mem_nil, or_false] at hc
  rcases hc with rfl | ⟨d, -, hc⟩ | rfl
  · rfl
  · have hcases := printedChar_cases d
    generalize printedChar d = printed at hcases hc
    cases hcases with
    | @escaped e he h =>
      rcases List.mem_cons.1 hc with rfl | hc
      · rfl
      · rw [List.mem_singleton.1 hc]
        exact isSevenBit_of_escaped? h
    | itself _ _ h =>
      rw [List.mem_singleton.1 hc]
      simp [isSevenBit, h]
    | numbered => exact isSevenBit_of_mem_numberEscaped hc
  · rfl

lemma isSevenBit_of_mem_newLine {level : Nat} {c : CodePoint} (hc : c ∈ newLine level) :
    isSevenBit c = true := by
  rcases List.mem_cons.1 hc with rfl | hc
  · rfl
  · rw [List.eq_of_mem_replicate hc]
    rfl

lemma isSevenBit_of_mem_bracketed {opener closer : CodePoint} (hopener : isSevenBit opener = true)
    (hcloser : isSevenBit closer = true) {level : Nat} {parts : List Text}
    (hparts : ∀ part ∈ parts, ∀ c ∈ part, isSevenBit c = true) {c : CodePoint}
    (hc : c ∈ bracketed opener closer level parts) : isSevenBit c = true := by
  cases parts with
  | nil =>
    simp only [bracketed, List.mem_cons, List.not_mem_nil, or_false] at hc
    rcases hc with rfl | rfl
    · exact hopener
    · exact hcloser
  | cons part parts =>
    simp only [bracketed, List.cons_append, List.mem_cons, List.mem_append, List.not_mem_nil,
      or_false] at hc
    rcases hc with rfl | ((hc | hc) | hc) | rfl
    · exact hopener
    · exact isSevenBit_of_mem_newLine hc
    · rcases Text.mem_intercalate hc with hc | ⟨other, hother, hc⟩
      · rcases List.mem_cons.1 hc with rfl | hc
        · rfl
        · exact isSevenBit_of_mem_newLine hc
      · exact hparts other hother c hc
    · exact isSevenBit_of_mem_newLine hc
    · exact hcloser

/-- A value without floating numbers is printed in characters of seven bits. -/
theorem isSevenBit_of_mem_printAt {fits : Int → Prop} {sound : Text → Prop} {j : Json}
    (h : j.Integral fits sound)
    (level : Nat) : ∀ c ∈ printAt level j, isSevenBit c = true := by
  induction h generalizing level with
  | null => exact List.all_eq_true.1 (rfl : "null".toText.all isSevenBit = true)
  | bool b =>
    cases b with
    | true => exact List.all_eq_true.1 (rfl : "true".toText.all isSevenBit = true)
    | false => exact List.all_eq_true.1 (rfl : "false".toText.all isSevenBit = true)
  | @int n =>
    intro c hc
    cases n with
    | ofNat n => exact isSevenBit_of_mem_inBase (by decide) (by decide) hc
    | negSucc n =>
      rcases List.mem_cons.1 hc with rfl | hc
      · rfl
      · exact isSevenBit_of_mem_inBase (by decide) (by decide) hc
  | text t =>
    intro c hc
    exact isSevenBit_of_mem_printedText hc
  | @array items h ih =>
    intro c hc
    rw [printAt_array] at hc
    refine isSevenBit_of_mem_bracketed rfl rfl (fun part hpart => ?_) hc
    obtain ⟨j, hj, rfl⟩ := List.mem_map.1 hpart
    exact ih j hj (level + 1)
  | @object members hnames h ih =>
    intro c hc
    rw [printAt_object] at hc
    refine isSevenBit_of_mem_bracketed rfl rfl (fun part hpart d hd => ?_) hc
    obtain ⟨m, hm, rfl⟩ := List.mem_map.1 hpart
    simp only [printedMember, List.mem_append] at hd
    rcases hd with (hd | hd) | hd
    · exact isSevenBit_of_mem_printedText hd
    · exact List.all_eq_true.1 (rfl : ": ".toText.all isSevenBit = true) d hd
    · exact ih m (List.mem_mergeSort.1 hm) (level + 1) d hd

/-- A legible value is read back from the line that it is printed on, the members of its objects in
the order of their names. -/
theorem read_print {j : Json} (h : j.Legible) : read (j.print ++ [char '\n']) = .ok j.inOrder := by
  have hmark : (j.print ++ [char '\n']).head? ≠ some '\uFEFF' := by
    obtain ⟨c, s, hprint, -, -⟩ := exists_head h 0
    have hc : isSevenBit c = true :=
      isSevenBit_of_mem_printAt h 0 c (by rw [hprint]; exact List.mem_cons_self)
    rw [print, hprint, List.cons_append, List.head?_cons]
    intro heq
    rw [Option.some.inj heq] at hc
    exact absurd hc (by decide)
  have hvalue := readsBack h 0 (2 * (j.print ++ [char '\n']).length + 2) [char '\n']
    (follows_newLine 0 []) (by rw [print]; omega)
  have hrest : skipSpaces [char '\n'] = [] := rfl
  rw [← print] at hvalue
  rw [read, if_neg hmark, print, skipSpaces_printAt h, ← print]
  simp only [hvalue, Bind.bind, Except.bind, hrest]

end Phrasebook.Json
