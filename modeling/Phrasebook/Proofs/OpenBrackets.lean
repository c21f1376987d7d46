import Mathlib.Data.List.Induction
import Phrasebook.Proofs.Reading

/-!
# The brackets that a text leaves open

`Open s opened` says that every closing bracket of `s` has the opener that it matches, and that
`opened` lists the openers without a partner, the innermost first. A text has at most one such list
(`Open.unique`), each of its beginnings has one (`Open.of_append`), and a bracket that is open at
the end was open in every beginning that reaches it (`Open.mem_or_column_lt`).
-/

namespace Phrasebook.Template

/-- Every closing bracket of the text matches an opener, and these openers have no partner. -/
inductive Open : Text → List Opening → Prop
  | none {s : Text} (hs : Balanced s) : Open s []
  | bracket {pre s : Text} {opened : List Opening} (shape : Shape) (h : Open pre opened)
      (hs : Balanced s) : Open (pre ++ shape.opener :: s) (⟨shape, pre.length + 1⟩ :: opened)

/-- A closing bracket of this shape that comes after the text has an opener there. -/
def HasPartner (pre : Text) (shape : Shape) : Prop :=
  ∃ before inner, pre = before ++ shape.opener :: inner ∧ Balanced inner

/-- The last character of a balanced text is no bracket, or it closes a group. -/
theorem Balanced.eq_nil_or_snoc {s : Text} (h : Balanced s) :
    s = [] ∨ (∃ t c, s = t ++ [c] ∧ isBracket c = false ∧ Balanced t) ∨
      ∃ t shape inner, s = t ++ shape.opener :: inner ++ [Shape.closer shape] ∧ Balanced t ∧
        Balanced inner := by
  induction h with
  | nil => exact .inl rfl
  | @plain c s hc hs ih =>
    rcases ih with rfl | ⟨t, d, rfl, hd, ht⟩ | ⟨t, shape, inner, rfl, ht, hinner⟩
    · exact .inr (.inl ⟨[], c, rfl, hc, .nil⟩)
    · exact .inr (.inl ⟨c :: t, d, rfl, hd, .plain hc ht⟩)
    · exact .inr (.inr ⟨c :: t, shape, inner, rfl, .plain hc ht, hinner⟩)
  | @group shape inner rest hinner _ _ ih =>
    rcases ih with rfl | ⟨t, d, rfl, hd, ht⟩ | ⟨t, shape', inner', rfl, ht, hinner'⟩
    · exact .inr (.inr ⟨[], shape, inner, rfl, .nil, hinner⟩)
    · exact .inr (.inl ⟨_, d, by simp, hd, .group shape hinner ht⟩)
    · exact .inr (.inr ⟨_, shape', inner', by simp, .group shape hinner ht, hinner'⟩)

namespace Open

lemma append {pre s : Text} {opened : List Opening} (h : Open pre opened) (hs : Balanced s) :
    Open (pre ++ s) opened := by
  cases h with
  | none hpre => exact .none (hpre.append hs)
  | bracket shape h ht =>
    rw [List.append_assoc, List.cons_append]
    exact .bracket shape h (ht.append hs)

end Open

/-- How the last character of a text bears on what the text leaves open. -/
inductive Open.Last (pre : Text) (c : CodePoint) : List Opening → Prop
  | plain {opened : List Opening} (hc : bracket? c = Option.none) (h : Open pre opened) :
      Last pre c opened
  | opener {opened : List Opening} {shape : Shape} (hc : bracket? c = some (.opening shape))
      (h : Open pre opened) : Last pre c (⟨shape, pre.length + 1⟩ :: opened)
  | closer {o : Opening} {outer : List Opening} (hc : bracket? c = some (.closing o.shape))
      (h : Open pre (o :: outer)) : Last pre c outer

namespace Open

variable {pre s rest : Text} {c : CodePoint} {shape : Shape} {o : Opening}
  {opened opened' outer : List Opening}

lemma of_last (h : Last pre c opened) : Open (pre ++ [c]) opened := by
  cases h with
  | plain hc h => exact h.append (.plain (isBracket_eq_false_iff.2 hc) .nil)
  | opener hc h =>
    rw [eq_opener_of_bracket? hc]
    exact .bracket _ h .nil
  | closer hc h =>
    rw [eq_closer_of_bracket? hc]
    cases h with
    | bracket shape h hs =>
      rw [List.append_assoc, List.cons_append]
      exact h.append (hs.enclose shape)

lemma last (h : Open (pre ++ [c]) opened) : Last pre c opened := by
  generalize htext : pre ++ [c] = text at h
  cases h with
  | none hs =>
    rcases hs.eq_nil_or_snoc with rfl | ⟨t, d, rfl, hd, ht⟩ | ⟨t, shape, inner, rfl, ht, hinner⟩
    · simp at htext
    · obtain ⟨rfl, rfl⟩ := List.append_singleton_inj.1 htext
      exact .plain (isBracket_eq_false_iff.1 hd) (.none ht)
    · obtain ⟨rfl, rfl⟩ := List.append_singleton_inj.1 htext
      exact .closer (bracket?_closer shape) (.bracket shape (.none ht) hinner)
  | @bracket pre' s outer shape h hs =>
    rcases hs.eq_nil_or_snoc with rfl | ⟨t, d, rfl, hd, ht⟩ | ⟨t, shape', inner, rfl, ht, hinner⟩
    · obtain ⟨rfl, rfl⟩ := List.append_singleton_inj.1 htext
      exact .opener (bracket?_opener shape) h
    · rw [← List.cons_append, ← List.append_assoc] at htext
      obtain ⟨rfl, rfl⟩ := List.append_singleton_inj.1 htext
      exact .plain (isBracket_eq_false_iff.1 hd) (.bracket shape h ht)
    · rw [← List.cons_append, ← List.append_assoc] at htext
      obtain ⟨rfl, rfl⟩ := List.append_singleton_inj.1 htext
      rw [← List.cons_append, ← List.append_assoc]
      exact .closer (bracket?_closer shape') (.bracket shape' (.bracket shape h ht) hinner)

lemma eq_nil_of_nil (h : Open [] opened) : opened = [] := by
  generalize htext : ([] : Text) = text at h
  cases h with
  | none => rfl
  | bracket => simp at htext

theorem unique (h : Open s opened) (h' : Open s opened') : opened = opened' := by
  induction s using List.reverseRecOn generalizing opened opened' with
  | nil => rw [h.eq_nil_of_nil, h'.eq_nil_of_nil]
  | append_singleton s c ih =>
    cases h.last with
    | plain hc hs =>
      cases h'.last with
      | plain _ hs' => exact ih hs hs'
      | opener hc' => simp [hc] at hc'
      | closer hc' => simp [hc] at hc'
    | opener hc hs =>
      cases h'.last with
      | plain hc' => simp [hc] at hc'
      | opener hc' hs' =>
        obtain rfl : _ = _ := by simpa [hc] using hc'
        rw [ih hs hs']
      | closer hc' => simp [hc] at hc'
    | closer hc hs =>
      cases h'.last with
      | plain hc' => simp [hc] at hc'
      | opener hc' => simp [hc] at hc'
      | closer _ hs' => exact (List.cons.inj (ih hs hs')).2

theorem of_append (h : Open (pre ++ rest) opened) : ∃ opened', Open pre opened' := by
  induction rest using List.reverseRecOn generalizing opened with
  | nil => exact ⟨opened, by simpa using h⟩
  | append_singleton rest c ih =>
    rw [← List.append_assoc] at h
    cases h.last with
    | plain _ hs => exact ih hs
    | opener _ hs => exact ih hs
    | closer _ hs => exact ih hs

/-- What is open at the end was open before, or stands behind. -/
theorem mem_or_column_lt (h : Open pre opened) (h' : Open (pre ++ rest) opened') :
    ∀ o ∈ opened', o ∈ opened ∨ pre.length < o.column := by
  induction rest using List.reverseRecOn generalizing opened' with
  | nil =>
    rw [List.append_nil] at h'
    obtain rfl := h.unique h'
    exact fun o ho => .inl ho
  | append_singleton rest c ih =>
    rw [← List.append_assoc] at h'
    cases h'.last with
    | plain _ hs => exact ih hs
    | opener _ hs =>
      intro o ho
      rcases List.mem_cons.1 ho with rfl | ho
      · exact .inr (by simp only [List.length_append]; omega)
      · exact ih hs o ho
    | closer _ hs =>
      intro o ho
      exact ih hs o (List.mem_cons_of_mem _ ho)

/-- A text that ends inside a group is not balanced. -/
theorem not_balanced_of_inside {before inner t : Text} (hbefore : Open before outer)
    (hinner : Balanced inner) (ht : t <+: before ++ shape.opener :: inner)
    (hlt : before.length < t.length) : ¬Balanced t := by
  intro hbalanced
  obtain ⟨rest, hrest⟩ := ht
  have hinside : Open (t ++ rest) (⟨shape, before.length + 1⟩ :: outer) := by
    rw [hrest]
    exact .bracket shape hbefore hinner
  have hbehind := mem_or_column_lt (.none hbalanced) hinside _ List.mem_cons_self
  simp only [List.not_mem_nil, false_or] at hbehind
  omega

lemma balanced (h : Open s []) : Balanced s := by
  cases h with
  | none hs => exact hs

lemma not_balanced (h : Open s (o :: outer)) : ¬Balanced s := fun hbalanced =>
  List.cons_ne_nil _ _ (h.unique (.none hbalanced))

theorem hasPartner_iff (h : Open pre opened) :
    HasPartner pre shape ↔ ∃ o ∈ opened.head?, o.shape = shape := by
  constructor
  · rintro ⟨before, inner, rfl, hinner⟩
    obtain ⟨outer, hbefore⟩ := h.of_append
    obtain rfl := h.unique (.bracket shape hbefore hinner)
    exact ⟨_, rfl, rfl⟩
  · rintro ⟨o, ho, rfl⟩
    cases h with
    | none => simp at ho
    | bracket shape _ hs =>
      obtain rfl : _ = o := by simpa using ho
      exact ⟨_, _, rfl, hs⟩

lemma hasPartner_of_closer (h : Open (pre ++ shape.closer :: rest) opened) :
    HasPartner pre shape := by
  rw [List.append_cons] at h
  obtain ⟨outer, hclosed⟩ := h.of_append
  cases hclosed.last with
  | plain hc => simp at hc
  | opener hc => simp at hc
  | @closer o _ hc hs =>
    obtain rfl : shape = o.shape := by simpa using hc
    exact hs.hasPartner_iff.2 ⟨o, rfl, rfl⟩

/-- A closing bracket that is matched closes the innermost bracket that is open. -/
lemma exists_head_of_closer (hpre : Open pre opened)
    (h : Open (pre ++ shape.closer :: rest) opened') : ∃ o ∈ opened.head?, o.shape = shape :=
  hpre.hasPartner_iff.1 h.hasPartner_of_closer

/-- Either every closing bracket of a text matches an opener, or there is a first that does not. -/
theorem exists_or_stray (s : Text) : (∃ opened, Open s opened) ∨
    ∃ pre opened rest, ∃ shape : Shape, s = pre ++ shape.closer :: rest ∧ Open pre opened ∧
      ∀ o ∈ opened.head?, o.shape ≠ shape := by
  induction s using List.reverseRecOn with
  | nil => exact .inl ⟨[], .none .nil⟩
  | append_singleton s c ih =>
    rcases ih with ⟨opened, h⟩ | ⟨pre, opened, rest, shape, rfl, h, hstray⟩
    · cases hc : bracket? c with
      | none => exact .inl ⟨_, .of_last (.plain hc h)⟩
      | some b =>
        cases b with
        | opening shape => exact .inl ⟨_, .of_last (.opener hc h)⟩
        | closing shape =>
          obtain rfl := eq_closer_of_bracket? hc
          by_cases hmatch : ∃ o ∈ opened.head?, o.shape = shape
          · obtain ⟨o, ho, rfl⟩ := hmatch
            obtain ⟨outer, rfl⟩ := List.head?_eq_some_iff.1 ho
            exact .inl ⟨_, .of_last (.closer hc h)⟩
          · exact .inr ⟨s, opened, [], shape, rfl, h, fun o ho heq => hmatch ⟨o, ho, heq⟩⟩
    · exact .inr ⟨pre, opened, rest ++ [c], shape, by simp, h, hstray⟩

end Open

end Phrasebook.Template
