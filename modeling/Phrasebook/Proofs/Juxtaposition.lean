import Phrasebook.Proofs.Counting

/-!
# Templates side by side

A space keeps two templates apart: the normal form and the tokens of the two with a space between
them are those of one and then of the other. The rows of a template are a product over its tokens,
so the phrases of the two read as each phrase of the first followed by each phrase of the second
(`expand_juxtaposed`).
-/

namespace Phrasebook.Template

/-- The rows of tokens of one row and then of those of another. -/
theorem rows_append (ts us : List Token) :
    rows (ts ++ us) = (rows ts).bind fun rs => (rows us).map fun vs =>
      rs.flatMap fun r => vs.map (r ++ ·) := by
  induction ts with
  | nil =>
    rw [List.nil_append, rows_nil]
    cases rows us <;> simp [Except.bind, Except.map]
  | cons t ts ih =>
    rw [List.cons_append, rows_cons, rows_cons, ih]
    cases t.choices with
    | error f => rfl
    | ok cs =>
      cases rows ts with
      | error f => rfl
      | ok rs =>
        cases rows us with
        | error f => rfl
        | ok vs =>
          simp only [Except.bind, Except.map, List.map_flatMap, List.flatMap_map,
            List.flatMap_assoc, List.map_map, Function.comp_def, List.append_assoc]

/-- The phrases read as these rows of texts, one after the other. -/
def ReadAs (ps : List Text) (rs : List (List Text)) : Prop :=
  ps.map tokenTexts = rs.map .ok

lemma ReadAs.length_eq {ps : List Text} {rs : List (List Text)} (h : ReadAs ps rs) :
    ps.length = rs.length := by
  simpa using congrArg List.length h

lemma exists_readAs {template : Text} {ts : List Token} {rs : List (List Text)}
    (h : Reads (normalize template) ts) (hrows : rows ts = .ok rs) :
    ∃ ps, expand template = .ok ps ∧ ReadAs ps rs := by
  have hexpand := expand_eq_rows h
  rw [hrows] at hexpand
  exact Except.map_eq_ok hexpand

lemma exists_rows_of_expand {template : Text} {ps : List Text} (h : expand template = .ok ps) :
    ∃ ts rs, Reads (normalize template) ts ∧ rows ts = .ok rs ∧ ReadAs ps rs := by
  cases htokens : tokenize (normalize template) with
  | error f => simp [expand_of_unreadable htokens] at h
  | ok ts =>
    have hreads := tokenize_eq_ok_iff.1 htokens
    have hrows := expand_eq_rows hreads
    rw [h] at hrows
    obtain ⟨rs, hrs, hread⟩ := Except.map_eq_ok hrows.symm
    exact ⟨ts, rs, hreads, hrs, hread.symm⟩

/-- Two templates that expand, with a space between them, expand together. Their normal forms and
their counts are put together, and each phrase of the first, read with each phrase of the second
behind it, is a phrase of the whole, the second varying faster. -/
theorem expand_juxtaposed {s t : Text} {ps qs : List Text} (hs : expand s = .ok ps)
    (ht : expand t = .ok qs) :
    normalize (s ++ char ' ' :: t) = normalize s ++ char ' ' :: normalize t ∧
      (∃ m n, count s = .ok m ∧ count t = .ok n ∧ count (s ++ char ' ' :: t) = .ok (m * n)) ∧
      ∃ us rs vs, expand (s ++ char ' ' :: t) = .ok us ∧ ReadAs ps rs ∧ ReadAs qs vs ∧
        ReadAs us (rs.flatMap fun r => vs.map fun v => r ++ v) := by
  obtain ⟨ts, rs, hreads, hrs, hps⟩ := exists_rows_of_expand hs
  obtain ⟨ts', vs, hreads', hvs, hqs⟩ := exists_rows_of_expand ht
  have hboth : Reads (normalize (s ++ char ' ' :: t)) (ts ++ ts') := by
    rw [normalize_append_space]
    exact hreads.append_blank hreads' (by decide)
  have hrows : rows (ts ++ ts') = .ok (rs.flatMap fun r => vs.map fun v => r ++ v) := by
    rw [rows_append, hrs, hvs]
    rfl
  obtain ⟨us, hus, hread⟩ := exists_readAs hboth hrows
  have hlength : us.length = ps.length * qs.length := by
    rw [hread.length_eq, hps.length_eq, hqs.length_eq]
    simp
  refine ⟨normalize_append_space s t, ⟨ps.length, qs.length, ?_, ?_, ?_⟩, us, rs, vs, hus, hps, hqs,
    hread⟩
  · rw [count_eq_map_length, hs]
    rfl
  · rw [count_eq_map_length, ht]
    rfl
  · rw [count_eq_map_length, hus, ← hlength]
    rfl

/-- A template with an empty phrase, and one with two blanks and a nested lone word. -/
theorem expand_juxtaposed_optional :
    expand "(|a)".toText = .ok ["a".toText, []] ∧
      expand "b  ((c))".toText = .ok ["b c".toText] ∧
      normalize ("(|a)".toText ++ char ' ' :: "b  ((c))".toText) =
        normalize "(|a)".toText ++ char ' ' :: normalize "b  ((c))".toText ∧
      (∃ m n, count "(|a)".toText = .ok m ∧ count "b  ((c))".toText = .ok n ∧
        count ("(|a)".toText ++ char ' ' :: "b  ((c))".toText) = .ok (m * n)) ∧
      ∃ us rs vs, expand ("(|a)".toText ++ char ' ' :: "b  ((c))".toText) = .ok us ∧
        ReadAs ["a".toText, []] rs ∧ ReadAs ["b c".toText] vs ∧
        ReadAs us (rs.flatMap fun r => vs.map fun v => r ++ v) := by
  have hs : expand "(|a)".toText = .ok ["a".toText, []] := by decide +kernel
  have ht : expand "b  ((c))".toText = .ok ["b c".toText] := by decide +kernel
  exact ⟨hs, ht, expand_juxtaposed hs ht⟩

end Phrasebook.Template
