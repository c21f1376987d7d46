import Phrasebook.Proofs.CrossProduct
import Phrasebook.Request

/-!
# Counting without expanding

The product of the numbers of branches is the number of phrases, and where the count fails,
expansion fails for the same reason, at the same group. This holds of single templates
(`Template.count_eq_map_length`) and of every datum (`Request.count_agrees_with_expand`).
-/

namespace Phrasebook

namespace Template

def Token.size (t : Token) : Except Fault Nat := do
  let subs ← t.branches
  .ok subs.toList.length

lemma Token.size_eq (t : Token) : t.size = t.choices.map List.length := by
  unfold size choices
  cases t.branches <;> simp [Bind.bind, Except.bind, Except.map]

theorem length_rows (ts : List Token) :
    (rows ts).map List.length = (ts.mapM Token.size).map fun sizes => sizes.foldr (· * ·) 1 := by
  induction ts with
  | nil => rfl
  | cons t ts ih =>
    rw [rows_cons, List.mapM_cons, t.size_eq]
    cases t.choices with
    | error f => rfl
    | ok cs =>
      cases hrows : rows ts with
      | error f =>
        rw [hrows] at ih
        have hsizes := Except.map_eq_error ih.symm
        simp [hsizes, Except.map, Bind.bind, Except.bind]
      | ok rs =>
        rw [hrows] at ih
        obtain ⟨sizes, hsizes, hprod⟩ := Except.map_eq_ok ih.symm
        simp [hsizes, hprod, Except.map, Bind.bind, Except.bind, Pure.pure, Except.pure]

lemma expand_of_unreadable {template : Text} {f : Fault}
    (h : tokenize (normalize template) = .error f) : expand template = .error f := by
  refine expand_of_error ?_
  simp only [branch, h]
  rfl

/-- The count of a template is the number of its phrases, and it fails as expansion does. -/
theorem count_eq_map_length (template : Text) :
    count template = (expand template).map List.length := by
  have hcount : count template = (tokenize (normalize template)).bind fun ts =>
      (ts.mapM Token.size).map fun sizes => sizes.foldr (· * ·) 1 := rfl
  rw [hcount]
  cases htokens : tokenize (normalize template) with
  | error f => rw [expand_of_unreadable htokens]; rfl
  | ok ts =>
    have hrows := expand_eq_rows (tokenize_eq_ok_iff.1 htokens)
    have hlength := congrArg (Except.map List.length) hrows
    rw [Except.map_map, Except.map_map] at hlength
    simp only [List.length_map] at hlength
    exact (length_rows ts).symm.trans hlength.symm

theorem expand_ne_nil (template : Text) : expand template ≠ .ok [] := by
  induction template using branch_induction with
  | step template ih =>
    intro hnil
    cases hbranch : branch template with
    | error f => simp [expand_of_error hbranch] at hnil
    | ok result =>
      cases result with
      | phrase p => simp [expand_of_phrase hbranch] at hnil
      | templates us =>
        rw [expand_of_templates hbranch] at hnil
        obtain ⟨pss, hpss, hflat⟩ := Except.map_eq_ok hnil
        cases forall₂_of_mapM hpss with
        | cons hps _ =>
          obtain ⟨rfl, -⟩ := List.append_eq_nil_iff.1 hflat
          exact ih us hbranch us.first List.mem_cons_self hps

end Template

namespace Request

lemma lift_map {α β : Type} (x : Except Template.Fault α) (g : α → β) :
    lift (x.map g) = (lift x).map g := by
  cases x <;> rfl

lemma eq_ok_of_lift {α : Type} {x : Except Template.Fault α} {a : α} (h : lift x = .ok a) :
    x = .ok a := by
  cases x with
  | error f => simp [lift] at h
  | ok b => exact congrArg _ (Except.ok.inj h)

lemma expand_text (t : Text) : expand (.text t) = lift (Template.expand t) := by
  simp only [expand, templates, List.mapM_cons, List.mapM_nil, Bind.bind, Except.bind, Pure.pure,
    Except.pure]
  cases lift (Template.expand t) <;> simp

lemma mapM_count_eq (ts : List Text) :
    (ts.mapM fun t => lift (Template.count t)).map (fun counts => counts.foldr (· + ·) 0) =
      (ts.mapM fun t => lift (Template.expand t)).map fun pss => pss.flatten.length := by
  induction ts with
  | nil => rfl
  | cons t ts ih =>
    rw [List.mapM_cons, List.mapM_cons, Template.count_eq_map_length, lift_map]
    cases lift (Template.expand t) with
    | error f => rfl
    | ok ps =>
      cases hexpand : ts.mapM fun t => lift (Template.expand t) with
      | error f =>
        rw [hexpand] at ih
        have hcount := Template.Except.map_eq_error ih
        simp [hcount, Except.map, Bind.bind, Except.bind]
      | ok pss =>
        rw [hexpand] at ih
        obtain ⟨counts, hcount, hsum⟩ := Template.Except.map_eq_ok ih
        simp [hcount, hsum, Except.map, Bind.bind, Except.bind, Pure.pure, Except.pure]

lemma count_eq_map_length (d : Datum) : count d = (expand d).map List.length := by
  cases htemplates : templates d with
  | error f =>
    rw [count, expand, htemplates]
    rfl
  | ok ts =>
    have hexpand : expand d = (ts.mapM fun t => lift (Template.expand t)).map List.flatten := by
      rw [expand, htemplates]
      rfl
    have hcount : count d = (ts.mapM fun t => lift (Template.count t)).map
        fun counts => counts.foldr (· + ·) 0 := by
      rw [count, htemplates]
      rfl
    rw [hcount, mapM_count_eq, hexpand, Template.Except.map_map]

/-- Counting and expanding a datum agree. Where one succeeds so does the other, and the count is the
number of phrases, at least one for a template; where one fails, the other fails with the same
fault, and with it the same family, code and message. -/
theorem count_agrees_with_expand (d : Datum) :
    count d = (expand d).map List.length ∧
      ∀ (t : Text) (n : Nat), d = .text t → count d = .ok n → 1 ≤ n := by
  refine ⟨count_eq_map_length d, ?_⟩
  rintro t n rfl hn
  rw [count_eq_map_length, expand_text] at hn
  obtain ⟨ps, hps, rfl⟩ := Template.Except.map_eq_ok hn
  refine List.length_pos_of_ne_nil ?_
  rintro rfl
  exact Template.expand_ne_nil t (eq_ok_of_lift hps)

/-- A template with an omission, counted and expanded. -/
theorem count_agrees_with_expand_optional :
    count (.text "(|the) song".toText) = .ok 2 ∧ 1 ≤ 2 :=
  have hcount : count (.text "(|the) song".toText) = .ok 2 := by decide +kernel
  ⟨hcount, (count_agrees_with_expand (.text "(|the) song".toText)).2 _ 2 rfl hcount⟩

end Request

end Phrasebook
