import Mathlib.Data.Nat.Init
import Phrasebook.Proofs.Choices

/-!
# What a step of expansion can do

A step fails because the normal form has no tokens or because its leftmost group has no
alternative, ends because there is no group, or leaves a template for each substitution of the
leftmost group (`branch_step`). The tokens of such a template are those of its parent, with words
for the group and with the tail settled (`Leftmost.reads_substitute`).
-/

namespace Phrasebook.Template

/-- The normal form of the template has this leftmost group, between these tokens. -/
structure Leftmost (template : Text) (head : List Token) (t : Token) (tail : List Token) :
    Prop where
  reads : Reads (normalize template) (head ++ t :: tail)
  words : ∀ u ∈ head, u.expandable = false
  expandable : t.expandable = true

/-- The outcomes of one step. -/
inductive Step (template : Text) : Except Fault Branching → Prop
  | unreadable {f : Fault} (h : tokenize (normalize template) = .error f) : Step template (.error f)
  | phrase {ts : List Token} (h : Reads (normalize template) ts)
      (hwords : ∀ u ∈ ts, u.expandable = false) :
      Step template (.ok (.phrase (normalize template)))
  | stuck {head tail : List Token} {t : Token} {f : Fault} (h : Leftmost template head t tail)
      (hf : t.branches = .error f) : Step template (.error f)
  | templates {head tail : List Token} {t : Token} {subs : Choices (Option Text)}
      (h : Leftmost template head t tail) (hs : t.branches = .ok subs) :
      Step template (.ok (.templates (subs.map fun sub => substitute head sub tail)))

lemma splitAtExpandable_eq_none {ts : List Token} :
    splitAtExpandable ts = none ↔ ∀ u ∈ ts, u.expandable = false := by
  induction ts with
  | nil => simp [splitAtExpandable]
  | cons t ts ih =>
    unfold splitAtExpandable
    by_cases ht : t.expandable = true
    · simp [ht]
    · simp [ht, ih]

lemma splitAtExpandable_append {head : List Token} (hhead : ∀ u ∈ head, u.expandable = false)
    {t : Token} (ht : t.expandable = true) (tail : List Token) :
    splitAtExpandable (head ++ t :: tail) = some (head, t, tail) := by
  induction head with
  | nil => simp [splitAtExpandable, ht]
  | cons u head ih =>
    rw [List.cons_append, splitAtExpandable, if_neg (by simp [hhead u List.mem_cons_self]),
      ih fun v hv => hhead v (List.mem_cons_of_mem u hv)]
    rfl

theorem branch_step (template : Text) : Step template (branch template) := by
  simp only [branch, Bind.bind, Except.bind]
  cases htokens : tokenize (normalize template) with
  | error f => exact .unreadable htokens
  | ok ts =>
    have hreads := tokenize_eq_ok_iff.1 htokens
    dsimp only
    cases hsplit : splitAtExpandable ts with
    | none => exact .phrase hreads (splitAtExpandable_eq_none.1 hsplit)
    | some p =>
      obtain ⟨head, t, tail⟩ := p
      obtain ⟨rfl, ht, hwords⟩ := splitAtExpandable_eq_some hsplit
      have hleft : Leftmost template head t tail := ⟨hreads, hwords, ht⟩
      dsimp only
      cases hbranches : t.branches with
      | error f => exact .stuck hleft hbranches
      | ok subs => exact .templates hleft hbranches

lemma exists_leftmost {template : Text} {ts : List Token} (h : Reads (normalize template) ts)
    (hx : ∃ t ∈ ts, t.expandable = true) :
    ∃ head t tail, ts = head ++ t :: tail ∧ Leftmost template head t tail := by
  obtain ⟨u, hu, hux⟩ := hx
  cases hsplit : splitAtExpandable ts with
  | none => simp [splitAtExpandable_eq_none.1 hsplit u hu] at hux
  | some p =>
    obtain ⟨head, t, tail⟩ := p
    obtain ⟨rfl, ht, hwords⟩ := splitAtExpandable_eq_some hsplit
    exact ⟨head, t, tail, rfl, h, hwords, ht⟩

namespace Leftmost

variable {template : Text} {head tail : List Token} {t : Token}

lemma isLexeme (h : Leftmost template head t tail) : ∀ u ∈ head ++ t :: tail, u.IsLexeme :=
  h.reads.isLexeme

lemma isGroup (h : Leftmost template head t tail) : t.IsGroup :=
  (h.isLexeme t (by simp)).isGroup h.expandable

lemma head_settle (h : Leftmost template head t tail) : head.map Token.settle = head := by
  have hfixed : ∀ u ∈ head, u.settle = id u := by
    intro u hu
    have hk : u.kind = .word := by simpa [Token.expandable] using h.words u hu
    exact Token.settle_of_not_mem ((h.isLexeme u (List.mem_append_left _ hu)).not_mem_of_word hk)
  rw [List.map_congr_left hfixed, List.map_id]

lemma words_substitute (h : Leftmost template head t tail) (sub : Option Text) :
    ∀ u ∈ head ++ (t.textsOf sub).map .ofWord, u.expandable = false := by
  intro u hu
  rcases List.mem_append.1 hu with hu | hu
  · exact h.words u hu
  · obtain ⟨w, _, rfl⟩ := List.mem_map.1 hu
    rfl

/-- The tokens of a template that the step leaves. -/
theorem reads_substitute (h : Leftmost template head t tail) {subs : Choices (Option Text)}
    (hs : t.branches = .ok subs) {sub : Option Text} (hsub : sub ∈ subs.toList) :
    Reads (normalize (substitute head sub tail))
      (head ++ (t.textsOf sub).map .ofWord ++ tail.map Token.settle) := by
  have hhead : ∀ u ∈ head, u.IsLexeme := fun u hu => h.isLexeme u (by simp [hu])
  have htail : ∀ u ∈ tail, u.IsLexeme := fun u hu => h.isLexeme u (by simp [hu])
  have hreads := reads_normalize_substitute hhead htail h.isGroup h.expandable hs hsub
  rwa [h.head_settle] at hreads

end Leftmost

lemma branch_of_words {template : Text} {ts : List Token} (h : Reads (normalize template) ts)
    (hwords : ∀ u ∈ ts, u.expandable = false) :
    branch template = .ok (.phrase (normalize template)) := by
  simp [branch, tokenize_eq_ok_iff.2 h, splitAtExpandable_eq_none.2 hwords, Bind.bind, Except.bind]

lemma expand_of_error {template : Text} {f : Fault} (h : branch template = .error f) :
    expand template = .error f := by
  rw [expand]
  split <;> simp_all

lemma expand_of_phrase {template p : Text} (h : branch template = .ok (.phrase p)) :
    expand template = .ok [p] := by
  rw [expand]
  split <;> simp_all

lemma expand_of_templates {template : Text} {us : Choices Text}
    (h : branch template = .ok (.templates us)) :
    expand template = (us.toList.mapM expand).map List.flatten := by
  rw [expand]
  split <;> rename_i h'
  · simp [h] at h'
  · simp [h] at h'
  · obtain rfl : us = _ := by simpa [h] using h'
    simp only [List.mapM_subtype (g := expand) (f := fun u => expand u.1) fun _ _ => rfl,
      List.unattach_attach]
    cases us.toList.mapM expand <;> rfl

lemma expand_congr {s s' : Text} (h : normalize s = normalize s') : expand s = expand s' := by
  have hbranch : branch s = branch s' := by simp only [branch, h]
  cases hs : branch s with
  | error f => rw [expand_of_error hs, expand_of_error (hbranch ▸ hs)]
  | ok result =>
    cases result with
    | phrase p => rw [expand_of_phrase hs, expand_of_phrase (hbranch ▸ hs)]
    | templates us => rw [expand_of_templates hs, expand_of_templates (hbranch ▸ hs)]

/-- A template with a group expands as the templates do that its leftmost group leaves. -/
theorem Leftmost.expand_eq {template : Text} {head tail : List Token} {t : Token}
    (h : Leftmost template head t tail) :
    expand template = t.branches.bind fun subs =>
      (subs.toList.mapM fun sub => expand (substitute head sub tail)).map List.flatten := by
  have hbranch : branch template = t.branches.map fun subs =>
      .templates (subs.map fun sub => substitute head sub tail) := by
    simp only [branch, tokenize_eq_ok_iff.2 h.reads, Bind.bind, Except.bind,
      splitAtExpandable_append h.words h.expandable]
    cases t.branches <;> rfl
  cases hs : t.branches with
  | error f =>
    rw [hs] at hbranch
    exact expand_of_error hbranch
  | ok subs =>
    rw [hs] at hbranch
    rw [expand_of_templates hbranch, Choices.toList_map, List.mapM_map]
    rfl

lemma forall₂_of_mapM {ε α β : Type} {f : α → Except ε β} {l : List α} {bs : List β}
    (h : l.mapM f = .ok bs) : List.Forall₂ (fun a b => f a = .ok b) l bs := by
  induction l generalizing bs with
  | nil =>
    obtain rfl : [] = bs := Except.ok.inj h
    exact .nil
  | cons a l ih =>
    rw [List.mapM_cons] at h
    obtain ⟨b, hb, h⟩ := Except.bind_eq_ok h
    obtain ⟨cs, hcs, h⟩ := Except.bind_eq_ok h
    obtain rfl : b :: cs = bs := Except.ok.inj h
    exact .cons hb (ih hcs)

lemma exists_of_mem_mapM {ε α β : Type} {f : α → Except ε β} {l : List α} {bs : List β}
    (h : l.mapM f = .ok bs) {b : β} (hb : b ∈ bs) : ∃ a ∈ l, f a = .ok b := by
  have hall := forall₂_of_mapM h
  clear h
  induction hall with
  | nil => simp at hb
  | @cons a _ _ _ ha _ ih =>
    rcases List.mem_cons.1 hb with rfl | hb
    · exact ⟨a, by simp, ha⟩
    · obtain ⟨c, hc, hfc⟩ := ih hb
      exact ⟨c, by simp [hc], hfc⟩

lemma exists_of_mapM_eq_ok {ε α β : Type} {f : α → Except ε β} {l : List α} {bs : List β}
    (h : l.mapM f = .ok bs) : ∀ a ∈ l, ∃ b, f a = .ok b := by
  have hall : List.Forall₂ (fun a b => (∃ b', f a = .ok b') ∧ f a = .ok b) l bs :=
    (forall₂_of_mapM h).imp fun _ b hb => ⟨⟨b, hb⟩, hb⟩
  exact ((List.forall₂_and_left l bs).1 hall).1

/-- What holds of a template when it holds of all that a step leaves holds of every template. -/
theorem branch_induction {motive : Text → Prop}
    (step : ∀ template, (∀ us, branch template = .ok (.templates us) →
      ∀ u ∈ us.toList, motive u) → motive template) (template : Text) : motive template := by
  -- on the number of opening round brackets, which a step lowers
  induction hn : measure template using Nat.strong_induction_on generalizing template with
  | _ n ih =>
    refine step template fun us hus u hu => ?_
    have hlt := measure_lt_of_branch hus hu
    exact ih (measure u) (hn ▸ hlt) u rfl

end Phrasebook.Template
