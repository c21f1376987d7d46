import Phrasebook.Proofs.Descending
import Phrasebook.Proofs.Grammar
import Phrasebook.Proofs.Counting

/-!
# Stripping keeps the nesting

The normal form drops pairs of round brackets around lone words. What a text leaves open depends on
a beginning only through the shapes that the beginning leaves open (`Open.transfer`), so a balanced
text can be taken out of the middle of another one, or put there, without a bracket gaining or
losing its partner (`balanced_delete_iff`). A template is therefore balanced exactly when its
normal form is, and the bracket faults of expansion are those of the template itself
(`stripping_keeps_nesting`).
-/

namespace Phrasebook.Template

/-- Behind two beginnings that leave the same shapes open, the same rest leaves the same shapes
open. -/
theorem Open.transfer {pre pre' rest : Text} {opened opened' after : List Opening}
    (hpre : Open pre opened) (hpre' : Open pre' opened')
    (hshapes : opened'.map (·.shape) = opened.map (·.shape)) (h : Open (pre ++ rest) after) :
    ∃ after', Open (pre' ++ rest) after' ∧ after'.map (·.shape) = after.map (·.shape) := by
  induction rest using List.reverseRecOn generalizing after with
  | nil =>
    rw [List.append_nil] at h
    obtain rfl := hpre.unique h
    exact ⟨opened', by simpa using hpre', hshapes⟩
  | append_singleton rest c ih =>
    rw [← List.append_assoc] at h ⊢
    cases h.last with
    | plain hc hrest =>
      obtain ⟨after', h', heq⟩ := ih hrest
      exact ⟨after', .of_last (.plain hc h'), heq⟩
    | @opener outer shape hc hrest =>
      obtain ⟨outer', h', heq⟩ := ih hrest
      exact ⟨_, .of_last (.opener hc h'), congrArg (shape :: ·) heq⟩
    | @closer o outer hc hrest =>
      obtain ⟨inner', h', heq⟩ := ih hrest
      obtain ⟨o', outer', rfl, hshape, houter⟩ := List.map_eq_cons_iff.1 heq
      exact ⟨outer', .of_last (.closer (hshape ▸ hc) h'), houter⟩

lemma balanced_of_transfer {pre pre' rest : Text} {opened : List Opening} (hpre : Open pre opened)
    (hpre' : Open pre' opened) (h : Balanced (pre ++ rest)) : Balanced (pre' ++ rest) := by
  obtain ⟨after, hafter, heq⟩ := hpre.transfer hpre' rfl (.none h)
  obtain rfl := List.map_eq_nil_iff.1 heq
  exact hafter.balanced

theorem balanced_delete_iff (pre : Text) {mid : Text} (hmid : Balanced mid) (rest : Text) :
    Balanced (pre ++ (mid ++ rest)) ↔ Balanced (pre ++ rest) := by
  constructor
  · intro h
    obtain ⟨opened, hpre⟩ := (Open.none h).of_append
    rw [← List.append_assoc] at h
    exact balanced_of_transfer (hpre.append hmid) hpre h
  · intro h
    obtain ⟨opened, hpre⟩ := (Open.none h).of_append
    rw [← List.append_assoc]
    exact balanced_of_transfer hpre (hpre.append hmid) h

lemma balanced_append_normalize (pre s : Text) :
    Balanced (pre ++ normalize s) ↔ Balanced (pre ++ s) := by
  -- `pre` is what the pass has read
  fun_induction normalize s generalizing pre with
  | case1 => rfl
  | case2 s w rest h ih =>
    obtain ⟨rfl, hne, hw⟩ := loneWord?_eq_some h
    have hword : Balanced w := balanced_of_forall fun c hc => isBracket_of_isPlain (hw c hc)
    have hgroup := balanced_delete_iff pre (hword.enclose .round) rest
    rw [← List.append_assoc, ih, List.append_assoc, balanced_delete_iff pre hword, ← hgroup]
    simp [Shape.opener, Shape.closer]
  | case3 s h ih =>
    have ih := ih (pre ++ [char '('])
    simpa using ih
  | case4 c s hc ih =>
    have ih := ih (pre ++ [c])
    simpa using ih

/-- A text is balanced exactly when its normal form is. -/
theorem balanced_normalize_iff (s : Text) : Balanced (normalize s) ↔ Balanced s :=
  balanced_append_normalize [] s

lemma exists_fault_of_not_balanced {s : Text} (h : ¬Balanced s) : ∃ f, tokenize s = .error f := by
  cases htokens : tokenize s with
  | error f => exact ⟨f, rfl⟩
  | ok ts => exact absurd (exists_tokens_iff.1 ⟨ts, htokens⟩).1 h

lemma code_ne_of_balanced {s : Text} (h : Balanced s) {f : Fault} (hf : tokenize s = .error f) :
    f.code ≠ "E_UNBALANCED_GROUP".toText := by
  have hverdict := tokenize_verdict s
  rw [hf] at hverdict
  cases hverdict with
  | @malformed _ _ shape => exact shape.malformed_code_ne _ _
  | @stray pre rest shape opened hs hopen hstray _ =>
    rw [hs] at h
    obtain ⟨o, ho, rfl⟩ := hopen.exists_head_of_closer (.none h)
    exact absurd rfl (hstray o ho)
  | unclosed hopen _ => exact absurd h hopen.not_balanced

lemma expand_code_ne_of_balanced {template : Text} (h : Balanced template) {f : Fault}
    (hf : expand template = .error f) : f.code ≠ "E_UNBALANCED_GROUP".toText := by
  cases htokens : tokenize (normalize template) with
  | error g =>
    obtain rfl : g = f := Except.error.inj ((expand_of_unreadable htokens).symm.trans hf)
    exact code_ne_of_balanced ((balanced_normalize_iff template).2 h) htokens
  | ok ts =>
    obtain ⟨t, _, rfl⟩ := fault_of_readable htokens hf
    exact (by decide : "E_EMPTY_ALTERNATION".toText ≠ "E_UNBALANCED_GROUP".toText)

/-- Stripping lone words of their brackets neither hides nor creates a bracket without a partner. So
expanding and counting a template that is not balanced fail, with the same fault, and no template
that is balanced is reported as unbalanced. -/
theorem stripping_keeps_nesting (t : Text) :
    (Balanced t ↔ Balanced (normalize t)) ∧
    (¬Balanced t → ∃ f : Fault, Request.expand (.text t) = .error (.malformed f) ∧
      Request.count (.text t) = .error (.malformed f)) ∧
    (Balanced t → ∀ f, Request.expand (.text t) = .error f ∨ Request.count (.text t) = .error f →
      f.code ≠ "E_UNBALANCED_GROUP".toText) := by
  have hexpand := Request.expand_text t
  have hcount := Request.count_eq_map_length (.text t)
  refine ⟨(balanced_normalize_iff t).symm, fun h => ?_, fun h f hf => ?_⟩
  · have hnormal : ¬Balanced (normalize t) := fun hbalanced =>
      h ((balanced_normalize_iff t).1 hbalanced)
    obtain ⟨f, hf⟩ := exists_fault_of_not_balanced hnormal
    rw [expand_of_unreadable hf] at hexpand
    exact ⟨f, hexpand, by rw [hcount, hexpand]; rfl⟩
  · have hfault : Request.expand (.text t) = .error f := by
      rcases hf with hf | hf
      · exact hf
      · exact Except.map_eq_error (hcount.symm.trans hf)
    rw [hexpand] at hfault
    cases htemplate : expand t with
    | ok ps => simp [htemplate, Request.lift] at hfault
    | error g =>
      rw [htemplate] at hfault
      obtain rfl := Except.error.inj hfault
      exact expand_code_ne_of_balanced h htemplate

/-- An opener that the pass leaves alone, and nested brackets that are balanced but malformed. -/
theorem stripping_keeps_nesting_nested :
    (¬Balanced "((a)".toText ∧
      ∃ f : Fault, Request.expand (.text "((a)".toText) = .error (.malformed f) ∧
        Request.count (.text "((a)".toText) = .error (.malformed f)) ∧
    Balanced "((b c))".toText ∧
      Request.expand (.text "((b c))".toText) =
        .error (.malformed (.nestedGroup "((b c))".toText "((b c))".toText)) ∧
      (Request.Fault.malformed (.nestedGroup "((b c))".toText "((b c))".toText)).code ≠
        "E_UNBALANCED_GROUP".toText := by
  have ha : Balanced "(a)".toText :=
    (balanced_of_forall (s := "a".toText) (by decide)).enclose .round
  have hopen : Open ([] ++ Shape.round.opener :: "(a)".toText) [⟨.round, 1⟩] :=
    .bracket .round (.none .nil) ha
  have hnot : ¬Balanced "((a)".toText := fun h => by simpa using hopen.unique (.none h)
  have hbc : Balanced "((b c))".toText :=
    ((balanced_of_forall (s := "b c".toText) (by decide)).enclose .round).enclose .round
  have hfault : Request.expand (.text "((b c))".toText) =
      .error (.malformed (.nestedGroup "((b c))".toText "((b c))".toText)) := by
    decide +kernel
  exact ⟨⟨hnot, (stripping_keeps_nesting _).2.1 hnot⟩, hbc, hfault,
    (stripping_keeps_nesting _).2.2 hbc _ (.inl hfault)⟩

end Phrasebook.Template
