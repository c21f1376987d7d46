import Phrasebook.Proofs.CrossProduct

/-!
# The calls of an expansion

Expansion calls itself on the templates that a step leaves. Each of these has tokens again, and
fewer groups than the template it comes from (`Leftmost.groups_lt`), so the calls are nested no
deeper than the template has groups, and a text that cannot be read as tokens can only be the
template that expansion starts with (`expansion_descends`).
-/

namespace Phrasebook.Template

def groups (ts : List Token) : Nat :=
  ts.countP (·.expandable)

/-- The number of groups of a template, none for one that has no tokens. -/
def groupCount (template : Text) : Nat :=
  match tokenize (normalize template) with
  | .ok ts => groups ts
  | .error _ => 0

/-- The templates that expansion is called on, with the number of calls around each. -/
inductive CalledFrom (template : Text) : Nat → Text → Prop
  | outermost : CalledFrom template 0 template
  | inner {depth : Nat} {t u : Text} {us : Choices Text} (h : CalledFrom template depth t)
      (hbranch : branch t = .ok (.templates us)) (hu : u ∈ us.toList) :
      CalledFrom template (depth + 1) u

lemma groupCount_of_reads {template : Text} {ts : List Token}
    (h : Reads (normalize template) ts) : groupCount template = groups ts := by
  rw [groupCount, tokenize_eq_ok_iff.2 h]

lemma groups_append (ts us : List Token) : groups (ts ++ us) = groups ts + groups us :=
  List.countP_append

lemma groups_eq_zero {ts : List Token} : groups ts = 0 ↔ ∀ t ∈ ts, t.expandable = false := by
  simp [groups, List.countP_eq_zero]

lemma groups_settle_le {ts : List Token} (hts : ∀ t ∈ ts, t.IsLexeme) :
    groups (ts.map Token.settle) ≤ groups ts := by
  unfold groups
  rw [List.countP_map]
  exact List.countP_mono_left fun t ht => (hts t ht).settling.expandable

lemma groups_ofWord (ws : List Text) : groups (ws.map .ofWord) = 0 := by
  rw [groups_eq_zero]
  intro t ht
  obtain ⟨w, _, rfl⟩ := List.mem_map.1 ht
  rfl

theorem Leftmost.groups_lt {template : Text} {head tail : List Token} {t : Token}
    (h : Leftmost template head t tail) (sub : Option Text) :
    groups (head ++ (t.textsOf sub).map .ofWord ++ tail.map Token.settle) <
      groups (head ++ t :: tail) := by
  have hhead : groups head = 0 := groups_eq_zero.2 h.words
  have htail := groups_settle_le fun u (hu : u ∈ tail) => h.isLexeme u (by simp [hu])
  have hgroup : groups (t :: tail) = groups tail + 1 := List.countP_cons_of_pos h.expandable
  rw [groups_append, groups_append, groups_append, groups_ofWord, hgroup, hhead]
  omega

lemma exists_tokens_of_branch {t u : Text} {us : Choices Text}
    (hbranch : branch t = .ok (.templates us)) (hu : u ∈ us.toList) :
    (∃ ts, tokenize (normalize u) = .ok ts) ∧ groupCount u < groupCount t := by
  have hstep := branch_step t
  rw [hbranch] at hstep
  cases hstep with
  | templates hleft hs =>
    rw [Choices.toList_map] at hu
    obtain ⟨sub, hsub, rfl⟩ := List.mem_map.1 hu
    have hreads := hleft.reads_substitute hs hsub
    rw [groupCount_of_reads hreads, groupCount_of_reads hleft.reads]
    exact ⟨⟨_, tokenize_eq_ok_iff.2 hreads⟩, hleft.groups_lt sub⟩

lemma CalledFrom.add_groupCount_le {template : Text} {depth : Nat} {u : Text}
    (h : CalledFrom template depth u) : depth + groupCount u ≤ groupCount template := by
  induction h with
  | outermost => simp
  | inner _ hbranch hu ih =>
    have hlt := (exists_tokens_of_branch hbranch hu).2
    omega

lemma alternativesOf_eq_error {group content : Text} {f : Fault}
    (h : alternativesOf group content = .error f) : f = .emptyGroup group := by
  unfold alternativesOf at h
  split at h
  · exact (Except.error.inj h).symm
  · simp at h

lemma branches_eq_error {t : Token} {f : Fault} (h : t.branches = .error f) :
    f = .emptyGroup t.text := by
  by_cases hx : t.expandable = true
  · rw [Token.branches_eq_map hx] at h
    exact alternativesOf_eq_error (Except.map_eq_error h)
  · have hk : t.kind = .word := by simpa [Token.expandable] using hx
    simp [Token.branches, hk] at h

lemma exists_of_mapM_eq_error {ε α β : Type} {f : α → Except ε β} {l : List α} {e : ε}
    (h : l.mapM f = .error e) : ∃ a ∈ l, f a = .error e := by
  induction l with
  | nil => simp [Pure.pure, Except.pure] at h
  | cons a l ih =>
    rw [List.mapM_cons] at h
    cases ha : f a with
    | error e' =>
      rw [ha] at h
      obtain rfl : e' = e := Except.error.inj h
      exact ⟨a, by simp, ha⟩
    | ok b =>
      cases hl : l.mapM f with
      | error e' =>
        rw [ha, hl] at h
        obtain rfl : e' = e := Except.error.inj h
        obtain ⟨c, hc, hfc⟩ := ih hl
        exact ⟨c, by simp [hc], hfc⟩
      | ok bs => simp [ha, hl, Bind.bind, Except.bind, Pure.pure, Except.pure] at h

theorem fault_of_readable {template : Text} {ts : List Token}
    (htokens : tokenize (normalize template) = .ok ts) {f : Fault}
    (h : expand template = .error f) : ∃ t ∈ ts, f = .emptyGroup t.text := by
  have hrows := expand_eq_rows (tokenize_eq_ok_iff.1 htokens)
  rw [h] at hrows
  have hchoices := Except.map_eq_error (Except.map_eq_error hrows.symm)
  obtain ⟨t, ht, hf⟩ := exists_of_mapM_eq_error hchoices
  refine ⟨t, ht, branches_eq_error ?_⟩
  cases hbranches : t.branches with
  | error g =>
    rw [choices_of_branches_error hbranches] at hf
    rw [Except.error.inj hf]
  | ok subs =>
    rw [choices_of_branches hbranches] at hf
    cases hf

/-- Wherever a call of an expansion has tokens and resolves its leftmost group, every template that
it makes has tokens too, and fewer groups. So the calls are nested no deeper than the template has
groups, a text without tokens is the template of the outermost call, and an inner call fails only
at a group without an alternative. -/
theorem expansion_descends (template : Text) :
    (∀ depth u ts head t tail subs, CalledFrom template depth u →
      tokenize (normalize u) = .ok ts → splitAtExpandable ts = some (head, t, tail) →
      t.branches = .ok subs → ∀ sub ∈ subs.toList,
        ∃ ts', tokenize (normalize (substitute head sub tail)) = .ok ts' ∧
          groups ts' < groups ts) ∧
    (∀ depth u, CalledFrom template depth u → depth ≤ groupCount template) ∧
    (∀ depth u f, CalledFrom template depth u → tokenize (normalize u) = .error f →
      depth = 0 ∧ u = template) ∧
    (∀ depth u f, CalledFrom template (depth + 1) u → expand u = .error f →
      ∃ group, f = .emptyGroup group) := by
  refine ⟨?_, ?_, ?_, ?_⟩
  · intro depth u ts head t tail subs _ htokens hsplit hs sub hsub
    obtain ⟨rfl, ht, hwords⟩ := splitAtExpandable_eq_some hsplit
    have hleft : Leftmost u head t tail := ⟨tokenize_eq_ok_iff.1 htokens, hwords, ht⟩
    exact ⟨_, tokenize_eq_ok_iff.2 (hleft.reads_substitute hs hsub), hleft.groups_lt sub⟩
  · intro depth u h
    exact Nat.le_trans (Nat.le_add_right _ _) h.add_groupCount_le
  · intro depth u f h hf
    cases h with
    | outermost => exact ⟨rfl, rfl⟩
    | inner _ hbranch hu =>
      obtain ⟨⟨ts, htokens⟩, -⟩ := exists_tokens_of_branch hbranch hu
      simp [htokens] at hf
  · intro depth u f h hf
    cases h with
    | inner _ hbranch hu =>
      obtain ⟨⟨ts, htokens⟩, -⟩ := exists_tokens_of_branch hbranch hu
      obtain ⟨t, _, hfault⟩ := fault_of_readable htokens hf
      exact ⟨t.text, hfault⟩

/-- A template of which the second group has no alternative: the inner call for it is read to its
end and fails. A template that cannot be read fails in the outermost call. -/
theorem expansion_descends_optional :
    (∃ ts, tokenize (normalize (substitute [] none [⟨.alternation, "(|)".toText⟩])) = .ok ts ∧
      groups ts < groups [⟨.alternation, "(|the)".toText⟩, ⟨.alternation, "(|)".toText⟩]) ∧
    CalledFrom "(|the) (|)".toText 1 "(|)".toText ∧ 1 ≤ groupCount "(|the) (|)".toText ∧
    tokenize (normalize "(a".toText) = .error (.unclosedGroup .round 1 "(a".toText) ∧
    (∀ depth u f, CalledFrom "(a".toText depth u → tokenize (normalize u) = .error f →
      u = "(a".toText) ∧
    (∀ f, tokenize (normalize "(|)".toText) ≠ .error f) ∧
    ∃ group, expand "(|)".toText = .error (.emptyGroup group) ∧ group = "(|)".toText := by
  have hbranch : branch "(|the) (|)".toText =
      .ok (.templates ⟨"the (|)".toText, ["(|)".toText]⟩) := by
    decide +kernel
  have hcall : CalledFrom "(|the) (|)".toText 1 "(|)".toText :=
    .inner .outermost hbranch (by decide)
  have hfails : expand "(|)".toText = .error (.emptyGroup "(|)".toText) := by
    decide +kernel
  obtain ⟨hdescends, hdepth, -, hempty⟩ := expansion_descends "(|the) (|)".toText
  obtain ⟨group, hgroup⟩ := hempty 0 _ _ hcall hfails
  refine ⟨?_, hcall, hdepth 1 _ hcall, by decide +kernel, ?_, fun f hf => ?_, group, ?_⟩
  · exact hdescends 0 _ _ [] ⟨.alternation, "(|the)".toText⟩ _ ⟨some "the".toText, [none]⟩
      .outermost (by decide +kernel) (by decide) (by decide +kernel) none (by decide)
  · exact fun depth u f hu hf => ((expansion_descends "(a".toText).2.2.1 depth u f hu hf).2
  · exact absurd ((expansion_descends "(|the) (|)".toText).2.2.1 1 _ f hcall hf).1 Nat.one_ne_zero
  · exact ⟨hgroup ▸ hfails, (Fault.emptyGroup.inj hgroup).symm⟩

end Phrasebook.Template
