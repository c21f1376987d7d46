import Phrasebook.Proofs.SingleIntent

/-!
# Strict building stops at the first error

Strict building gives the first error of the report, and lenient building goes on to the end. What
comes behind the first bad item has no part in the error: whatever a traversal would have seen
when it came to that item (`Seen`) determines the outcome, so stopping there and going on to the
end are the same (`strict_fails_fast`).
-/

namespace Phrasebook.Corpus

/-- What a traversal has seen of an entry when it stops there: the key, a value that holds no
templates, or the items of a value up to one of them, and whether the value is a text itself. -/
inductive Seen where
  | key (key : Key)
  | value (name : Text) (value : Datum)
  | items (name : Text) (alone : Bool) (passed : List Datum) (item : Datum)

namespace Seen

/-- The entry begins with what was seen of it. What it goes on with is left open. -/
def Begins : Seen → Key × Datum → Prop
  | key k, e => e.1 = k
  | value name v, e => e = (.text name, v)
  | items name alone passed item, e => e.1 = .text name ∧ e.2.isText = alone ∧
      ∃ more, templates? e.2 = some (passed ++ item :: more)

/-- What was seen last is bad, and nothing before it is. -/
def Stops : Seen → Prop
  | key k => ∀ name, k ≠ .text name
  | value _ v => templates? v = none
  | items _ _ passed item => (∀ d ∈ passed, Expands d) ∧ ¬Expands item

end Seen

/-- The first thing that a corpus leaves out, found by going through the entries no further. -/
def firstSkip? (entries : Entries) : Option Skip :=
  entries.findSome? fun e => (Skip.ofEntry e).head?

/-- Strict building gives the corpus if the report has no errors, and the first error if it has
some. Unless the mapping is empty, this is an error of its first bad item, and every mapping that
begins in the same way up to that item has the same error. -/
structure FailsFast (entries : Entries) : Prop where
  passes : (build none (.map entries)).errors = [] →
    generate true (.map entries) = generate false (.map entries) ∧
      generate false (.map entries) = .ok (build none (.map entries)).corpus
  fails : ∀ error more, (build none (.map entries)).errors = error :: more →
    generate true (.map entries) = .error error
  first : entries ≠ [] → (build none (.map entries)).errors.head? =
    (firstSkip? entries).map (Skip.diagnostic none)
  stops : (build none (.map entries)).errors ≠ [] → entries = [] ∨
    ∃ before seen e after, entries = before ++ e :: after ∧ (∀ e ∈ before, Whole e) ∧
      Seen.Stops seen ∧ seen.Begins e
  determined : ∀ before (seen : Seen) e after, entries = before ++ e :: after →
    (∀ e ∈ before, Whole e) → seen.Stops → seen.Begins e →
      ∃ error, generate true (.map entries) = .error error ∧
        ∀ e' after', seen.Begins e' →
          generate true (.map (before ++ e' :: after')) = .error error

lemma exists_first {α : Type} {P : α → Prop} {as : List α} (h : ¬∀ a ∈ as, P a) :
    ∃ before a after, as = before ++ a :: after ∧ (∀ b ∈ before, P b) ∧ ¬P a := by
  classical
  cases hfind : as.find? fun a => decide ¬P a with
  | none => exact absurd (by simpa using hfind) h
  | some a =>
    obtain ⟨ha, before, after, has, hbefore⟩ := List.find?_eq_some_iff_append.1 hfind
    exact ⟨before, a, after, has, by simpa using hbefore, by simpa using ha⟩

lemma Skip.exists_of_not_expands {d : Datum} (h : ¬Expands d) (path : Text) :
    ∃ skip, ofTemplate path d = some skip := by
  cases hskip : ofTemplate path d with
  | none => exact absurd (expand_of_ofTemplate hskip) h
  | some skip => exact ⟨skip, rfl⟩

/-- Paths tell a value that is a template from a row of templates, and rows by no more than the
index. -/
lemma templatePath_eq (key : Key) (value : Datum) (j : Nat) : templatePath key value j =
    if value.isText then intentPath key
    else intentPath key ++ char '[' :: Text.ofNat j ++ [char ']'] := by
  cases value with
  | scalar v => cases v <;> rfl
  | _ => rfl

/-- What was seen of an entry determines the first thing that is left out of it. -/
theorem Seen.exists_skip {seen : Seen} (h : seen.Stops) :
    ∃ skip, ∀ e, seen.Begins e → ∃ more, Skip.ofEntry e = skip :: more := by
  cases seen with
  | key k =>
    refine ⟨.nameless k, fun e he => ⟨[], ?_⟩⟩
    obtain ⟨key, value⟩ := e
    obtain rfl : key = k := he
    exact Skip.ofEntry_of_nameless h
  | value name v =>
    refine ⟨.shapeless name v, fun e he => ⟨[], ?_⟩⟩
    obtain rfl : e = (.text name, v) := he
    exact Skip.ofEntry_of_shapeless h
  | items name alone passed item =>
    obtain ⟨hpassed, hitem⟩ := h
    obtain ⟨skip, hskip⟩ := Skip.exists_of_not_expands hitem
      (if alone then intentPath (.text name)
        else intentPath (.text name) ++ char '[' :: Text.ofNat passed.length ++ [char ']'])
    refine ⟨skip, fun e he => ?_⟩
    obtain ⟨key, value⟩ := e
    obtain ⟨hkey, hvalue, more, hds⟩ := he
    obtain rfl : key = .text name := hkey
    rw [← hvalue, ← templatePath_eq] at hskip
    rw [Skip.ofEntry_of_intent hds, List.mapIdx_append, List.reduceOption_append,
      Skip.reduceOption_of_expands hpassed, List.mapIdx_cons, Command.reduceOption_cons,
      Nat.zero_add, hskip]
    exact ⟨_, rfl⟩

lemma exists_seen_of_not_whole {e : Key × Datum} (h : ¬Whole e) :
    ∃ seen : Seen, seen.Stops ∧ seen.Begins e := by
  cases entryKind e with
  | @intent name value ds hds =>
    obtain ⟨passed, item, more, rfl, hpassed, hitem⟩ :=
      exists_first (P := Expands) fun hall => h (.intro hds hall)
    exact ⟨.items name value.isText passed item, ⟨hpassed, hitem⟩, rfl, rfl, more, hds⟩
  | @shapeless name value hvalue => exact ⟨.value name value, hvalue, rfl⟩
  | @nameless key value hkey => exact ⟨.key key, hkey, rfl⟩

section Strict

variable {entries before after : Entries} {e : Key × Datum}

lemma generate_of_errors {error : Diagnostic} {more : List Diagnostic}
    (h : (build none (.map entries)).errors = error :: more) :
    generate true (.map entries) = .error error := by
  simp only [generate, h]

lemma skips_of_whole (h : ∀ e ∈ entries, Whole e) : entries.flatMap Skip.ofEntry = [] :=
  List.flatMap_eq_nil_iff.2 fun e he => ofEntry_of_whole (h e he)

/-- The first error of a mapping is the first of the first entry that has some. -/
lemma generate_of_first (hbefore : ∀ e ∈ before, Whole e) {skip : Skip} {more : List Skip}
    (he : Skip.ofEntry e = skip :: more) :
    generate true (.map (before ++ e :: after)) = .error (skip.diagnostic none) := by
  have herrors := errors_map none (by simp : before ++ e :: after ≠ [])
  rw [List.flatMap_append, skips_of_whole hbefore, List.flatMap_cons, he] at herrors
  exact generate_of_errors herrors

end Strict

/-- Strict building, which looks for the first error in the report on the whole mapping, does what a
traversal does that stops at the first bad item. -/
theorem strict_fails_fast (entries : Entries) : FailsFast entries where
  passes h := by simp [generate, h]
  fails _ _ h := generate_of_errors h
  first h := by
    rw [errors_map none h, List.head?_map, List.head?_flatMap]
    rfl
  stops h := by
    refine or_iff_not_imp_left.2 fun hne => ?_
    have hbad : ¬∀ e ∈ entries, Whole e := by
      intro hall
      refine h ?_
      rw [errors_map none hne, skips_of_whole hall, List.map_nil]
    obtain ⟨before, e, after, rfl, hbefore, he⟩ := exists_first hbad
    obtain ⟨seen, hstops, hbegins⟩ := exists_seen_of_not_whole he
    exact ⟨before, seen, e, after, rfl, hbefore, hstops, hbegins⟩
  determined := by
    rintro before seen e after rfl hbefore hstops hbegins
    obtain ⟨skip, hskip⟩ := seen.exists_skip hstops
    have hfails (e' after') (he' : seen.Begins e') :
        generate true (.map (before ++ e' :: after')) = .error (skip.diagnostic none) := by
      obtain ⟨more, hmore⟩ := hskip e' he'
      exact generate_of_first hbefore hmore
    exact ⟨_, hfails e after hbegins, hfails⟩

/-- An item that is no text, with a template and an entry behind it that are wrong too. -/
example : generate true
    (.map [(.text "a".toText, .list [.text "x".toText, .null, .text "(".toText]),
      (.scalar (.int 1), .null)]) = .error (notTemplate none "intents.a[1]".toText .null) := by
  decide +kernel

end Phrasebook.Corpus
