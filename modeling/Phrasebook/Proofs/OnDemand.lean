import Phrasebook.Proofs.Counting
import Phrasebook.Proofs.Descending

/-!
# Phrases on demand

A stream owes the phrases of the templates that it holds, up to the first template that fails
(`Stream.Owes`). An answer pays the first phrase that is owed and leaves the others owed
(`Stream.Owes.next_phrase`), so the answers of a stream are what it owes, and stops after that
(`Stream.Owes.answers_eq`). Since the templates that a step leaves expand together or fail together,
a template that gives a phrase does not fail later. What a datum answers is therefore what it
expands to (`Request.answers_follow_expand`).
-/

namespace Phrasebook

namespace Template

lemma Leftmost.expand_substitute {template : Text} {head tail : List Token} {t : Token}
    (h : Leftmost template head t tail) {subs : Choices (Option Text)}
    (hs : t.branches = .ok subs) {sub : Option Text} (hsub : sub ∈ subs.toList) :
    (expand (substitute head sub tail)).map (fun ps => ps.map tokenTexts) =
      (Template.rows tail).map fun rs =>
        rs.map fun r => .ok (head.map (·.text) ++ t.textsOf sub ++ r) := by
  rw [expand_eq_rows (h.reads_substitute hs hsub), h.rows_substitute, Except.map_map]
  simp only [List.map_map, Function.comp_def]

/-- Of the templates that a step leaves, all have phrases if one has. -/
theorem expand_ok_of_sibling {template u v : Text} {us : Choices Text}
    (hbranch : branch template = .ok (.templates us)) (hu : u ∈ us.toList) (hv : v ∈ us.toList)
    {ps : List Text} (hps : expand u = .ok ps) : ∃ qs, expand v = .ok qs := by
  have hstep := branch_step template
  rw [hbranch] at hstep
  cases hstep with
  | @templates head tail t subs hleft hs =>
    rw [Choices.toList_map] at hu hv
    obtain ⟨sub, hsub, rfl⟩ := List.mem_map.1 hu
    obtain ⟨sub', hsub', rfl⟩ := List.mem_map.1 hv
    have hrows := hleft.expand_substitute hs hsub
    have hrows' := hleft.expand_substitute hs hsub'
    rw [hps] at hrows
    obtain ⟨rs, hrs, -⟩ := Except.map_eq_ok hrows.symm
    rw [hrs] at hrows'
    obtain ⟨qs, hqs, -⟩ := Except.map_eq_ok hrows'
    exact ⟨qs, hqs⟩

namespace Stream

/-- The stream with these pending templates still has these phrases to give, and after them the
fault, if there is one. -/
inductive Owes : List Text → List Text → Option Fault → Prop
  | nothing : Owes [] [] none
  | fault {t : Text} {f : Fault} (h : expand t = .error f) (ts : List Text) :
      Owes (t :: ts) [] (some f)
  | phrases {t : Text} {ts ps qs : List Text} {ending : Option Fault} (h : expand t = .ok ps)
      (hrest : Owes ts qs ending) : Owes (t :: ts) (ps ++ qs) ending

lemma Owes.append {ts us ps qs : List Text} {ending : Option Fault} (h : Owes ts ps none)
    (h' : Owes us qs ending) : Owes (ts ++ us) (ps ++ qs) ending := by
  generalize hnone : (none : Option Fault) = paid at h
  induction h with
  | nothing => exact h'
  | fault => simp at hnone
  | phrases ht _ ih =>
    rw [List.append_assoc, List.cons_append]
    exact .phrases ht (ih hnone)

lemma Owes.of_mapM {ts : List Text} {pss : List (List Text)} (h : ts.mapM expand = .ok pss) :
    Owes ts pss.flatten none := by
  have hall := forall₂_of_mapM h
  clear h
  induction hall with
  | nil => exact .nothing
  | cons ht _ ih =>
    rw [List.flatten_cons]
    exact .phrases ht ih

lemma exists_owes (ts : List Text) : ∃ ps ending, Owes ts ps ending := by
  induction ts with
  | nil => exact ⟨[], none, .nothing⟩
  | cons t ts ih =>
    obtain ⟨qs, ending, hrest⟩ := ih
    cases ht : expand t with
    | error f => exact ⟨[], some f, .fault ht ts⟩
    | ok ps => exact ⟨ps ++ qs, ending, .phrases ht hrest⟩

end Stream

lemma firstPhrase_of_error {template : Text} {f : Fault} (h : branch template = .error f) :
    firstPhrase template = .error f := by
  rw [firstPhrase]
  split <;> simp_all

lemma firstPhrase_of_phrase {template p : Text} (h : branch template = .ok (.phrase p)) :
    firstPhrase template = .ok (p, []) := by
  rw [firstPhrase]
  split <;> simp_all

lemma firstPhrase_of_templates {template : Text} {us : Choices Text}
    (h : branch template = .ok (.templates us)) :
    firstPhrase template = (firstPhrase us.first).map fun q => (q.1, q.2 ++ us.others) := by
  rw [firstPhrase]
  split <;> rename_i h'
  · simp [h] at h'
  · simp [h] at h'
  · obtain rfl : us = _ := by simpa [h] using h'
    cases firstPhrase us.first <;> rfl

/-- A template that fails gives no phrase before its fault. -/
theorem firstPhrase_of_expand_error {template : Text} {f : Fault}
    (h : expand template = .error f) : firstPhrase template = .error f := by
  induction template using branch_induction with
  | step template ih =>
    cases hbranch : branch template with
    | error g =>
      obtain rfl : g = f := Except.error.inj ((expand_of_error hbranch).symm.trans h)
      exact firstPhrase_of_error hbranch
    | ok result =>
      cases result with
      | phrase p => simp [expand_of_phrase hbranch] at h
      | templates us =>
        rw [expand_of_templates hbranch] at h
        have hmap := Except.map_eq_error h
        obtain ⟨u, hu, hf⟩ := exists_of_mapM_eq_error hmap
        cases hfirst : expand us.first with
        | ok ps =>
          obtain ⟨qs, hqs⟩ := expand_ok_of_sibling hbranch List.mem_cons_self hu hfirst
          simp [hqs] at hf
        | error g =>
          rw [Choices.toList, List.mapM_cons, hfirst] at hmap
          obtain rfl : g = f := Except.error.inj hmap
          rw [firstPhrase_of_templates hbranch, ih us hbranch us.first List.mem_cons_self hfirst]
          rfl

/-- The phrases of a template are its first phrase and those that are owed for the templates that
stand for the others. -/
theorem firstPhrase_of_expand_ok {template : Text} {ps : List Text}
    (h : expand template = .ok ps) :
    ∃ p more qs, firstPhrase template = .ok (p, more) ∧ ps = p :: qs ∧
      Stream.Owes more qs none := by
  induction template using branch_induction generalizing ps with
  | step template ih =>
    cases hbranch : branch template with
    | error g => simp [expand_of_error hbranch] at h
    | ok result =>
      cases result with
      | phrase p =>
        obtain rfl : [p] = ps := Except.ok.inj ((expand_of_phrase hbranch).symm.trans h)
        exact ⟨p, [], [], firstPhrase_of_phrase hbranch, rfl, .nothing⟩
      | templates us =>
        rw [expand_of_templates hbranch] at h
        obtain ⟨pss, hpss, rfl⟩ := Except.map_eq_ok h
        rw [Choices.toList, List.mapM_cons] at hpss
        obtain ⟨ps, hps, hpss⟩ := Except.bind_eq_ok hpss
        obtain ⟨qss, hqss, hpss⟩ := Except.bind_eq_ok hpss
        obtain rfl : ps :: qss = pss := Except.ok.inj hpss
        obtain ⟨p, more, qs, hfirst, rfl, howes⟩ := ih us hbranch us.first List.mem_cons_self hps
        refine ⟨p, more ++ us.others, qs ++ qss.flatten, ?_, rfl, howes.append (.of_mapM hqss)⟩
        rw [firstPhrase_of_templates hbranch, hfirst]
        rfl

namespace Stream

/-- The first answers of a source that gives these phrases, then the fault, if there is one, and
then stops. -/
def course {ε : Type} (n : Nat) (ps : List Text) (ending : Option ε) : List (Answer ε) :=
  let given := ps.map .phrase ++ (ending.map .fault).toList
  given.take n ++ List.replicate (n - given.length) .stop

section Course

variable {ε : Type}

lemma course_cons (n : Nat) (p : Text) (ps : List Text) (ending : Option ε) :
    course (n + 1) (p :: ps) ending = .phrase p :: course n ps ending := by
  simp [course]

lemma course_fault (n : Nat) (f : ε) :
    course (n + 1) [] (some f) = .fault f :: course n [] none := by
  simp [course]

lemma course_stop (n : Nat) :
    course (n + 1) [] (none : Option ε) = .stop :: course n [] none := by
  simp [course, List.replicate_succ]

/-- After a fault there are only stops. -/
lemma course_stops {n i j : Nat} {ps : List Text} {ending : Option ε} {f : ε} (hij : i < j)
    (hj : j < n) (h : (course n ps ending)[i]? = some (.fault f)) :
    (course n ps ending)[j]? = some .stop := by
  induction n generalizing i j ps ending with
  | zero => omega
  | succ n ih =>
    obtain ⟨j, rfl⟩ : ∃ k, j = k + 1 := ⟨j - 1, by omega⟩
    cases ps with
    | cons p ps =>
      rw [course_cons] at h ⊢
      cases i with
      | zero => simp at h
      | succ i =>
        have hrest : (course n ps ending)[i]? = some (.fault f) := by simpa using h
        exact ih (by omega) (by omega) hrest
    | nil =>
      have hstops : (course n [] (none : Option ε))[j]? = some .stop := by
        rw [course]
        simp only [List.map_nil, Option.map_none, Option.toList_none, List.nil_append,
          List.take_nil, List.length_nil, Nat.sub_zero]
        exact List.getElem?_replicate_of_lt (by omega)
      cases ending with
      | none => simpa [course_stop] using hstops
      | some g => simpa [course_fault] using hstops

end Course

/-- The first phrase that is owed is given, and the others stay owed. -/
theorem Owes.next_phrase {ts ps : List Text} {p : Text} {ending : Option Fault}
    (h : Owes ts (p :: ps) ending) :
    ∃ us, Stream.next ⟨ts⟩ = (.phrase p, ⟨us⟩) ∧ Owes us ps ending := by
  generalize howed : p :: ps = owed at h
  cases h with
  | nothing => simp at howed
  | fault => simp at howed
  | phrases ht hrest =>
    obtain ⟨q, more, qs, hfirst, rfl, hmore⟩ := firstPhrase_of_expand_ok ht
    obtain ⟨rfl, rfl⟩ := List.cons.inj howed
    exact ⟨_, by simp [next, hfirst], hmore.append hrest⟩

/-- When no phrase is owed, the fault is given if there is one, and nothing is left. -/
theorem Owes.next_end {ts : List Text} {ending : Option Fault} (h : Owes ts [] ending) :
    Stream.next ⟨ts⟩ = ((ending.map .fault).getD .stop, ⟨[]⟩) := by
  generalize howed : ([] : List Text) = owed at h
  cases h with
  | nothing => rfl
  | fault ht => simp [next, firstPhrase_of_expand_error ht]
  | phrases ht _ =>
    obtain ⟨p, more, qs, _, rfl, _⟩ := firstPhrase_of_expand_ok ht
    simp at howed

theorem Owes.answers_eq {ts ps : List Text} {ending : Option Fault} (h : Owes ts ps ending)
    (n : Nat) : Stream.answers n ⟨ts⟩ = course n ps ending := by
  induction n generalizing ts ps ending with
  | zero => simp [answers, course]
  | succ n ih =>
    cases ps with
    | cons p ps =>
      obtain ⟨us, hnext, hus⟩ := h.next_phrase
      rw [answers, hnext, ih hus, course_cons]
    | nil =>
      rw [answers, h.next_end, ih .nothing]
      cases ending with
      | none => rw [course_stop]; rfl
      | some f => rw [course_fault]; rfl

end Stream

end Template

namespace Request

open Template.Stream (Owes course)

lemma templates_of_items {d : Datum} {ds : List Datum} (h : d.items? = some ds) :
    templates d = ds.mapM template? := by
  cases d with
  | scalar => simp [Datum.items?] at h
  | list => simp_all [templates, Datum.items?]
  | tuple => simp_all [templates, Datum.items?]
  | map => simp [Datum.items?] at h
  | set => simp [Datum.items?] at h
  | buffer => simp [Datum.items?] at h

lemma template?_eq_ok_iff {e : Datum} {t : Text} : template? e = .ok t ↔ e = .text t := by
  unfold template?
  split
  · simp
  · rename_i he
    simpa using he t

lemma mapM_template?_eq_ok_iff {ds : List Datum} {ts : List Text} :
    ds.mapM template? = .ok ts ↔ ds = ts.map .text := by
  constructor
  · intro h
    have hall := Template.forall₂_of_mapM h
    clear h
    induction hall with
    | nil => rfl
    | cons he _ ih => rw [template?_eq_ok_iff.1 he, ih, List.map_cons]
  · rintro rfl
    induction ts with
    | nil => rfl
    | cons t ts ih =>
      rw [List.map_cons, List.mapM_cons, ih]
      rfl

lemma eq_notTemplate_of_template? {e : Datum} {f : Fault} (h : template? e = .error f) :
    f = .notTemplate e.typeName := by
  unfold template? at h
  split at h
  · simp at h
  · exact (Except.error.inj h).symm

/-- A row that holds something other than a template is refused. -/
lemma templates_of_not_text {d e : Datum} {ds : List Datum} (hds : d.items? = some ds)
    (he : e ∈ ds) (h : ∀ t, e ≠ .text t) : ∃ name, templates d = .error (.notTemplate name) := by
  rw [templates_of_items hds]
  cases hts : ds.mapM template? with
  | error f =>
    obtain ⟨a, _, ha⟩ := Template.exists_of_mapM_eq_error hts
    exact ⟨a.typeName, congrArg _ (eq_notTemplate_of_template? ha)⟩
  | ok ts =>
    obtain rfl := mapM_template?_eq_ok_iff.1 hts
    obtain ⟨t, _, rfl⟩ := List.mem_map.1 he
    exact absurd rfl (h t)

lemma templates_of_texts {d : Datum} {ts : List Text} (h : d.items? = some (ts.map .text)) :
    templates d = .ok ts := by
  rw [templates_of_items h, mapM_template?_eq_ok_iff]

lemma owes_of_accepted {ts : List Text} {pss : List (List Text)}
    (h : ts.mapM (fun t => expand (.text t)) = .ok pss) : Owes ts pss.flatten none := by
  have hall := Template.forall₂_of_mapM h
  clear h
  induction hall with
  | nil => exact .nothing
  | cons ht _ ih =>
    rw [expand_text] at ht
    exact .phrases (eq_ok_of_lift ht) ih

lemma expand_of_owes {d : Datum} {ts ps : List Text} {ending : Option Template.Fault}
    (htemplates : templates d = .ok ts) (h : Owes ts ps ending) :
    expand d = match ending with
      | none => .ok ps
      | some f => .error (.malformed f) := by
  have hexpand : expand d = (ts.mapM fun t => lift (Template.expand t)).map List.flatten := by
    rw [expand, htemplates]
    rfl
  rw [hexpand]
  clear hexpand htemplates
  induction h with
  | nothing => rfl
  | fault ht =>
    rw [List.mapM_cons, ht]
    rfl
  | @phrases t ts ps qs ending ht _ ih =>
    rw [List.mapM_cons, ht]
    cases hrest : ts.mapM fun t => lift (Template.expand t) with
    | error f =>
      rw [hrest] at ih
      cases ending with
      | none => cases ih
      | some g => exact congrArg _ (Except.error.inj ih)
    | ok pss =>
      rw [hrest] at ih
      cases ending with
      | none =>
        obtain rfl : pss.flatten = qs := Except.ok.inj ih
        rfl
      | some g => cases ih

lemma course_liftAnswer (n : Nat) (ps : List Text) (ending : Option Template.Fault) :
    (course n ps ending).map liftAnswer = course n ps (ending.map Fault.malformed) := by
  cases ending <;> simp [course, liftAnswer, Function.comp_def]

lemma answers_of_owes {d : Datum} {ts ps : List Text} {ending : Option Template.Fault}
    (htemplates : templates d = .ok ts) (h : Owes ts ps ending) (n : Nat) :
    answers n d = course n ps (ending.map Fault.malformed) := by
  rw [answers, htemplates, ← course_liftAnswer, ← h.answers_eq]

lemma answers_of_refused {d : Datum} {f : Fault} (h : templates d = .error f) (n : Nat) :
    answers n d = course n [] (some f) := by
  rw [answers, h]
  cases n <;> simp [course]

lemma expand_of_refused {d : Datum} {f : Fault} (h : templates d = .error f) :
    expand d = .error f := by
  rw [expand, h]
  rfl

/-- A datum answers with phrases, and perhaps a fault after them. Without a fault the phrases are
those of the datum, and with one it is the fault of the datum. -/
theorem exists_answers (d : Datum) : ∃ ps ending, (∀ n, answers n d = course n ps ending) ∧
    expand d = match ending with
      | none => .ok ps
      | some f => .error f := by
  cases htemplates : templates d with
  | error f => exact ⟨[], some f, answers_of_refused htemplates, expand_of_refused htemplates⟩
  | ok ts =>
    obtain ⟨ps, ending, howes⟩ := Template.Stream.exists_owes ts
    refine ⟨ps, ending.map .malformed, answers_of_owes htemplates howes, ?_⟩
    rw [expand_of_owes htemplates howes]
    cases ending <;> rfl

lemma answers_of_expand_error {d : Datum} {f : Fault} (hitems : d.items? = none)
    (h : expand d = .error f) (n : Nat) : answers n d = course n [] (some f) := by
  cases htemplates : templates d with
  | error g =>
    obtain rfl : g = f := Except.error.inj ((expand_of_refused htemplates).symm.trans h)
    exact answers_of_refused htemplates n
  | ok ts =>
    unfold templates at htemplates
    split at htemplates
    · rename_i t
      obtain rfl : [t] = ts := Except.ok.inj htemplates
      rw [expand_text] at h
      cases ht : Template.expand t with
      | ok ps => simp [ht, lift] at h
      | error g =>
        obtain rfl : Fault.malformed g = f := by simpa [ht, lift] using h
        exact answers_of_owes rfl (.fault ht []) n
    · simp [hitems] at htemplates

/-- What a datum answers, for any number of answers, is settled by what it expands to. The phrases
of its expansion come in order and then stops. A template that fails gives its fault first, and so
does a row that holds something other than a template. A row of templates gives the phrases of those
before the first that fails, and then the fault of that one. After a fault there are only stops. -/
theorem answers_follow_expand (d : Datum) (n : Nat) :
    (∀ ps, expand d = .ok ps → answers n d = course n ps none) ∧
    (∀ f, d.items? = none → expand d = .error f → answers n d = course n [] (some f)) ∧
    (∀ ds, d.items? = some ds → (∃ e ∈ ds, ∀ t, e ≠ .text t) →
      ∃ f, f.code = "E_INVALID_INPUT".toText ∧ expand d = .error f ∧
        answers n d = course n [] (some f)) ∧
    (∀ good t rest pss f, d.items? = some ((good ++ t :: rest).map .text) →
      good.mapM (fun u => expand (.text u)) = .ok pss → expand (.text t) = .error f →
      expand d = .error f ∧ answers n d = course n pss.flatten (some f)) ∧
    ∀ i j f, i < j → j < n → (answers n d)[i]? = some (.fault f) →
      (answers n d)[j]? = some .stop := by
  obtain ⟨ps, ending, hanswers, hexpand⟩ := exists_answers d
  refine ⟨?_, ?_, ?_, ?_, ?_⟩
  · intro qs hqs
    rw [hexpand] at hqs
    cases ending with
    | some f => cases hqs
    | none =>
      obtain rfl : ps = qs := Except.ok.inj hqs
      exact hanswers n
  · intro f hitems hf
    exact answers_of_expand_error hitems hf n
  · rintro ds hds ⟨e, he, hother⟩
    obtain ⟨name, hname⟩ := templates_of_not_text hds he hother
    exact ⟨_, rfl, expand_of_refused hname, answers_of_refused hname n⟩
  · intro good t rest pss f hitems hgood hf
    have htemplates := templates_of_texts hitems
    rw [expand_text] at hf
    cases ht : Template.expand t with
    | ok qs => simp [ht, lift] at hf
    | error g =>
      obtain rfl : Fault.malformed g = f := by simpa [ht, lift] using hf
      have howes := (owes_of_accepted hgood).append (.fault ht rest)
      rw [List.append_nil] at howes
      exact ⟨expand_of_owes htemplates howes, answers_of_owes htemplates howes n⟩
  · intro i j f hij hj hf
    rw [hanswers] at hf ⊢
    exact Template.Stream.course_stops hij hj hf

/-- A template with an omission; a template whose second group has no alternative; a row with a
number at its end; and a pair of templates the second of which is not closed. -/
theorem answers_follow_expand_mixed :
    answers 3 (.text "(|b) c".toText) = [.phrase "b c".toText, .phrase "c".toText, .stop] ∧
    answers 2 (.text "(a|b) (|)".toText) =
      [.fault (.malformed (.emptyGroup "(|)".toText)), .stop] ∧
    (∃ f, f.code = "E_INVALID_INPUT".toText ∧
      expand (.list [.text "a".toText, .scalar (.int 5)]) = .error f ∧
      answers 2 (.list [.text "a".toText, .scalar (.int 5)]) = course 2 [] (some f)) ∧
    answers 4 (.tuple [.text "(|b)".toText, .text "(".toText, .text "c".toText]) =
      [.phrase "b".toText, .phrase [],
        .fault (.malformed (.unclosedGroup .round 1 "(".toText)), .stop] ∧
    (answers 4 (.tuple [.text "(|b)".toText, .text "(".toText, .text "c".toText]))[3]? =
      some .stop :=
  have hphrases : expand (.text "(|b) c".toText) = .ok ["b c".toText, "c".toText] := by
    decide +kernel
  have hempty : expand (.text "(a|b) (|)".toText) =
      .error (.malformed (.emptyGroup "(|)".toText)) := by decide +kernel
  have hgood : ["(|b)".toText].mapM (fun u => expand (.text u)) = .ok [["b".toText, []]] := by
    decide +kernel
  have hopen : expand (.text "(".toText) =
      .error (.malformed (.unclosedGroup .round 1 "(".toText)) := by decide +kernel
  have hrow := (answers_follow_expand (.tuple [.text "(|b)".toText, .text "(".toText,
    .text "c".toText]) 4).2.2.2.1 ["(|b)".toText] "(".toText ["c".toText] _ _ rfl hgood hopen
  ⟨(answers_follow_expand (.text "(|b) c".toText) 3).1 _ hphrases,
    (answers_follow_expand (.text "(a|b) (|)".toText) 2).2.1 _ rfl hempty,
    (answers_follow_expand (.list [.text "a".toText, .scalar (.int 5)]) 2).2.2.1 _ rfl
      ⟨.scalar (.int 5), by simp, by simp⟩,
    hrow.2,
    (answers_follow_expand (.tuple [.text "(|b)".toText, .text "(".toText, .text "c".toText])
      4).2.2.2.2 2 3 (.malformed (.unclosedGroup .round 1 "(".toText)) (by decide) (by decide)
      (by rw [hrow.2]; rfl)⟩

end Request

end Phrasebook
