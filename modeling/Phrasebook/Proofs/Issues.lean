import Mathlib.Data.List.Nodup
import Mathlib.Data.List.Perm.Basic
import Phrasebook.Lint
import Phrasebook.Proofs.Entrywise

/-!
# What there is to remark on

The issues of a mapping are said without a linter: names with blanks, intents without templates,
phrases that an intent generates more than once, and phrases that several intents generate
(`Issue.Holds`). The keys of a mapping are pairwise different, and so what an issue is about
determines it (`Issue.Holds.eq_of_subject_eq`).
-/

namespace Phrasebook

namespace Entries

/-- The keys of a mapping are pairwise different. -/
def DistinctKeys (entries : Entries) : Prop :=
  (entries.map Prod.fst).Pairwise fun k l => k.same l = false

instance (entries : Entries) : Decidable entries.DistinctKeys :=
  inferInstanceAs (Decidable ((entries.map Prod.fst).Pairwise fun k l => k.same l = false))

end Entries

namespace Lint

/-- The phrases that templates generate, one template after the other, without those that fail. -/
def generated (ds : List Datum) : List Text :=
  (ds.filterMap fun d => (Request.expand d).toOption).flatten

/-- The names of the intents of a mapping with each of the phrases that their templates generate,
in order. -/
def mentions (entries : Entries) : List (Text × Text) :=
  entries.flatMap (Corpus.entryPairs generated)

/-- Something to remark on. -/
inductive Issue where
  /-- A name that is empty or contains blanks. -/
  | blankName (name : Text)
  | noTemplates (name : Text)
  /-- A phrase that an intent generates more than once. -/
  | repeated (name phrase : Text) (times : Nat)
  /-- A phrase that several intents generate. -/
  | shared (phrase first second : Text) (more : List Text)
  deriving DecidableEq, Repr

namespace Issue

inductive Kind where
  | blankName
  | noTemplates
  | repeated
  | shared
  deriving DecidableEq, Repr

def Kind.code : Kind → Text
  | blankName => "L_INTENT_NAME_WHITESPACE".toText
  | noTemplates => "L_EMPTY_INTENT".toText
  | repeated => "L_DUPLICATE_PHRASE".toText
  | shared => "L_AMBIGUOUS_PHRASE".toText

def kind : Issue → Kind
  | blankName .. => .blankName
  | noTemplates .. => .noTemplates
  | repeated .. => .repeated
  | shared .. => .shared

def message : Issue → Text
  | blankName name =>
    "intent name ".toText ++ Text.quoted name ++ " is empty or contains whitespace".toText
  | noTemplates _ => "intent has no templates and contributes no lines".toText
  | repeated _ phrase times =>
    "phrase ".toText ++ Text.quoted phrase ++ " is generated ".toText ++ Text.ofNat times ++
      " times".toText
  | shared phrase first second more =>
    "phrase ".toText ++ Text.quoted phrase ++ " is generated for intents: ".toText ++
      ", ".toText.intercalate (first :: second :: more)

/-- The intent at which an issue is remarked on. -/
def intent : Issue → Text
  | blankName name => name
  | noTemplates name => name
  | repeated name _ _ => name
  | shared _ _ second _ => second

def diagnostic (file : Option Text) (x : Issue) : Diagnostic :=
  ⟨.remark, x.kind.code, x.message, file, some ("intents.".toText ++ x.intent)⟩

/-- What an issue is about: a name, a phrase of a name, or a phrase. -/
def subject : Issue → Kind × List Text
  | blankName name => (.blankName, [name])
  | noTemplates name => (.noTemplates, [name])
  | repeated name phrase _ => (.repeated, [name, phrase])
  | shared phrase _ _ _ => (.shared, [phrase])

/-- What there is to remark on in a mapping. The intents that share a phrase are named in the order
of the mapping. -/
inductive Holds (entries : Entries) : Issue → Prop
  | blankName {name : Text} {value : Datum} {ds : List Datum}
      (he : (.text name, value) ∈ entries) (hds : Corpus.templates? value = some ds)
      (h : name = [] ∨ ∃ c ∈ name, Text.isBlank c = true) : Holds entries (blankName name)
  | noTemplates {name : Text} {value : Datum} (he : (.text name, value) ∈ entries)
      (hds : Corpus.templates? value = some []) : Holds entries (noTemplates name)
  | repeated {name phrase : Text} {value : Datum} {ds : List Datum}
      (he : (.text name, value) ∈ entries) (hds : Corpus.templates? value = some ds)
      (h : 2 ≤ (generated ds).count phrase) :
      Holds entries (repeated name phrase ((generated ds).count phrase))
  | shared {phrase first second : Text} {more : List Text}
      (horder : ((first :: second :: more).map Key.text).Sublist (entries.map Prod.fst))
      (h : ∀ name, name ∈ first :: second :: more ↔ (name, phrase) ∈ mentions entries) :
      Holds entries (shared phrase first second more)

/-- Where an issue first shows among what a mapping generates. -/
def place (entries : Entries) : Issue → Nat
  | blankName _ => 0
  | noTemplates _ => 0
  | repeated name phrase _ => (mentions entries).idxOf (name, phrase)
  | shared phrase _ _ _ => ((mentions entries).map Prod.snd).idxOf phrase

end Issue

/-- An intent whose value can hold templates, and the phrases of those that expand. -/
structure Intent where
  name : Text
  templates : List Datum
  phrases : List Text

/-- The intent that an entry stands for. -/
def Intent.ofEntry? (entry : Key × Datum) : Option Intent :=
  match entry.1 with
  | .text name => (Corpus.templates? entry.2).map fun ds => ⟨name, ds, generated ds⟩
  | _ => none

def intents (entries : Entries) : List Intent :=
  entries.filterMap Intent.ofEntry?

section Kinds

variable {name : Text} {key : Key} {value : Datum} {ds : List Datum}

lemma ofEntry?_of_intent (h : Corpus.templates? value = some ds) :
    Intent.ofEntry? (.text name, value) = some ⟨name, ds, generated ds⟩ := by
  simp [Intent.ofEntry?, h]

lemma ofEntry?_of_shapeless (h : Corpus.templates? value = none) :
    Intent.ofEntry? (.text name, value) = none := by
  simp [Intent.ofEntry?, h]

lemma ofEntry?_of_nameless (h : ∀ name, key ≠ .text name) :
    Intent.ofEntry? (key, value) = none := by
  unfold Intent.ofEntry?
  split
  · rename_i heq
    exact absurd heq (h _)
  · rfl

end Kinds

lemma mem_intents {entries : Entries} {i : Intent} :
    i ∈ intents entries ↔ ∃ value, (.text i.name, value) ∈ entries ∧
      Corpus.templates? value = some i.templates ∧ i.phrases = generated i.templates := by
  rw [intents, List.mem_filterMap]
  constructor
  · rintro ⟨e, he, hi⟩
    cases Corpus.entryKind e with
    | @intent name value ds h =>
      rw [ofEntry?_of_intent h] at hi
      obtain rfl := Option.some.inj hi
      exact ⟨value, he, h, rfl⟩
    | shapeless h => simp [ofEntry?_of_shapeless h] at hi
    | nameless h => simp [ofEntry?_of_nameless h] at hi
  · rintro ⟨value, he, hds, hphrases⟩
    exact ⟨_, he, by rw [ofEntry?_of_intent hds, ← hphrases]⟩

lemma flatMap_entryPairs (phrases : List Datum → List Text) (entries : Entries) :
    entries.flatMap (Corpus.entryPairs phrases) =
      (intents entries).flatMap fun i => (phrases i.templates).map (Prod.mk i.name) := by
  induction entries with
  | nil => rfl
  | cons e entries ih =>
    rw [List.flatMap_cons, intents, List.filterMap_cons]
    rw [intents] at ih
    cases Corpus.entryKind e with
    | intent h =>
      rw [ofEntry?_of_intent h, List.flatMap_cons, ih, Corpus.entryPairs_of_intent h]
    | shapeless h => rw [ofEntry?_of_shapeless h, ih, Corpus.entryPairs_of_shapeless h]; rfl
    | nameless h => rw [ofEntry?_of_nameless h, ih, Corpus.entryPairs_of_nameless h]; rfl

lemma mentions_eq (entries : Entries) :
    mentions entries = (intents entries).flatMap fun i => i.phrases.map (Prod.mk i.name) := by
  rw [mentions, flatMap_entryPairs]
  refine List.flatMap_congr fun i hi => ?_
  obtain ⟨-, -, -, hphrases⟩ := mem_intents.1 hi
  rw [hphrases]

lemma mem_mentions {entries : Entries} {name phrase : Text} :
    (name, phrase) ∈ mentions entries ↔
      ∃ i ∈ intents entries, i.name = name ∧ phrase ∈ i.phrases := by
  rw [mentions_eq]
  simp only [List.mem_flatMap, List.mem_map, Prod.mk.injEq]
  constructor
  · rintro ⟨i, hi, q, hq, hname, rfl⟩
    exact ⟨i, hi, hname, hq⟩
  · rintro ⟨i, hi, hname, hphrase⟩
    exact ⟨i, hi, phrase, hphrase, hname, rfl⟩

lemma mentions_snd (entries : Entries) :
    (mentions entries).map Prod.snd = (intents entries).flatMap (·.phrases) := by
  simp [mentions_eq, List.map_flatMap, Function.comp_def]

/-- The names of the intents stand among the keys in their order. -/
lemma names_sublist (entries : Entries) :
    ((intents entries).map fun i => Key.text i.name).Sublist (entries.map Prod.fst) := by
  induction entries with
  | nil => exact .slnil
  | cons e entries ih =>
    rw [intents, List.filterMap_cons, List.map_cons]
    cases Corpus.entryKind e with
    | intent h =>
      rw [ofEntry?_of_intent h]
      exact ih.cons_cons _
    | shapeless h =>
      rw [ofEntry?_of_shapeless h]
      exact ih.cons _
    | nameless h =>
      rw [ofEntry?_of_nameless h]
      exact ih.cons _

lemma same_text (s : Text) : (Key.text s).same (.text s) = true := by
  simp [Key.same, Scalar.same, Scalar.integer?]

def nameOf? : Key → Option Text
  | .text name => some name
  | _ => none

lemma nameOf?_eq_some {key : Key} {name : Text} : nameOf? key = some name ↔ key = .text name := by
  unfold nameOf?
  split <;> simp_all

section Distinct

variable {entries : Entries} (hkeys : entries.DistinctKeys)
include hkeys

lemma pairwise_names : (intents entries).Pairwise fun i j => i.name ≠ j.name := by
  have hnames := List.Pairwise.sublist (names_sublist entries) hkeys
  rw [List.pairwise_map] at hnames
  refine hnames.imp fun {i j} h hname => ?_
  rw [hname, same_text] at h
  exact Bool.noConfusion h

lemma eq_of_name_eq {i j : Intent} (hi : i ∈ intents entries) (hj : j ∈ intents entries)
    (h : i.name = j.name) : i = j :=
  List.inj_on_of_nodup_map (List.pairwise_map.2 (pairwise_names hkeys)) hi hj h

/-- The mentions of an intent follow one another in the order of its phrases. -/
lemma mentions_split {i : Intent} (hi : i ∈ intents entries) :
    ∃ before after, mentions entries = before ++ (i.phrases.map (Prod.mk i.name) ++ after) ∧
      (∀ p, (i.name, p) ∉ before) ∧ ∀ p, (i.name, p) ∉ after := by
  obtain ⟨before, after, hsplit⟩ := List.append_of_mem hi
  have hother (is : List Intent) (h : ∀ j ∈ is, j.name ≠ i.name) (p : Text) :
      (i.name, p) ∉ is.flatMap fun j => j.phrases.map (Prod.mk j.name) := by
    intro hmem
    obtain ⟨j, hj, hjp⟩ := List.mem_flatMap.1 hmem
    obtain ⟨q, -, hq⟩ := List.mem_map.1 hjp
    exact h j hj (congrArg Prod.fst hq)
  have hnames := pairwise_names hkeys
  rw [hsplit, List.pairwise_append, List.pairwise_cons] at hnames
  refine ⟨before.flatMap fun j => j.phrases.map (Prod.mk j.name),
    after.flatMap fun j => j.phrases.map (Prod.mk j.name), ?_, ?_, ?_⟩
  · rw [mentions_eq, hsplit, List.flatMap_append, List.flatMap_cons]
  · exact hother before fun j hj => hnames.2.2 j hj i List.mem_cons_self
  · exact hother after fun j hj => (hnames.2.1.1 j hj).symm

/-- Names in the order of the mapping are told by which they are. -/
lemma names_unique {names others : List Text}
    (hnames : (names.map Key.text).Sublist (entries.map Prod.fst))
    (hothers : (others.map Key.text).Sublist (entries.map Prod.fst))
    (h : ∀ name, name ∈ names ↔ name ∈ others) : names = others := by
  have hnodup : ((entries.map Prod.fst).filterMap nameOf?).Nodup := by
    refine List.Pairwise.filterMap nameOf? ?_ hkeys
    rintro k l hkl s hs t ht rfl
    rw [nameOf?_eq_some.1 hs, nameOf?_eq_some.1 ht, same_text] at hkl
    exact Bool.noConfusion hkl
  have hread (xs : List Text) : (xs.map Key.text).filterMap nameOf? = xs := by
    rw [List.filterMap_map]
    exact List.filterMap_some
  have hnames := hread names ▸ hnames.filterMap nameOf?
  have hothers := hread others ▸ hothers.filterMap nameOf?
  exact (hnodup.perm_iff_eq_of_sublist hnames hothers).1
    ((List.perm_ext_iff_of_nodup (hnodup.sublist hnames) (hnodup.sublist hothers)).2 h)

end Distinct

/-- Of what an issue is about there is one issue. -/
theorem Issue.Holds.eq_of_subject_eq {entries : Entries} (hkeys : entries.DistinctKeys)
    {x y : Issue} (hx : x.Holds entries) (hy : y.Holds entries) (h : x.subject = y.subject) :
    x = y := by
  cases hx with
  | blankName =>
    cases hy <;> simp_all [Issue.subject]
  | noTemplates =>
    cases hy <;> simp_all [Issue.subject]
  | @repeated name phrase value ds he hds =>
    cases hy with
    | @repeated name' phrase' value' ds' he' hds' =>
      simp only [Issue.subject, Prod.mk.injEq, List.cons.injEq, true_and, and_true] at h
      obtain ⟨rfl, rfl⟩ := h
      have hi : ⟨name, ds, generated ds⟩ ∈ intents entries := mem_intents.2 ⟨value, he, hds, rfl⟩
      have hj : ⟨name, ds', generated ds'⟩ ∈ intents entries :=
        mem_intents.2 ⟨value', he', hds', rfl⟩
      have hij := eq_of_name_eq hkeys hi hj rfl
      rw [Intent.mk.injEq] at hij
      rw [hij.2.1]
    | _ => simp [Issue.subject] at h
  | @shared phrase first second more horder hmem =>
    cases hy with
    | @shared phrase' first' second' more' horder' hmem' =>
      simp only [Issue.subject, Prod.mk.injEq, List.cons.injEq, true_and, and_true] at h
      subst h
      have hnames := names_unique hkeys horder horder' fun name =>
        (hmem name).trans (hmem' name).symm
      rw [List.cons.injEq, List.cons.injEq] at hnames
      obtain ⟨rfl, rfl, rfl⟩ := hnames
      rfl
    | _ => simp [Issue.subject] at h

end Lint

end Phrasebook
