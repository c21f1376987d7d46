import Mathlib.Data.List.Infix
import Mathlib.Data.List.ReduceOption
import Phrasebook.Proofs.Entrywise

/-!
# What is left out is reported

The builder leaves out entries that name no intent, entries that hold no templates, items that are
no texts, and templates that cannot be expanded (`Skip`). Its diagnostics are those of what it
leaves out, one for each, in the order of the mapping and of the rows (`build_reports_every_skip`).
Whatever else a mapping holds gives lines, since a template that expands has a phrase.
-/

namespace Phrasebook.Corpus

/-- Something that is left out of the corpus: an entry for its key or for its value, or an item or a
template of an intent, at its path. -/
inductive Skip where
  | nameless (key : Key)
  | shapeless (name : Text) (value : Datum)
  | item (path : Text) (d : Datum)
  | template (path : Text) (fault : Request.Fault)
  deriving Repr

namespace Skip

def diagnostic (file : Option Text) : Skip → Diagnostic
  | nameless key => ⟨.input, "E_INVALID_INTENT_NAME".toText,
      "intent name must be a string, got ".toText ++ key.typeName, file,
      some ("intents.".toText ++ key.label)⟩
  | shapeless name value => ⟨.input, "E_INVALID_TEMPLATES".toText,
      "templates must be a string or a list of strings, got ".toText ++ value.typeName, file,
      some ("intents.".toText ++ name)⟩
  | item path d => ⟨.input, "E_INVALID_TEMPLATE".toText,
      "template must be a string, got ".toText ++ d.typeName, file, some path⟩
  | template path fault => ⟨.template, fault.code, fault.message, file, some path⟩

def ofTemplate (path : Text) : Datum → Option Skip
  | .text t =>
    match Request.expand (.text t) with
    | .ok _ => none
    | .error f => some (template path f)
  | d => some (item path d)

/-- What is left out of an entry. A key that is no text comes before all that its value holds. -/
def ofEntry : Key × Datum → List Skip
  | (.text name, .text t) => (ofTemplate ("intents.".toText ++ name) (.text t)).toList
  | (.text name, value) =>
    match value.items? with
    | some ds => (ds.mapIdx fun j d =>
        ofTemplate
          ("intents.".toText ++ name ++ char '[' :: Text.ofNat j ++ [char ']']) d).reduceOption
    | none => [shapeless name value]
  | (key, _) => [nameless key]

lemma expand_of_ofTemplate {path : Text} {d : Datum} (h : ofTemplate path d = none) :
    ∃ t phrases, d = .text t ∧ Request.expand (.text t) = .ok phrases := by
  unfold ofTemplate at h
  split at h
  · rename_i t
    split at h
    · rename_i phrases hexpand
      exact ⟨t, phrases, rfl, hexpand⟩
    · exact nomatch h
  · exact nomatch h

lemma templateLines_ne_nil_of_expand {t : Text} {phrases : List Text}
    (h : Request.expand (.text t) = .ok phrases) (name : Text) :
    templateLines name (.text t) ≠ [] := by
  have hphrases : phrases ≠ [] := by
    rintro rfl
    rw [Request.expand_text] at h
    exact Template.expand_ne_nil t (Request.eq_ok_of_lift h)
  simpa [templateLines, h] using hphrases

/-- A template that is not left out has a line. -/
lemma templateLines_ne_nil {path : Text} {d : Datum} (h : ofTemplate path d = none) (name : Text) :
    templateLines name d ≠ [] := by
  obtain ⟨t, phrases, rfl, hexpand⟩ := expand_of_ofTemplate h
  exact templateLines_ne_nil_of_expand hexpand name

lemma subset_of_mem_templateLines {name l : Text} {d : Datum} (hl : l ∈ templateLines name d) :
    name ⊆ l := by
  unfold templateLines at hl
  split at hl
  · split at hl
    · obtain ⟨phrase, -, rfl⟩ := List.mem_map.1 hl
      exact fun c hc => List.mem_append_left _ (List.mem_append_left _ hc)
    · exact absurd hl List.not_mem_nil
  · exact absurd hl List.not_mem_nil

lemma errors_of_template (file : Option Text) (path : Text) (d : Datum) :
    allErrors [phrasesOf file path d] = [ofTemplate path d].reduceOption.map (diagnostic file) := by
  unfold ofTemplate
  split
  · rw [phrasesOf_text]
    cases Request.expand _ <;> rfl
  · rename_i hother
    rw [phrasesOf.eq_def]
    split
    · exact absurd rfl (hother _)
    · rfl

lemma allErrors_cons (r : Except Diagnostic (List Text))
    (rs : List (Except Diagnostic (List Text))) :
    allErrors (r :: rs) = allErrors [r] ++ allErrors rs := by
  rw [← List.singleton_append, allErrors, List.filterMap_append]
  rfl

lemma errors_of_row (file : Option Text) (path : Nat → Text) (ds : List Datum) :
    allErrors (ds.mapIdx fun j d => phrasesOf file (path j) d) =
      (ds.mapIdx fun j d => ofTemplate (path j) d).reduceOption.map (diagnostic file) := by
  induction ds generalizing path with
  | nil => rfl
  | cons d ds ih =>
    rw [List.mapIdx_cons, List.mapIdx_cons, allErrors_cons, errors_of_template, ih,
      ← List.map_append, ← List.reduceOption_append, List.singleton_append]

/-- Each template of a row has a line or is left out. -/
lemma length_le_of_row (path : Nat → Text) (name : Text) (ds : List Datum) :
    ds.length ≤ (ds.flatMap (templateLines name)).length +
      (ds.mapIdx fun j d => ofTemplate (path j) d).reduceOption.length := by
  induction ds generalizing path with
  | nil => simp
  | cons d ds ih =>
    have hrest := ih fun j => path (j + 1)
    rw [List.flatMap_cons, List.length_append, List.mapIdx_cons, List.length_cons]
    cases hskip : ofTemplate (path 0) d with
    | some skip =>
      rw [List.reduceOption_cons_of_some, List.length_cons]
      omega
    | none =>
      have hline := List.length_pos_of_ne_nil (templateLines_ne_nil hskip name)
      rw [List.reduceOption_cons_of_none]
      omega

section Entry

variable {name : Text} {key : Key} {value : Datum} {ds : List Datum}

lemma templates?_eq_some (h : templates? value = some ds) :
    (∃ t, value = .text t ∧ ds = [.text t]) ∨ value = .list ds ∨ value = .tuple ds := by
  unfold templates? at h
  split at h
  · rename_i t
    exact .inl ⟨t, rfl, (Option.some.inj h).symm⟩
  · rename_i hother
    cases value with
    | list items => exact .inr (.inl (congrArg Datum.list (Option.some.inj h)))
    | tuple items => exact .inr (.inr (congrArg Datum.tuple (Option.some.inj h)))
    | scalar | map | set | buffer => simp [Datum.items?] at h

lemma ofEntry_of_intent (h : templates? value = some ds) :
    ofEntry (.text name, value) =
      (ds.mapIdx fun j d => ofTemplate (templatePath (.text name) value j) d).reduceOption := by
  obtain ⟨t, rfl, rfl⟩ | rfl | rfl := templates?_eq_some h
  · exact (List.reduceOption_singleton _).symm
  · rfl
  · rfl

lemma length_le_of_intent (name : Text) (h : templates? value = some ds) :
    ds.length ≤ (entryLines (.text name, value)).length + (ofEntry (.text name, value)).length := by
  rw [ofEntry_of_intent h, entryLines, h, Option.getD_some]
  exact length_le_of_row (templatePath (.text name) value) name ds

lemma ofEntry_of_shapeless (h : templates? value = none) :
    ofEntry (.text name, value) = [shapeless name value] := by
  unfold templates? at h
  split at h
  · simp at h
  · rename_i hother
    unfold ofEntry
    split
    · simp_all
    · simp_all
    · rename_i key _ hkey heq
      exact absurd (congrArg Prod.fst heq).symm (hkey name)

lemma ofEntry_of_nameless (h : ∀ name, key ≠ .text name) :
    ofEntry (key, value) = [nameless key] := by
  unfold ofEntry
  split <;> simp_all

end Entry

lemma errors_of_entry (file : Option Text) (e : Key × Datum) :
    (Outcome.ofEntry file e).errors = (ofEntry e).map (diagnostic file) := by
  cases entryKind e with
  | @intent name value ds h =>
    rw [Corpus.ofEntry_of_intent file h, ofEntry_of_intent h]
    exact errors_of_row file (templatePath (.text name) value) ds
  | shapeless h =>
    rw [Corpus.ofEntry_of_shapeless file h, ofEntry_of_shapeless h]
    rfl
  | nameless h =>
    rw [Corpus.ofEntry_of_nameless file h, ofEntry_of_nameless h]
    rfl

end Skip

lemma errors_map (file : Option Text) {entries : Entries} (h : entries ≠ []) :
    (build file (.map entries)).errors =
      (entries.flatMap Skip.ofEntry).map (Skip.diagnostic file) := by
  rw [build_map file h]
  simp only [Report.ofOutcomes, List.flatMap_map, List.map_flatMap, Skip.errors_of_entry]

/-- The report on a mapping has a diagnostic for everything that is left out, and lines for
everything else. -/
structure ReportsEverySkip (file : Option Text) (entries : Entries) : Prop where
  errors : (build file (.map entries)).errors =
    (entries.flatMap Skip.ofEntry).map (Skip.diagnostic file)
  /-- A template of an intent has a diagnostic or a line. -/
  templates : ∀ name value ds j d, (.text name, value) ∈ entries → templates? value = some ds →
    ds[j]? = some d →
      (∃ skip ∈ Skip.ofTemplate (templatePath (.text name) value j) d,
        skip.diagnostic file ∈ (build file (.map entries)).errors) ∨
      (templateLines name d ≠ [] ∧
        (templateLines name d).flatten <:+: (build file (.map entries)).corpus)
  /-- The count of an intent is at least the number of its templates that have no diagnostic. -/
  counted : ∀ name value ds, (.text name, value) ∈ entries → templates? value = some ds →
    ∃ n, (name, n) ∈ (build file (.map entries)).phraseCounts ∧
      ds.length ≤ n + (Skip.ofEntry (.text name, value)).length
  /-- An entry without a count, or with the count zero, has a diagnostic or no templates. -/
  uncounted : ∀ e ∈ entries,
    (∀ name n, e.1 = .text name → (name, n) ∈ (build file (.map entries)).phraseCounts → n = 0) →
      (∃ skip ∈ Skip.ofEntry e, skip.diagnostic file ∈ (build file (.map entries)).errors) ∨
      templates? e.2 = some []

section Mapping

variable {file : Option Text} {entries : Entries}

lemma diagnostic_mem_errors {e : Key × Datum} {skip : Skip} (he : e ∈ entries)
    (hskip : skip ∈ Skip.ofEntry e) :
    skip.diagnostic file ∈ (build file (.map entries)).errors := by
  rw [errors_map file (List.ne_nil_of_mem he)]
  exact List.mem_map_of_mem (List.mem_flatMap_of_mem he hskip)

lemma Skip.mem_ofEntry {name : Text} {value d : Datum} {ds : List Datum} {j : Nat}
    {skip : Skip} (hds : templates? value = some ds) (hd : ds[j]? = some d)
    (hskip : Skip.ofTemplate (templatePath (.text name) value j) d = some skip) :
    skip ∈ Skip.ofEntry (.text name, value) := by
  rw [Skip.ofEntry_of_intent hds, List.reduceOption_mem_iff, ← hskip]
  refine List.mem_of_getElem? (i := j) ?_
  simp [hd]

lemma entryLines_within {e : Key × Datum} (he : e ∈ entries) :
    (entryLines e).flatten <:+: (build file (.map entries)).corpus := by
  rw [build_map file (List.ne_nil_of_mem he), Report.ofOutcomes, layout_map]
  obtain ⟨i, hi, rfl⟩ := List.mem_iff_getElem.1 he
  exact (List.prefix_append _ _).isInfix.trans
    (List.infix_of_mem_flatten (List.mem_mapIdx.2 ⟨i, hi, rfl⟩))

lemma templateLines_within (name : Text) {value d : Datum} {ds : List Datum}
    (hds : templates? value = some ds) (hd : d ∈ ds) :
    templateLines name d <:+: entryLines (.text name, value) := by
  rw [entryLines, hds, Option.getD_some, List.flatMap_def]
  exact List.infix_of_mem_flatten (List.mem_map_of_mem hd)

lemma mem_phraseCounts {name : Text} {value : Datum} {ds : List Datum}
    (he : (.text name, value) ∈ entries) (hds : templates? value = some ds) :
    (name, (entryLines (.text name, value)).length) ∈
      (build file (.map entries)).phraseCounts := by
  rw [build_map file (List.ne_nil_of_mem he)]
  refine List.mem_filterMap.2 ⟨_, List.mem_map_of_mem he, ?_⟩
  rw [ofEntry_of_intent file hds, entryLines, hds, Option.getD_some,
    ← lines_of_row file (templatePath (.text name) value), List.length_map]
  rfl

end Mapping

/-- Nothing is left out of a corpus without a diagnostic. -/
theorem build_reports_every_skip (file : Option Text) {entries : Entries} (h : entries ≠ []) :
    ReportsEverySkip file entries where
  errors := errors_map file h
  templates := by
    intro name value ds j d he hds hd
    cases hskip : Skip.ofTemplate (templatePath (.text name) value j) d with
    | some skip =>
      exact .inl ⟨skip, rfl, diagnostic_mem_errors he (Skip.mem_ofEntry hds hd hskip)⟩
    | none =>
      have hlines := templateLines_within name hds (List.mem_of_getElem? hd)
      exact .inr ⟨Skip.templateLines_ne_nil hskip name, hlines.flatten.trans (entryLines_within he)⟩
  counted := fun name _ _ he hds =>
    ⟨_, mem_phraseCounts he hds, Skip.length_le_of_intent name hds⟩
  uncounted := by
    intro e he hcount
    cases entryKind e with
    | @intent name value ds hds =>
      have hcount := hcount name _ rfl (mem_phraseCounts he hds)
      have hlength := Skip.length_le_of_intent name hds
      cases hskips : Skip.ofEntry (.text name, value) with
      | cons skip skips =>
        have hskip : skip ∈ Skip.ofEntry (.text name, value) := by simp [hskips]
        exact .inl ⟨skip, List.mem_cons_self, diagnostic_mem_errors he hskip⟩
      | nil =>
        rw [hcount, hskips, List.length_nil, Nat.le_zero, List.length_eq_zero_iff] at hlength
        exact .inr (hlength ▸ hds)
    | @shapeless name value hvalue =>
      refine .inl ⟨.shapeless name value, ?_, diagnostic_mem_errors he ?_⟩ <;>
        simp [Skip.ofEntry_of_shapeless hvalue]
    | @nameless key value hkey =>
      refine .inl ⟨.nameless key, ?_, diagnostic_mem_errors he ?_⟩ <;>
        simp [Skip.ofEntry_of_nameless hkey]

/-- A key that is no text, a row with an item that is no text and a template that is not closed, a
value that holds no templates, and an empty row. -/
def faultyEntries : Entries :=
  [(.scalar (.int 1), .null), (.text "a".toText, .list [.text "b".toText, .null, .text "(".toText]),
    (.text "c".toText, .null), (.text "d".toText, .tuple [])]

theorem build_reports_every_skip_mixed :
    faultyEntries ≠ [] ∧ ReportsEverySkip (some "f".toText) faultyEntries ∧
    (build (some "f".toText) (.map faultyEntries)).corpus = "a b\n\n".toText ∧
    (build (some "f".toText) (.map faultyEntries)).phraseCounts =
      [("a".toText, 1), ("d".toText, 0)] ∧
    (build (some "f".toText) (.map faultyEntries)).errors.map (·.render) =
      ["f:intents.1: E_INVALID_INTENT_NAME: intent name must be a string, got int".toText,
        "f:intents.a[1]: E_INVALID_TEMPLATE: template must be a string, got NoneType".toText,
        "f:intents.a[2]: E_UNBALANCED_GROUP: '(' at column 1 is never closed in '('".toText,
        ("f:intents.c: E_INVALID_TEMPLATES: " ++
          "templates must be a string or a list of strings, got NoneType").toText] :=
  ⟨by simp [faultyEntries], build_reports_every_skip _ (by simp [faultyEntries]),
    by decide +kernel, by decide +kernel, by decide +kernel⟩

end Phrasebook.Corpus
