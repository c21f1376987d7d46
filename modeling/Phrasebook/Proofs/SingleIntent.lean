import Mathlib.Data.Set.List
import Phrasebook.Proofs.CleanFiles
import Phrasebook.Proofs.OnDemand

/-!
# A mapping of one intent

A datum is judged item by item where it is the value of an intent, and as a whole where it is
expanded. Both accept the same data, those of which nothing is left out (`Whole`), and both find the
same phrases in them, so the corpus of one intent is the expansion of its value, a line for each
phrase (`build_agrees_with_expand`).
-/

namespace Phrasebook.Corpus

variable {name : Text} {value : Datum} {ds : List Datum}

lemma templates_of_intent (h : templates? value = some ds) :
    Request.templates value = ds.mapM Request.template? := by
  obtain ⟨t, rfl, rfl⟩ | rfl | rfl := Skip.templates?_eq_some h <;> rfl

lemma templates_of_shapeless (h : templates? value = none) :
    Request.templates value = .error (.notTemplates value.typeName) := by
  unfold Request.templates
  split
  · simp [templates?] at h
  · rename_i hother
    rw [templates?.eq_def] at h
    split at h
    · exact absurd rfl (hother _)
    · rw [h]

/-- The phrases of a value of which nothing is left out are those that its templates come to. -/
theorem expand_of_whole (h : Whole (.text name, value)) :
    ∃ ds, templates? value = some ds ∧ Request.expand value = .ok (rowPhrases ds) := by
  cases h with
  | @intro _ _ ds hds hexpand =>
    have htexts : ds ∈ Set.range (List.map Datum.text) := by
      rw [Set.range_list_map]
      intro d hd
      obtain ⟨t, -, rfl, -⟩ := hexpand d hd
      exact ⟨t, rfl⟩
    obtain ⟨ts, rfl⟩ := htexts
    have hall : ∀ t ∈ ts, ∃ qs, Request.lift (Template.expand t) = .ok qs ∧
        qs.map id = templatePhrases (.text t) := by
      intro t ht
      obtain ⟨t', phrases, heq, hphrases⟩ := hexpand _ (List.mem_map_of_mem ht)
      obtain rfl : t = t' := by simpa using heq
      refine ⟨phrases, by rw [← Request.expand_text, hphrases], ?_⟩
      simp [templatePhrases, hphrases]
    obtain ⟨pss, hpss, hflat⟩ := Template.mapM_flatten_of_forall hall
    have hrow : pss.flatten = rowPhrases (ts.map .text) := by
      rw [rowPhrases, List.flatMap_map, ← hflat, List.map_id]
    have htemplates : Request.templates value = .ok ts := by
      rw [templates_of_intent hds, Request.mapM_template?_eq_ok_iff]
    refine ⟨_, hds, ?_⟩
    rw [← hrow, Request.expand, htemplates]
    simp only [Bind.bind, Except.bind, hpss]

lemma whole_of_expand (name : Text) {ps : List Text} (h : Request.expand value = .ok ps) :
    Whole (.text name, value) := by
  obtain ⟨ts, hts, h⟩ := Template.Except.bind_eq_ok h
  obtain ⟨pss, hpss, -⟩ := Template.Except.bind_eq_ok h
  cases hds : templates? value with
  | none => simp [templates_of_shapeless hds] at hts
  | some ds =>
    rw [templates_of_intent hds, Request.mapM_template?_eq_ok_iff] at hts
    subst hts
    refine .intro hds fun d hd => ?_
    obtain ⟨t, ht, rfl⟩ := List.mem_map.1 hd
    obtain ⟨phrases, hphrases⟩ := Template.exists_of_mapM_eq_ok hpss t ht
    exact ⟨t, phrases, rfl, by rw [Request.expand_text, hphrases]⟩

/-- A template that a corpus has lines for. -/
def Expands (d : Datum) : Prop :=
  ∃ t phrases, d = .text t ∧ Request.expand (.text t) = .ok phrases

lemma Skip.reduceOption_of_expands {path : Nat → Text} (h : ∀ d ∈ ds, Expands d) :
    (ds.mapIdx fun j d => ofTemplate (path j) d).reduceOption = [] := by
  rw [List.eq_nil_iff_forall_not_mem]
  intro skip hskip
  obtain ⟨j, hj, hj'⟩ := List.mem_mapIdx.1 (List.reduceOption_mem_iff.1 hskip)
  obtain ⟨t, phrases, ht, hphrases⟩ := h _ (List.getElem_mem hj)
  simp [ht, ofTemplate, hphrases] at hj'

lemma ofEntry_of_whole {e : Key × Datum} (h : Whole e) : Skip.ofEntry e = [] := by
  cases h with
  | intro hds hexpand =>
    rw [Skip.ofEntry_of_intent hds]
    exact Skip.reduceOption_of_expands hexpand

lemma errors_single_iff (file : Option Text) :
    (build file (.map [(.text name, value)])).errors = [] ↔ Whole (.text name, value) := by
  constructor
  · intro h
    exact whole_of_clean h _ List.mem_cons_self
  · intro h
    rw [errors_map file (by simp), List.flatMap_singleton, ofEntry_of_whole h, List.map_nil]

/-- A mapping of one intent has no errors exactly when the value of the intent expands. Then the
corpus has a line for each of its phrases, in order, and counting the value gives the number of
lines and the count of the intent. -/
theorem build_agrees_with_expand (file : Option Text) (name : Text) (value : Datum) :
    ((build file (.map [(.text name, value)])).errors = [] ↔
        ∃ ps, Request.expand value = .ok ps) ∧
      ∀ ps, Request.expand value = .ok ps →
        (build file (.map [(.text name, value)])).corpus = ps.flatMap (line name) ∧
          ∃ n, Request.count value = .ok n ∧
            (build file (.map [(.text name, value)])).lineCount = n ∧
            (build file (.map [(.text name, value)])).phraseCounts = [(name, n)] := by
  constructor
  · rw [errors_single_iff]
    constructor
    · intro h
      obtain ⟨ds, -, hexpand⟩ := expand_of_whole h
      exact ⟨_, hexpand⟩
    · rintro ⟨ps, hps⟩
      exact whole_of_expand name hps
  · intro ps hps
    obtain ⟨ds, hds, hexpand⟩ := expand_of_whole (whole_of_expand name hps)
    obtain rfl : rowPhrases ds = ps := Except.ok.inj (hexpand.symm.trans hps)
    have hpairs : entryPairs rowPhrases (.text name, value) =
        (rowPhrases ds).map (Prod.mk name) := entryPairs_of_intent hds
    refine ⟨?_, (rowPhrases ds).length, ?_, ?_, ?_⟩
    · rw [corpus_single, entryLines_eq, hpairs, List.map_map, List.flatMap_def]
      rfl
    · rw [Request.count_eq_map_length, hps]
      rfl
    · rw [lineCount_map, pairs, List.flatMap_singleton, hpairs, List.length_map]
    · rw [Command.phraseCounts_map, Lint.intents, List.filterMap_cons,
        Lint.ofEntry?_of_intent hds]
      rfl

/-- A row of two templates, one with an omission, and a row inside a row. -/
theorem build_agrees_with_expand_row :
    Request.expand (.tuple [.text "(|b) c".toText, .text "d".toText]) =
        .ok ["b c".toText, "c".toText, "d".toText] ∧
      (build none
        (.map [(.text "k".toText, .tuple [.text "(|b) c".toText, .text "d".toText])])).corpus =
        "k b c\nk c\nk d\n".toText ∧
      (build none (.map [(.text "k".toText, .list [.list [.text "a".toText]])])).errors ≠ [] := by
  have hexpand : Request.expand (.tuple [.text "(|b) c".toText, .text "d".toText]) =
      .ok ["b c".toText, "c".toText, "d".toText] := by
    decide +kernel
  have hinner : Request.expand (.list [.list [.text "a".toText]]) =
      .error (.notTemplate "list".toText) := by
    decide +kernel
  refine ⟨hexpand, ((build_agrees_with_expand none "k".toText _).2 _ hexpand).1.trans ?_,
    fun h => ?_⟩
  · decide
  · obtain ⟨ps, hps⟩ := (build_agrees_with_expand none "k".toText _).1.1 h
    exact nomatch hinner.symm.trans hps

end Phrasebook.Corpus
