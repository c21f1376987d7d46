import Phrasebook.Proofs.Reporting
import Phrasebook.Proofs.Tallying

/-!
# What counting and building diagnose

Counting meets all that a corpus leaves out, in the same order and at the same paths. It differs in
what it says of an item that is no text: it says what is wrong with expanding the item, which may be
nothing (`places_tallied`). So counting and building diagnose the same just when every item of an
intent is a text and there is an entry at all, since only building minds an empty mapping
(`diagnosedAsBuilt_iff`).
-/

namespace Phrasebook

/-- Where a diagnostic is inside its file, and its code. -/
def Diagnostic.place (d : Diagnostic) : Option Text × Text :=
  (d.path, d.code)

/-- Whether an item can be a template. -/
def Datum.isText : Datum → Bool
  | .text _ => true
  | _ => false

lemma Request.Fault.code_ne (f : Request.Fault) : f.code ≠ "E_INVALID_TEMPLATE".toText := by
  cases f with
  | notTemplates | notTemplate =>
    exact (by decide : "E_INVALID_INPUT".toText ≠ "E_INVALID_TEMPLATE".toText)
  | malformed f =>
    cases f with
    | unexpectedCloser | unclosedGroup =>
      exact (by decide : "E_UNBALANCED_GROUP".toText ≠ "E_INVALID_TEMPLATE".toText)
    | nestedGroup => exact (by decide : "E_MALFORMED_GROUP".toText ≠ "E_INVALID_TEMPLATE".toText)
    | malformedSlot => exact (by decide : "E_MALFORMED_SLOT".toText ≠ "E_INVALID_TEMPLATE".toText)
    | emptyGroup => exact (by decide : "E_EMPTY_ALTERNATION".toText ≠ "E_INVALID_TEMPLATE".toText)

namespace Corpus.Skip

def place (s : Skip) : Option Text × Text :=
  (s.diagnostic none).place

@[simp]
lemma place_diagnostic (file : Option Text) (s : Skip) : (s.diagnostic file).place = s.place := by
  cases s <;> rfl

/-- The places that counting has for what a corpus leaves out. An item that is no text is expanded
all the same. -/
def counted : Skip → List (Option Text × Text)
  | item path d =>
    match Request.count d with
    | .ok _ => []
    | .error f => [(some path, f.code)]
  | s => [s.place]

lemma counted_eq {s : Skip} (h : ∀ path d, s ≠ item path d) : s.counted = [s.place] := by
  cases s with
  | item path d => exact absurd rfl (h path d)
  | _ => rfl

/-- Counting has no diagnostic of the code that a corpus has for items that are no texts. -/
lemma code_ne_of_mem_counted {s : Skip} {p : Option Text × Text} (h : p ∈ s.counted) :
    p.2 ≠ "E_INVALID_TEMPLATE".toText := by
  cases s with
  | nameless =>
    rw [List.mem_singleton.1 h]
    exact (by decide : "E_INVALID_INTENT_NAME".toText ≠ "E_INVALID_TEMPLATE".toText)
  | shapeless =>
    rw [List.mem_singleton.1 h]
    exact (by decide : "E_INVALID_TEMPLATES".toText ≠ "E_INVALID_TEMPLATE".toText)
  | item path d =>
    cases hcount : Request.count d with
    | ok n => simp [counted, hcount] at h
    | error f =>
      rw [counted, hcount] at h
      rw [List.mem_singleton.1 h]
      exact f.code_ne
  | template path f =>
    rw [List.mem_singleton.1 h]
    exact f.code_ne

lemma ofTemplate_eq_item_iff {path path' : Text} {d d' : Datum} :
    ofTemplate path d = some (item path' d') ↔ d.isText = false ∧ path = path' ∧ d = d' := by
  unfold ofTemplate Datum.isText
  split
  · split <;> simp
  · simp

/-- The items that are left out for what they are. -/
lemma exists_item_iff {entries : Entries} :
    (∃ path d, item path d ∈ entries.flatMap ofEntry) ↔
      ∃ i ∈ Lint.intents entries, ∃ d ∈ i.templates, d.isText = false := by
  constructor
  · rintro ⟨path, d, hitem⟩
    obtain ⟨e, he, hitem⟩ := List.mem_flatMap.1 hitem
    cases entryKind e with
    | @intent name value ds hds =>
      rw [ofEntry_of_intent hds, List.reduceOption_mem_iff, List.mem_mapIdx] at hitem
      obtain ⟨j, hj, hskip⟩ := hitem
      exact ⟨⟨name, ds, Lint.generated ds⟩, Lint.mem_intents.2 ⟨value, he, hds, rfl⟩, ds[j],
        List.getElem_mem hj, (ofTemplate_eq_item_iff.1 hskip).1⟩
    | shapeless hds => simp [ofEntry_of_shapeless hds] at hitem
    | nameless hkey => simp [ofEntry_of_nameless hkey] at hitem
  · rintro ⟨i, hi, d, hd, htext⟩
    obtain ⟨value, he, hds, -⟩ := Lint.mem_intents.1 hi
    obtain ⟨j, hj, rfl⟩ := List.mem_iff_getElem.1 hd
    exact ⟨_, _, List.mem_flatMap_of_mem he (mem_ofEntry hds (List.getElem?_eq_getElem hj)
      (ofTemplate_eq_item_iff.2 ⟨htext, rfl, rfl⟩))⟩

end Corpus.Skip

namespace Command

open Corpus (Skip)

lemma place_located (f : Request.Fault) (file path : Text) :
    ((Diagnostic.ofRequest f).located (some file) (some path)).place = (some path, f.code) := by
  cases f <;> rfl

lemma places_of_item (file path : Text) (d : Datum) :
    (itemError file path d).toList.map Diagnostic.place =
      (Skip.ofTemplate path d).toList.flatMap Skip.counted := by
  unfold Skip.ofTemplate
  split
  · rename_i t
    rw [itemError, Request.count_eq_map_length]
    cases Request.expand (.text t) with
    | ok phrases => rfl
    | error f => exact congrArg (fun place => [place]) (place_located f file path)
  · rw [itemError]
    cases h : Request.count d <;> simp [Skip.counted, h, place_located]

lemma places_of_row (file : Text) (path : Nat → Text) (ds : List Datum) :
    (ds.mapIdx fun j d => itemError file (path j) d).reduceOption.map Diagnostic.place =
      (ds.mapIdx fun j d => Skip.ofTemplate (path j) d).reduceOption.flatMap Skip.counted := by
  induction ds generalizing path with
  | nil => rfl
  | cons d ds ih =>
    rw [List.mapIdx_cons, List.mapIdx_cons, reduceOption_cons, reduceOption_cons, List.map_append,
      List.flatMap_append, places_of_item, ih]

lemma places_of_entry (file : Text) (e : Key × Datum) :
    (entryErrors file e).map Diagnostic.place = (Skip.ofEntry e).flatMap Skip.counted := by
  cases Corpus.entryKind e with
  | @intent name value ds h =>
    rw [Skip.ofEntry_of_intent h]
    simp only [entryErrors, h]
    exact places_of_row file (Corpus.templatePath (.text name) value) ds
  | shapeless h =>
    rw [Skip.ofEntry_of_shapeless h]
    simp only [entryErrors, h]
    rfl
  | @nameless key value h =>
    rw [Skip.ofEntry_of_nameless h]
    dsimp only [entryErrors]
    split
    · exact absurd rfl (h _)
    · exact absurd rfl (h _)
    · rfl

/-- Counting has its diagnostics for what a corpus leaves out, in the same order. -/
theorem places_tallied (file : Text) (entries : Entries) :
    (tallied file entries).map Diagnostic.place =
      (entries.flatMap Skip.ofEntry).flatMap Skip.counted := by
  rw [tallied_eq, List.map_flatMap, List.flatMap_assoc]
  simp only [places_of_entry]

lemma tallied_eq_nil (file : Text) {entries : Entries} (h : entries.flatMap Skip.ofEntry = []) :
    tallied file entries = [] := by
  rw [← List.map_eq_nil_iff (f := Diagnostic.place), places_tallied, h, List.flatMap_nil]

/-- Counting a file fails just when the corpus of the file has diagnostics, and has diagnostics of
the same codes at the same paths. -/
structure DiagnosedAsBuilt (yaml : Load.YamlReader) (files : Load.Source) (path : Text)
    (entries : Entries) : Prop where
  exit : (stats yaml files path).exit = 2 ↔
    (Corpus.build (some path) (.map entries)).errors ≠ []
  places : ((tallied path entries).map Diagnostic.place).Perm
    ((Corpus.build (some path) (.map entries)).errors.map Diagnostic.place)

/-- A command line prints counts and then these diagnostics. Where every text is printed, they are
what is printed to the stream of errors. -/
structure Prints (packages : Packages) (files : Load.Source) (line : List Text) (exit : Nat)
    (errors : List Diagnostic) : Prop where
  script : ∃ counts total, run packages files line =
    Script.perform packages.echo ⟨countPieces counts total ++ printErrors errors, exit⟩
  output : packages.PrintsPlainly → ∃ stdout,
    run packages files line = .done ⟨exit, stdout, diagnosticLines errors⟩

section Output

variable {yaml : Load.YamlReader} {files : Load.Source} {path : Text} {entries : Entries}

lemma exit_of_load (h : Load.load yaml files path = .ok entries) :
    (stats yaml files path).exit = if tallied path entries = [] then 0 else 2 := by
  rw [stats_of_load h, countScript]

lemma diagnosedAsBuilt_of_perm (h : Load.load yaml files path = .ok entries)
    (hplaces : ((tallied path entries).map Diagnostic.place).Perm
      ((Corpus.build (some path) (.map entries)).errors.map Diagnostic.place)) :
    DiagnosedAsBuilt yaml files path entries where
  exit := by
    have hlength := hplaces.length_eq
    rw [List.length_map, List.length_map] at hlength
    rw [exit_of_load h, ← List.length_pos_iff, ← hlength, List.length_pos_iff]
    split_ifs with hnil <;> simp [hnil]
  places := hplaces

end Output

section Run

variable {packages : Packages} {files : Load.Source} {path : Text} {line : List Text}
  {entries : Entries} (hline : packages.commandLine line = .ok (.stats path))
  (h : Load.load packages.yaml files path = .ok entries)
include hline h

lemma prints_tallied : Prints packages files line (stats packages.yaml files path).exit
    (tallied path entries) := by
  have hscript : run packages files line =
      (stats packages.yaml files path).perform packages.echo := run_of_line hline
  have hrun := hscript.trans (congrArg (Script.perform packages.echo) (stats_of_load h))
  have hexit : (stats packages.yaml files path).exit = if tallied path entries = [] then 0 else 2 :=
    exit_of_load h
  rw [hexit]
  refine ⟨⟨_, _, hrun⟩, fun hplain => ?_⟩
  rw [hrun, perform_of_plain hplain, shown_err_countScript]
  exact ⟨_, rfl⟩

/-- Counting diagnoses a file as building its corpus does just when the mapping is not empty and the
items of its intents are texts. -/
theorem diagnosedAsBuilt_iff :
    Prints packages files line (stats packages.yaml files path).exit (tallied path entries) ∧
      (DiagnosedAsBuilt packages.yaml files path entries ↔
        entries ≠ [] ∧ ∀ i ∈ Lint.intents entries, ∀ d ∈ i.templates, d.isText = true) := by
  refine ⟨prints_tallied hline h, fun hagree => ⟨?_, ?_⟩, ?_⟩
  · rintro rfl
    exact absurd hagree.places.length_eq (by simp [tallied, Corpus.build, Corpus.Report.rejected])
  · by_contra hitem
    obtain ⟨p, d, hskip⟩ := Skip.exists_item_iff.2 (by simpa using hitem)
    have hbuilt : (Skip.item p d).place ∈
        (Corpus.build (some path) (.map entries)).errors.map Diagnostic.place := by
      obtain ⟨e, he, hskip⟩ := List.mem_flatMap.1 hskip
      rw [← Skip.place_diagnostic (some path)]
      exact List.mem_map_of_mem (Corpus.diagnostic_mem_errors he hskip)
    rw [← hagree.places.mem_iff, places_tallied] at hbuilt
    obtain ⟨s, -, hcounted⟩ := List.mem_flatMap.1 hbuilt
    exact Skip.code_ne_of_mem_counted hcounted rfl
  · rintro ⟨hne, htexts⟩
    have hskips : ∀ s ∈ entries.flatMap Skip.ofEntry, s.counted = [s.place] := by
      refine fun s hs => Skip.counted_eq fun p d hitem => ?_
      obtain ⟨i, hi, d, hd, htext⟩ := Skip.exists_item_iff.1 ⟨p, d, hitem ▸ hs⟩
      rw [htexts i hi d hd] at htext
      exact Bool.noConfusion htext
    refine diagnosedAsBuilt_of_perm h (List.Perm.of_eq ?_)
    rw [places_tallied, Corpus.errors_map _ hne, List.map_map, List.map_eq_flatMap,
      List.flatMap_congr hskips]
    simp only [Function.comp_apply, Skip.place_diagnostic]

end Run

/-- Templates that are not closed or nested, a value that holds no templates, and an empty row. -/
theorem diagnosedAsBuilt_of_texts : ∃ entries,
    Packages.plain.commandLine ["stats".toText, "i.json".toText] = .ok (.stats "i.json".toText) ∧
    Load.load Packages.plain.yaml
      (oneFile "\x7b\"a\": [\"(x|y) z\", \"(\", \"((b c))\"], \"b\": 1, \"c\": []\x7d")
      "i.json".toText = .ok entries ∧
    Prints Packages.plain
      (oneFile "\x7b\"a\": [\"(x|y) z\", \"(\", \"((b c))\"], \"b\": 1, \"c\": []\x7d")
      ["stats".toText, "i.json".toText] 2 (tallied "i.json".toText entries) ∧
    DiagnosedAsBuilt Packages.plain.yaml
      (oneFile "\x7b\"a\": [\"(x|y) z\", \"(\", \"((b c))\"], \"b\": 1, \"c\": []\x7d")
      "i.json".toText entries ∧
    (tallied "i.json".toText entries).map Diagnostic.place =
      [(some "intents.a[1]".toText, "E_UNBALANCED_GROUP".toText),
        (some "intents.a[2]".toText, "E_MALFORMED_GROUP".toText),
        (some "intents.b".toText, "E_INVALID_TEMPLATES".toText)] := by
  have hload : (Load.load Packages.plain.yaml
      (oneFile "\x7b\"a\": [\"(x|y) z\", \"(\", \"((b c))\"], \"b\": 1, \"c\": []\x7d")
      "i.json".toText).toOption.map (fun entries =>
        (decide (entries ≠ [] ∧ ∀ i ∈ Lint.intents entries, ∀ d ∈ i.templates, d.isText = true),
          (tallied "i.json".toText entries).map Diagnostic.place)) =
      some (true, [(some "intents.a[1]".toText, "E_UNBALANCED_GROUP".toText),
        (some "intents.a[2]".toText, "E_MALFORMED_GROUP".toText),
        (some "intents.b".toText, "E_INVALID_TEMPLATES".toText)]) := by
    decide +kernel
  obtain ⟨entries, hentries, hboth⟩ := exists_loaded hload
  obtain ⟨htexts, hplaces⟩ := Prod.mk.inj hboth
  have hline : Packages.plain.commandLine ["stats".toText, "i.json".toText] =
      .ok (.stats "i.json".toText) := rfl
  obtain ⟨hprints, hagree⟩ := diagnosedAsBuilt_iff hline hentries
  have hexit := exit_of_load hentries
  rw [if_neg (fun hnil => by simp [hnil] at hplaces)] at hexit
  exact ⟨entries, hline, hentries, hexit ▸ hprints, hagree.2 (of_decide_eq_true htexts), hplaces⟩

/-- The places that counting and building have for a mapping. -/
def places (path : Text) (entries : Entries) :
    List (Option Text × Text) × List (Option Text × Text) :=
  ((tallied path entries).map Diagnostic.place,
    (Corpus.build (some path) (.map entries)).errors.map Diagnostic.place)

lemma exists_not_diagnosedAsBuilt {yaml : Load.YamlReader} {files : Load.Source} {path : Text}
    {ps qs : List (Option Text × Text)}
    (h : (Load.load yaml files path).toOption.map (places path) = some (ps, qs))
    (hperm : ¬ps.Perm qs) : ∃ entries, Load.load yaml files path = .ok entries ∧
      ¬DiagnosedAsBuilt yaml files path entries := by
  obtain ⟨entries, hentries, hplaces⟩ := exists_loaded h
  obtain ⟨htallied, hbuilt⟩ := Prod.mk.inj hplaces
  exact ⟨entries, hentries, fun hagree => hperm (htallied ▸ hbuilt ▸ hagree.places)⟩

/-- A row inside a row is no fault to counting, and a number is another one to it than to building.
Only building minds an empty mapping. -/
theorem not_diagnosedAsBuilt_of_row_in_row :
    (∃ entries, Load.load Packages.standard.yaml (oneFile "\x7b\"k\": [[\"a\"]]\x7d")
        "i.json".toText = .ok entries ∧
      ¬DiagnosedAsBuilt Packages.standard.yaml (oneFile "\x7b\"k\": [[\"a\"]]\x7d")
        "i.json".toText entries) ∧
    (∃ entries, Load.load Packages.standard.yaml (oneFile "\x7b\"k\": [5]\x7d") "i.json".toText =
        .ok entries ∧
      ¬DiagnosedAsBuilt Packages.standard.yaml (oneFile "\x7b\"k\": [5]\x7d") "i.json".toText
        entries) ∧
    ∃ entries, Load.load Packages.standard.yaml (oneFile "\x7b\x7d") "i.json".toText =
        .ok entries ∧
      ¬DiagnosedAsBuilt Packages.standard.yaml (oneFile "\x7b\x7d") "i.json".toText entries := by
  have hrow : (Load.load Packages.standard.yaml (oneFile "\x7b\"k\": [[\"a\"]]\x7d")
      "i.json".toText).toOption.map (places "i.json".toText) =
      some ([], [(some "intents.k[0]".toText, "E_INVALID_TEMPLATE".toText)]) := by
    decide +kernel
  have hnumber : (Load.load Packages.standard.yaml (oneFile "\x7b\"k\": [5]\x7d")
      "i.json".toText).toOption.map (places "i.json".toText) =
      some ([(some "intents.k[0]".toText, "E_INVALID_INPUT".toText)],
        [(some "intents.k[0]".toText, "E_INVALID_TEMPLATE".toText)]) := by
    decide +kernel
  have hempty : (Load.load Packages.standard.yaml (oneFile "\x7b\x7d")
      "i.json".toText).toOption.map (places "i.json".toText) =
      some ([], [(some "intents".toText, "E_NO_INTENTS".toText)]) := by
    decide +kernel
  exact ⟨exists_not_diagnosedAsBuilt hrow (by simp),
    exists_not_diagnosedAsBuilt hnumber (by decide +kernel),
    exists_not_diagnosedAsBuilt hempty (by simp)⟩

end Command

end Phrasebook
