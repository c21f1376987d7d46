import Mathlib.Data.List.Permutation
import Phrasebook.Proofs.Formats

/-!
# Wrapped mappings

An intents file holds a mapping, or the mapping under the one name `intents`. Loading takes off one
such wrapper and no more, and otherwise gives the mapping as it stands. A command learns of a file
only what loading makes of it (`run_congr`), so its output tells nothing about the wrapper
(`wrapper_is_invisible`).
-/

namespace Phrasebook

namespace Load

/-- A mapping under the one name `intents`. -/
def wrap (entries : Entries) : Entries :=
  [(.text "intents".toText, .map entries)]

lemma intentsOf_wrap (path : Path) (entries : Entries) :
    intentsOf path (.map (wrap entries)) = .ok entries :=
  rfl

lemma intentsOf_map (path : Path) {entries : Entries}
    (h : entries.map Prod.fst ≠ [.text "intents".toText]) :
    intentsOf path (.map entries) = .ok entries := by
  have hunwrap : unwrap path (.map entries) = .ok (.map entries) := by
    unfold unwrap
    split
    · rename_i value heq
      obtain rfl := Datum.map.inj heq
      exact absurd rfl h
    · rfl
  simp only [intentsOf, hunwrap]
  rfl

lemma load_of_document {yaml : YamlReader} {files : Source} {t : Text} {document : Datum}
    (h : readDocument yaml files (Path.ofText t) = .ok document) :
    load yaml files t = intentsOf (Path.ofText t) document := by
  rw [load, h]
  rfl

lemma readDocument_json {yaml : YamlReader} {files : Source} {path : Path} {text : Text} {j : Json}
    (hformat : Format.ofSuffix? path.suffix = some .json) (htext : readText files path = .ok text)
    (hread : Json.read text = .ok j) : readDocument yaml files path = .ok j.toDatum := by
  simp only [readDocument, htext, Bind.bind, Except.bind, hformat, hread]

end Load

namespace Command

section Files

variable {files files' : Load.Source}

/-- A command learns of files only what loading makes of the one at its path. -/
theorem Invocation.script_congr {yaml : Load.YamlReader} {i : Invocation}
    (h : ∀ t, i.path? = some t → Load.load yaml files t = Load.load yaml files' t) :
    i.script yaml files = i.script yaml files' := by
  cases i with
  | generate path strict format verbose =>
    have hgenerate : Command.generate yaml files path strict verbose =
        Command.generate yaml files' path strict verbose := by
      funext format
      simp only [Command.generate, h path rfl]
    simp only [Invocation.script, hgenerate]
  | lint path format verbose =>
    have hlint : Command.lint yaml files path verbose = Command.lint yaml files' path verbose := by
      funext format
      simp only [Command.lint, h path rfl]
    simp only [Invocation.script, hlint]
  | stats path => simp only [Invocation.script, Command.stats, h path rfl]
  | expand templates => rfl

theorem run_congr {packages : Packages} {line : List Text}
    (h : ∀ i t, packages.commandLine line = .ok i → i.path? = some t →
      Load.load packages.yaml files t = Load.load packages.yaml files' t) :
    run packages files line = run packages files' line := by
  cases hline : packages.commandLine line with
  | ok i =>
    rw [run_of_line hline, run_of_line hline, Invocation.script_congr fun t => h i t hline]
  | error reply => rw [run, run, hline]

end Files

/-- A command line that reads no file but that of a path. -/
def ReadsOnly (packages : Packages) (path : Path) (line : List Text) : Prop :=
  ∀ i t, packages.commandLine line = .ok i → i.path? = some t → Path.ofText t = path

lemma readsOnly_of_line {packages : Packages} {line : List Text} {i : Invocation} {t : Text}
    (hline : packages.commandLine line = .ok i) (ht : i.path? = some t) :
    ReadsOnly packages (Path.ofText t) line := by
  intro i' t' hi' ht'
  obtain rfl := Except.ok.inj (hline.symm.trans hi')
  obtain rfl := Option.some.inj (ht.symm.trans ht')
  rfl

/-- Loading a wrapped mapping gives the mapping, its entries in order, even if it looks like a
wrapper itself. If it does not, every command line ends in the same way and prints the same, whether
the file that it reads holds the mapping or the wrapped mapping. -/
theorem wrapper_is_invisible {packages : Packages} {wrapped : Load.Source} {path : Path}
    {entries : Entries}
    (h : Load.readDocument packages.yaml wrapped path = .ok (.map (Load.wrap entries))) :
    (∀ t, Path.ofText t = path → Load.load packages.yaml wrapped t = .ok entries) ∧
      ∀ bare, Load.readDocument packages.yaml bare path = .ok (.map entries) →
        entries.map Prod.fst ≠ [.text "intents".toText] →
          ∀ line, ReadsOnly packages path line →
            run packages bare line = run packages wrapped line := by
  have hload : ∀ t, Path.ofText t = path → Load.load packages.yaml wrapped t = .ok entries := by
    rintro t rfl
    rw [Load.load_of_document h, Load.intentsOf_wrap]
  refine ⟨hload, fun bare hbare hkeys line hline => run_congr fun i t hi ht => ?_⟩
  obtain rfl := hline i t hi ht
  rw [hload t rfl, Load.load_of_document hbare, Load.intentsOf_map _ hkeys]

/-- A mapping in which one of two intents is itself named `intents`. -/
theorem wrapper_is_invisible_named :
    Load.readDocument Packages.standard.yaml
        (oneFile "\x7b\"intents\": \x7b\"intents\": \"a\", \"k\": null\x7d\x7d")
        (Path.ofText "i.json".toText) =
      .ok (.map (Load.wrap [(.text "intents".toText, .text "a".toText),
        (.text "k".toText, .null)])) ∧
    Load.load Packages.standard.yaml
        (oneFile "\x7b\"intents\": \x7b\"intents\": \"a\", \"k\": null\x7d\x7d")
        "i.json".toText =
      .ok [(.text "intents".toText, .text "a".toText), (.text "k".toText, .null)] ∧
    Load.readDocument Packages.standard.yaml (oneFile "\x7b\"intents\": \"a\", \"k\": null\x7d")
        (Path.ofText "i.json".toText) =
      .ok (.map [(.text "intents".toText, .text "a".toText),
        (.text "k".toText, .null)]) ∧
    ReadsOnly Packages.standard (Path.ofText "i.json".toText)
      ["lint".toText, "i.json".toText, "-v".toText] ∧
    run Packages.standard (oneFile "\x7b\"intents\": \"a\", \"k\": null\x7d")
        ["lint".toText, "i.json".toText, "-v".toText] =
      run Packages.standard
        (oneFile "\x7b\"intents\": \x7b\"intents\": \"a\", \"k\": null\x7d\x7d")
        ["lint".toText, "i.json".toText, "-v".toText] := by
  have hformat : Load.Format.ofSuffix? (Path.ofText "i.json".toText).suffix = some .json := by
    decide +kernel
  have hjson : Json.read "\x7b\"intents\": \"a\", \"k\": null\x7d".toText =
      .ok (.object [("intents".toText, .text "a".toText), ("k".toText, .null)]) := by
    cbv
  have hjsonWrapped :
      Json.read "\x7b\"intents\": \x7b\"intents\": \"a\", \"k\": null\x7d\x7d".toText =
      .ok (.object [("intents".toText,
        .object [("intents".toText, .text "a".toText), ("k".toText, .null)])]) := by
    cbv
  have hbare : Load.readDocument Packages.standard.yaml
      (oneFile "\x7b\"intents\": \"a\", \"k\": null\x7d") (Path.ofText "i.json".toText) =
      .ok (.map [(.text "intents".toText, .text "a".toText),
        (.text "k".toText, .null)]) :=
    Load.readDocument_json hformat (by decide +kernel) hjson
  have hwrapped : Load.readDocument Packages.standard.yaml
      (oneFile "\x7b\"intents\": \x7b\"intents\": \"a\", \"k\": null\x7d\x7d")
      (Path.ofText "i.json".toText) = .ok (.map (Load.wrap
        [(.text "intents".toText, .text "a".toText), (.text "k".toText, .null)])) :=
    Load.readDocument_json hformat (by decide +kernel) hjsonWrapped
  have hline : Packages.standard.commandLine ["lint".toText, "i.json".toText, "-v".toText] =
      .ok (.lint "i.json".toText "text".toText true) := rfl
  have hreads := readsOnly_of_line hline rfl
  exact ⟨hwrapped, (wrapper_is_invisible hwrapped).1 _ rfl, hbare, hreads,
    (wrapper_is_invisible hwrapped).2 _ hbare (by simp) _ hreads⟩

end Command

end Phrasebook
