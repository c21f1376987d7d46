import Mathlib.Data.List.ReduceOption
import Phrasebook.Proofs.Performing
import Phrasebook.Proofs.Tallying

/-!
# Text and JSON tell the same story

A report lists as items what the other format prints as lines. Each item has the parts of its line
(`itemLine?_itemJson`), the items stand in the order of the lines, and what the report says besides
follows from them (`SameStory`). A command goes its own way in each format, but both ways emit what
it finds (`generate_text`, `generate_json`, `lint_text`, `lint_json`), so every two runs of
`generate` or of `lint` that differ in the format alone agree (`formats_agree`).
-/

namespace Phrasebook.Command

/-- The text that a member of an object is. -/
def textMember? (name : String) (item : Json) : Option Text :=
  match item.member? name.toText with
  | some (.text t) => some t
  | _ => none

/-- The line that an item of a report stands for: the file and the path as far as they are known,
the code, and the message. -/
def itemLine? (item : Json) : Option Text := do
  let code ← textMember? "code" item
  let message ← textMember? "message" item
  let places := [textMember? "file" item, textMember? "path" item].reduceOption.filter (· ≠ [])
  let place := if places = [] then "<intents>".toText else [char ':'].intercalate places
  some (place ++ ": ".toText ++ code ++ ": ".toText ++ message ++ [char '\n'])

section Item

variable (d : Diagnostic)

def itemMembers : List (Text × Json) :=
  match itemJson d with
  | .object members => members
  | _ => []

lemma nodup_itemMembers : ((itemMembers d).map Prod.fst).Nodup := by
  have hnames : ["code".toText, "message".toText, "file".toText, "path".toText,
      "severity".toText, "source".toText].Nodup := by
    decide
  exact hnames

lemma textMember?_itemJson {name : String} {t : Option Text}
    (hmem : (name.toText, optionalJson t) ∈ itemMembers d) :
    textMember? name (itemJson d).inOrder = t := by
  have hmember : (itemJson d).inOrder.member? name.toText = some (optionalJson t).inOrder :=
    Json.member?_inOrder (nodup_itemMembers d) hmem
  rw [textMember?, hmember]
  cases t <;> rfl

lemma filter_reduceOption (s t : Option Text) :
    [s, t].reduceOption.filter (· ≠ []) =
      (Diagnostic.known s).toList ++ (Diagnostic.known t).toList := by
  have hone (s : Option Text) : [s].reduceOption.filter (· ≠ []) = (Diagnostic.known s).toList := by
    cases s with
    | none => rfl
    | some s =>
      by_cases hs : s = [] <;> simp [Diagnostic.known, hs, List.reduceOption, Option.filter]
  rw [← List.singleton_append, List.reduceOption_append, List.filter_append, hone, hone]

/-- An item has all that the line of its diagnostic is made of. -/
theorem itemLine?_itemJson : itemLine? (itemJson d).inOrder = some (d.render ++ [char '\n']) := by
  have hcode : textMember? "code" (itemJson d).inOrder = some d.code :=
    textMember?_itemJson d (List.mem_of_getElem? (i := 0) rfl)
  have hmessage : textMember? "message" (itemJson d).inOrder = some d.message :=
    textMember?_itemJson d (List.mem_of_getElem? (i := 1) rfl)
  have hfile : textMember? "file" (itemJson d).inOrder = d.file :=
    textMember?_itemJson d (List.mem_of_getElem? (i := 2) rfl)
  have hpath : textMember? "path" (itemJson d).inOrder = d.path :=
    textMember?_itemJson d (List.mem_of_getElem? (i := 3) rfl)
  rw [itemLine?, hcode, hmessage, hfile, hpath, filter_reduceOption]
  rfl

end Item

lemma mapM_itemLine? (ds : List Diagnostic) :
    (ds.map fun d => (itemJson d).inOrder).mapM itemLine? =
      some (ds.map fun d => d.render ++ [char '\n']) := by
  have hsome : ∀ item ∈ ds.map fun d => (itemJson d).inOrder, (itemLine? item).isSome = true := by
    intro item hitem
    obtain ⟨d, -, rfl⟩ := List.mem_map.1 hitem
    rw [itemLine?_itemJson]
    rfl
  rw [Json.mapM_eq_filterMap hsome, List.filterMap_map]
  simp only [Function.comp_def, itemLine?_itemJson, List.filterMap_eq_map']

/-- A report lists items, and says how many they are and whether there are none. -/
structure Lists (document : Json) (items : List Json) : Prop where
  errors : document.member? "errors".toText = some (.array items)
  count : document.member? "error_count".toText = some (.int items.length)
  ok : document.member? "ok".toText = some (.bool (items = []))

section Report

variable {command : String} {ok : Bool} {errors : List Diagnostic} {more : List (Text × Json)}

def reportMembers (command : String) (ok : Bool) (errors : List Diagnostic)
    (more : List (Text × Json)) : List (Text × Json) :=
  match reportJson command ok errors more with
  | .object members => members
  | _ => []

section Integral

variable {fits : Int → Prop} {sound : Text → Prop} (hsound : ∀ s : String, sound s.toText)

lemma integral_optionalJson {t : Option Text} (h : ∀ s ∈ t, sound s) :
    (optionalJson t).Integral fits sound := by
  cases t with
  | none => exact .null
  | some t => exact .text (h t rfl)

/-- The texts of a diagnostic. -/
def texts (d : Diagnostic) : List Text :=
  [d.code, d.message] ++ d.file.toList ++ d.path.toList

include hsound

lemma integral_itemJson {d : Diagnostic} (h : ∀ t ∈ texts d, sound t) :
    (itemJson d).Integral fits sound := by
  have hsource : sound (sourceName d) := by
    unfold sourceName
    split_ifs <;> exact hsound _
  have hseverity : sound (if isRemark d then "warning".toText else "error".toText) := by
    split_ifs <;> exact hsound _
  refine .object ?_ ?_
  · simp only [List.forall_mem_cons]
    exact ⟨hsound _, hsound _, hsound _, hsound _, hsound _, hsound _, List.forall_mem_nil _⟩
  · simp only [List.forall_mem_cons]
    exact ⟨.text (h _ (by simp [texts])), .text (h _ (by simp [texts])),
      integral_optionalJson fun t ht => h t (by simp_all [texts]),
      integral_optionalJson fun t ht => h t (by simp_all [texts]), .text hseverity,
      .text hsource, List.forall_mem_nil _⟩

lemma integral_reportJson (hcount : fits errors.length)
    (herrors : ∀ d ∈ errors, ∀ t ∈ texts d, sound t)
    (hmore : ∀ m ∈ more, sound m.1 ∧ m.2.Integral fits sound) :
    (reportJson command ok errors more).Integral fits sound := by
  refine .object ?_ ?_
  · simp only [List.cons_append, List.nil_append, List.forall_mem_cons]
    exact ⟨hsound _, hsound _, hsound _, hsound _, hsound _, fun m hm => (hmore m hm).1⟩
  · simp only [List.cons_append, List.nil_append, List.forall_mem_cons]
    refine ⟨.text (hsound _), .text (hsound _), .bool _, .int hcount,
      .array fun item hitem => ?_, fun m hm => (hmore m hm).2⟩
    obtain ⟨d, hd, rfl⟩ := List.mem_map.1 hitem
    exact integral_itemJson hsound (herrors d (List.mem_mergeSort.1 hd))

end Integral

variable (hnames : ((reportMembers command ok errors more).map Prod.fst).Nodup)
include hnames

lemma member?_reportJson {name : Text} {j : Json}
    (hmem : (name, j) ∈ reportMembers command ok errors more) :
    (reportJson command ok errors more).inOrder.member? name = some j.inOrder :=
  Json.member?_inOrder hnames hmem

lemma lists_reportJson (hok : ok = decide (errors = [])) :
    Lists (reportJson command ok errors more).inOrder
      ((Diagnostic.sort errors).map fun d => (itemJson d).inOrder) where
  errors := by
    rw [member?_reportJson hnames (List.mem_of_getElem? (i := 4) rfl), Json.inOrder_array,
      List.map_map]
    rfl
  count := by
    rw [member?_reportJson hnames (List.mem_of_getElem? (i := 3) rfl), List.length_map,
      Diagnostic.sort, List.length_mergeSort]
    rfl
  ok := by
    rw [member?_reportJson hnames (List.mem_of_getElem? (i := 2) rfl)]
    simp only [List.map_eq_nil_iff, Diagnostic.sort_eq_nil, hok]
    rfl

end Report

/-- Two outputs of a command, one in text and one a JSON document, say the same: the lines of the
one are those of the items of the other. -/
structure SameStory (text json : Output) (document : Json) : Prop where
  exit : json.exit = text.exit
  quiet : json.stderr = []
  written : IsPrintedAs json.stdout document
  errors : ∃ items, Lists document items ∧
    (items.mapM itemLine?).map (List.flatMap Text.stripAnsi) = some text.stderr

/-- A document has the corpus that is printed, and none if the command fails. -/
structure SameCorpus (text : Output) (document : Json) : Prop where
  failed : text.exit ≠ 0 → document.member? "corpus".toText = some .null ∧ text.stdout = []
  done : text.exit = 0 → ∃ corpus, document.member? "corpus".toText = some (.text corpus) ∧
    text.stdout = Text.stripAnsi corpus

lemma sameStory_of_report {command : String} {ok : Bool} {errors : List Diagnostic}
    {more : List (Text × Json)} (hok : ok = decide (errors = []))
    (hmore : ∀ m ∈ more, m.2.Integral (fun _ => True) fun _ => True)
    (hnames : ((reportMembers command ok errors more).map Prod.fst).Nodup) (exit : Nat)
    (stdout : Text) :
    SameStory ⟨exit, stdout, diagnosticLines errors⟩
      ⟨exit, printedLine (reportJson command ok errors more).print, []⟩
      (reportJson command ok errors more).inOrder where
  exit := rfl
  quiet := rfl
  written := by
    have hreport : (reportJson command ok errors more).Integral (fun _ => True) fun _ => True :=
      integral_reportJson (fun _ => trivial) trivial (fun _ _ _ _ => trivial)
        fun m hm => ⟨trivial, hmore m hm⟩
    rw [printedLine_print hreport]
    exact isPrintedAs_inOrder hreport
  errors := by
    refine ⟨_, lists_reportJson hnames hok, ?_⟩
    rw [mapM_itemLine?, Option.map_some, List.flatMap_map]
    rfl

/-- What generating finds, whatever the format. -/
structure Generation where
  errors : List Diagnostic
  /-- The corpus, unless the command fails. -/
  corpus : Option Text
  lineCount : Nat
  exit : Nat
  log : List LogRecord

def Generation.ofFile (yaml : Load.YamlReader) (files : Load.Source) (path : Text)
    (strict : Bool) : Generation :=
  match Load.load yaml files path with
  | .error e => ⟨[e], none, 0, 1, []⟩
  | .ok intents =>
    let report := Corpus.build (some path) (.map intents)
    if strict && !report.errors.isEmpty then ⟨report.errors, none, 0, 2, report.log⟩
    else ⟨report.errors, some report.corpus, report.lineCount, 0, report.log⟩

/-- What linting finds, whatever the format. -/
structure Inspection where
  errors : List Diagnostic
  /-- The line that is printed if nothing is wrong. -/
  summary : Text
  exit : Nat
  log : List LogRecord

def Inspection.ofFile (yaml : Load.YamlReader) (files : Load.Source) (path : Text) : Inspection :=
  match Load.load yaml files path with
  | .error e => ⟨[e], [], 1, []⟩
  | .ok intents =>
    let report := Corpus.build (some path) (.map intents)
    let errors := Diagnostic.sort (report.errors ++ Lint.findings (some path) (.map intents))
    ⟨errors, "OK: ".toText ++ Text.ofNat intents.length ++ " intents, ".toText ++
      Text.ofNat report.lineCount ++ " phrases".toText, if errors = [] then 0 else 2, report.log⟩

section Emission

variable (yaml : Load.YamlReader) (files : Load.Source) (path : Text) (strict verbose : Bool)

def Generation.more (g : Generation) : List (Text × Json) :=
  [("corpus".toText, optionalJson g.corpus), ("line_count".toText, .int g.lineCount)]

/-- In text, generating prints its diagnostics and the corpus, if there is one. -/
theorem generate_text :
    generate yaml files path strict verbose .text =
      let g := Generation.ofFile yaml files path strict
      Script.after (logPieces verbose g.log)
        ⟨printErrors g.errors ++ g.corpus.toList.map (Piece.echo .out), g.exit⟩ := by
  unfold generate Generation.ofFile
  cases Load.load yaml files path with
  | error e => simp [logPieces, Script.after]
  | ok intents =>
    dsimp only
    split_ifs <;> simp_all

/-- In JSON, generating prints a report of the same diagnostics and the same corpus. -/
theorem generate_json :
    generate yaml files path strict verbose .json =
      let g := Generation.ofFile yaml files path strict
      Script.after (logPieces verbose g.log)
        (emitJson "generate" (g.errors = []) g.errors g.exit g.more) := by
  unfold generate Generation.ofFile
  cases Load.load yaml files path with
  | error e => simp [logPieces, Script.after, Generation.more, optionalJson]
  | ok intents =>
    dsimp only
    split_ifs <;> simp_all [Corpus.Report.ok, Generation.more, optionalJson]

theorem lint_text :
    lint yaml files path verbose .text =
      let i := Inspection.ofFile yaml files path
      Script.after (logPieces verbose i.log)
        ⟨if i.errors = [] then [echoLine .out i.summary] else printErrors i.errors, i.exit⟩ := by
  unfold lint Inspection.ofFile
  cases Load.load yaml files path with
  | error e => simp [logPieces, Script.after]
  | ok intents =>
    dsimp only
    split_ifs <;> simp_all

theorem lint_json :
    lint yaml files path verbose .json =
      let i := Inspection.ofFile yaml files path
      Script.after (logPieces verbose i.log)
        (emitJson "lint" (i.errors = []) i.errors i.exit []) := by
  unfold lint Inspection.ofFile
  cases Load.load yaml files path with
  | error e => simp [logPieces, Script.after]
  | ok intents =>
    have hempty (ds : List Diagnostic) : ds.isEmpty = decide (ds = []) := by cases ds <;> rfl
    simp [hempty]

end Emission

section Generating

variable (g : Generation)

/-- The document of what generating finds. -/
def Generation.document : Json :=
  (reportJson "generate" (g.errors = []) g.errors g.more).inOrder

lemma Generation.nodup_members :
    ((reportMembers "generate" (g.errors = []) g.errors g.more).map Prod.fst).Nodup := by
  have hnames : ["tool".toText, "command".toText, "ok".toText, "error_count".toText,
      "errors".toText, "corpus".toText, "line_count".toText].Nodup := by
    decide
  exact hnames

lemma Generation.integral_more {fits : Int → Prop} {sound : Text → Prop}
    (hsound : ∀ s : String, sound s.toText) (hcorpus : ∀ t ∈ g.corpus, sound t)
    (hlines : fits g.lineCount) : ∀ m ∈ g.more, sound m.1 ∧ m.2.Integral fits sound := by
  simp only [Generation.more, List.forall_mem_cons]
  exact ⟨⟨hsound _, integral_optionalJson hcorpus⟩, ⟨hsound _, .int hlines⟩, List.forall_mem_nil _⟩

lemma Generation.sameStory (stdout : Text) :
    SameStory ⟨g.exit, stdout, diagnosticLines g.errors⟩
      ⟨g.exit, printedLine (reportJson "generate" (g.errors = []) g.errors g.more).print, []⟩
      g.document :=
  sameStory_of_report rfl
    (fun m hm => (g.integral_more (fun _ => trivial) (fun _ _ => trivial) trivial m hm).2)
    g.nodup_members g.exit stdout

lemma Generation.lists : Lists g.document
    ((Diagnostic.sort g.errors).map fun d => (itemJson d).inOrder) :=
  lists_reportJson g.nodup_members rfl

lemma Generation.member?_corpus :
    g.document.member? "corpus".toText = some (optionalJson g.corpus) := by
  rw [Generation.document,
    member?_reportJson g.nodup_members (List.mem_of_getElem? (i := 5) rfl)]
  cases g.corpus <;> rfl

lemma Generation.member?_lineCount :
    g.document.member? "line_count".toText = some (.int g.lineCount) := by
  rw [Generation.document,
    member?_reportJson g.nodup_members (List.mem_of_getElem? (i := 6) rfl)]
  rfl

end Generating

lemma Generation.corpus_eq_none_iff (yaml : Load.YamlReader) (files : Load.Source) (path : Text)
    (strict : Bool) : (Generation.ofFile yaml files path strict).corpus = none ↔
      (Generation.ofFile yaml files path strict).exit ≠ 0 := by
  unfold Generation.ofFile
  split
  · simp
  · simp only
    split_ifs <;> simp

lemma Generation.sameCorpus {g : Generation} (h : g.corpus = none ↔ g.exit ≠ 0) (stderr : Text) :
    SameCorpus ⟨g.exit, Text.stripAnsi (g.corpus.getD []), stderr⟩ g.document where
  failed hexit := by
    have hnone := h.2 hexit
    rw [g.member?_corpus, hnone]
    exact ⟨rfl, Text.stripAnsi_eq_self List.not_mem_nil⟩
  done hexit := by
    obtain ⟨corpus, hcorpus⟩ : ∃ corpus, g.corpus = some corpus := by
      rw [← Option.isSome_iff_exists, ← Option.ne_none_iff_isSome, Ne, h]
      exact not_not.2 hexit
    refine ⟨corpus, by rw [g.member?_corpus, hcorpus]; rfl, ?_⟩
    rw [hcorpus]
    rfl

lemma Inspection.nodup_members (i : Inspection) :
    ((reportMembers "lint" (i.errors = []) i.errors []).map Prod.fst).Nodup := by
  have hnames : ["tool".toText, "command".toText, "ok".toText, "error_count".toText,
      "errors".toText].Nodup := by
    decide
  exact hnames

/-- The document of what linting finds. -/
def Inspection.document (i : Inspection) : Json :=
  (reportJson "lint" (i.errors = []) i.errors []).inOrder

lemma Inspection.sameStory (i : Inspection) (stdout : Text) :
    SameStory ⟨i.exit, stdout, diagnosticLines i.errors⟩
      ⟨i.exit, printedLine (reportJson "lint" (i.errors = []) i.errors []).print, []⟩ i.document :=
  sameStory_of_report rfl (List.forall_mem_nil _) i.nodup_members i.exit stdout

lemma Inspection.lists (i : Inspection) : Lists i.document
    ((Diagnostic.sort i.errors).map fun d => (itemJson d).inOrder) :=
  lists_reportJson i.nodup_members rfl

section Plain

variable {packages : Packages} (h : packages.PrintsPlainly) (log : List LogRecord)
include h

lemma perform_quiet (s : Script) :
    (Script.after (logPieces false log) s).perform packages.echo =
      .done ⟨s.exit, shown .out s.pieces, shown .err s.pieces⟩ :=
  perform_of_plain h s

lemma perform_emitJson (command : String) (ok : Bool) (errors : List Diagnostic) (exit : Nat)
    (more : List (Text × Json)) :
    (Script.after (logPieces false log) (emitJson command ok errors exit more)).perform
        packages.echo =
      .done ⟨exit, printedLine (reportJson command ok errors more).print, []⟩ := by
  rw [perform_quiet h, emitJson, shown_line, echoLine,
    shown_singleton_of_ne .err (by decide : Stream.out ≠ .err)]

lemma perform_generation (g : Generation) :
    (Script.after (logPieces false log)
        ⟨printErrors g.errors ++ g.corpus.toList.map (Piece.echo .out), g.exit⟩).perform
          packages.echo =
      .done ⟨g.exit, Text.stripAnsi (g.corpus.getD []), diagnosticLines g.errors⟩ := by
  rw [perform_quiet h, shown_append, shown_append, shown_out_printErrors, shown_err_printErrors]
  cases g.corpus with
  | none => simp [Text.stripAnsi_eq_self]
  | some corpus => simp [shown_singleton_of_ne .err (by decide : Stream.out ≠ .err)]

lemma perform_inspection (i : Inspection) : ∃ stdout,
    (Script.after (logPieces false log) ⟨if i.errors = [] then [echoLine .out i.summary]
        else printErrors i.errors, i.exit⟩).perform packages.echo =
      .done ⟨i.exit, stdout, diagnosticLines i.errors⟩ := by
  rw [perform_quiet h]
  split_ifs with hnil
  · refine ⟨printedLine i.summary, ?_⟩
    rw [hnil, shown_line, echoLine, shown_singleton_of_ne .err (by decide : Stream.out ≠ .err)]
    simp [diagnosticLines, Diagnostic.sort]
  · exact ⟨_, by rw [shown_err_printErrors]⟩

end Plain

/-- Two command lines that differ in the format alone have outputs that say the same. -/
theorem formats_agree {packages : Packages} (h : packages.PrintsPlainly) (files : Load.Source)
    (path : Text) :
    (∀ strict textLine jsonLine,
      packages.commandLine textLine = .ok (.generate path strict "text".toText false) →
      packages.commandLine jsonLine = .ok (.generate path strict "json".toText false) →
        ∃ text json document, run packages files textLine = .done text ∧
          run packages files jsonLine = .done json ∧
          SameStory text json document ∧ SameCorpus text document) ∧
      ∀ textLine jsonLine,
        packages.commandLine textLine = .ok (.lint path "text".toText false) →
        packages.commandLine jsonLine = .ok (.lint path "json".toText false) →
          ∃ text json document, run packages files textLine = .done text ∧
            run packages files jsonLine = .done json ∧ SameStory text json document := by
  constructor
  · intro strict textLine jsonLine htext hjson
    have hstory := Generation.sameStory (Generation.ofFile packages.yaml files path strict)
    refine ⟨_, _, _, ?_, ?_, hstory _, Generation.sameCorpus (Generation.corpus_eq_none_iff ..) _⟩
    · rw [run_of_line htext]
      exact (congrArg _ (generate_text ..)).trans (perform_generation h _ _)
    · rw [run_of_line hjson]
      exact (congrArg _ (generate_json ..)).trans (perform_emitJson h ..)
  · intro textLine jsonLine htext hjson
    obtain ⟨stdout, hperform⟩ := perform_inspection h
      (Inspection.ofFile packages.yaml files path).log (Inspection.ofFile packages.yaml files path)
    refine ⟨_, _, _, ?_, ?_, (Inspection.ofFile packages.yaml files path).sameStory stdout⟩
    · rw [run_of_line htext]
      exact (congrArg _ (lint_text ..)).trans hperform
    · rw [run_of_line hjson]
      exact (congrArg _ (lint_json ..)).trans (perform_emitJson h ..)

/-- A value that holds no templates, and a row with a template that is not closed. -/
theorem formats_agree_mixed :
    Packages.plain.PrintsPlainly ∧
    Packages.plain.commandLine ["generate".toText, "i.json".toText] =
      .ok (.generate "i.json".toText false "text".toText false) ∧
    Packages.plain.commandLine ["generate".toText, "--format=json".toText, "i.json".toText] =
      .ok (.generate "i.json".toText false "json".toText false) ∧
    Packages.plain.commandLine ["lint".toText, "i.json".toText] =
      .ok (.lint "i.json".toText "text".toText false) ∧
    Packages.plain.commandLine ["lint".toText, "i.json".toText, "--format".toText, "json".toText] =
      .ok (.lint "i.json".toText "json".toText false) ∧
    (∃ text json document,
      run Packages.plain (oneFile "\x7b\"a\": 5, \"b\": [\"(\", \"x\"]\x7d")
        ["generate".toText, "i.json".toText] = .done text ∧
      run Packages.plain (oneFile "\x7b\"a\": 5, \"b\": [\"(\", \"x\"]\x7d")
        ["generate".toText, "--format=json".toText, "i.json".toText] = .done json ∧
      SameStory text json document ∧ SameCorpus text document) ∧
    ∃ text json document,
      run Packages.plain (oneFile "\x7b\"a\": 5, \"b\": [\"(\", \"x\"]\x7d")
        ["lint".toText, "i.json".toText] = .done text ∧
      run Packages.plain (oneFile "\x7b\"a\": 5, \"b\": [\"(\", \"x\"]\x7d")
        ["lint".toText, "i.json".toText, "--format".toText, "json".toText] = .done json ∧
      SameStory text json document := by
  have hgenerate : Packages.plain.commandLine ["generate".toText, "i.json".toText] =
      .ok (.generate "i.json".toText false "text".toText false) := rfl
  have hgenerateJson : Packages.plain.commandLine ["generate".toText, "--format=json".toText,
      "i.json".toText] = .ok (.generate "i.json".toText false "json".toText false) := rfl
  have hlint : Packages.plain.commandLine ["lint".toText, "i.json".toText] =
      .ok (.lint "i.json".toText "text".toText false) := rfl
  have hlintJson : Packages.plain.commandLine ["lint".toText, "i.json".toText, "--format".toText,
      "json".toText] = .ok (.lint "i.json".toText "json".toText false) := rfl
  have hplain := Packages.plain_printsPlainly
  have hagree := formats_agree hplain (oneFile "\x7b\"a\": 5, \"b\": [\"(\", \"x\"]\x7d")
    "i.json".toText
  exact ⟨hplain, hgenerate, hgenerateJson, hlint, hlintJson,
    hagree.1 false _ _ hgenerate hgenerateJson, hagree.2 _ _ hlint hlintJson⟩

end Phrasebook.Command
