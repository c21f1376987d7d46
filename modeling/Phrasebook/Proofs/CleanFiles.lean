import Phrasebook.Proofs.Diagnosing
import Phrasebook.Proofs.Formats
import Phrasebook.Proofs.LineFeeds

/-!
# Files with nothing wrong

If linting finds nothing wrong with a file, every entry of the file is an intent and every template
of an intent is a text that expands (`Whole`). On such entries counting and building cannot differ,
so the other commands succeed as well, and their numbers are those that linting printed. Only the
printing of the corpus may fail, at a half that stands alone (`agree_on_clean_file`).
-/

namespace Phrasebook

namespace Corpus

/-- An entry that is an intent, with templates that are texts and expand. -/
inductive Whole : Key × Datum → Prop
  | intro {name : Text} {value : Datum} {ds : List Datum} (h : templates? value = some ds)
      (hexpand : ∀ d ∈ ds, ∃ t phrases, d = .text t ∧ Request.expand (.text t) = .ok phrases) :
      Whole (.text name, value)

lemma whole_of_ofEntry {e : Key × Datum} (h : Skip.ofEntry e = []) : Whole e := by
  cases entryKind e with
  | @intent name value ds hds =>
    refine .intro hds fun d hd => ?_
    obtain ⟨j, hj, rfl⟩ := List.mem_iff_getElem.1 hd
    cases hskip : Skip.ofTemplate (templatePath (.text name) value j) ds[j] with
    | none => exact Skip.expand_of_ofTemplate hskip
    | some skip =>
      have hmem := Skip.mem_ofEntry hds (List.getElem?_eq_getElem hj) hskip
      rw [h] at hmem
      exact absurd hmem List.not_mem_nil
  | shapeless hds => simp [Skip.ofEntry_of_shapeless hds] at h
  | nameless hkey => simp [Skip.ofEntry_of_nameless hkey] at h

section Clean

variable {file : Option Text} {entries : Entries}
  (herrors : (build file (.map entries)).errors = [])
include herrors

lemma ne_nil_of_clean : entries ≠ [] := by
  rintro rfl
  exact nomatch herrors

lemma skips_of_clean : entries.flatMap Skip.ofEntry = [] := by
  rwa [errors_map file (ne_nil_of_clean herrors), List.map_eq_nil_iff] at herrors

lemma whole_of_clean : ∀ e ∈ entries, Whole e := fun e he =>
  whole_of_ofEntry (List.flatMap_eq_nil_iff.1 (skips_of_clean herrors) e he)

end Clean

lemma generated_of_texts {ds : List Datum} (h : ∀ d ∈ ds, ∃ t, d = .text t) :
    Lint.generated ds = rowPhrases ds := by
  rw [Lint.generated_eq, rowPhrases]
  refine List.flatMap_congr fun d hd => ?_
  obtain ⟨t, rfl⟩ := h d hd
  rw [Lint.generated_singleton, Lint.innerPhrases, List.append_nil]

section Whole

variable {entries : Entries} (h : ∀ e ∈ entries, Whole e)
include h

lemma length_intents : (Lint.intents entries).length = entries.length := by
  refine List.filterMap_length_eq_length.2 fun e he => ?_
  cases h e he with
  | intro hds => rw [Lint.ofEntry?_of_intent hds]; rfl

lemma generated_of_whole {i : Lint.Intent} (hi : i ∈ Lint.intents entries) :
    Lint.generated i.templates = rowPhrases i.templates := by
  obtain ⟨value, he, hds, -⟩ := Lint.mem_intents.1 hi
  refine generated_of_texts fun d hd => ?_
  cases h _ he with
  | intro hds' hexpand =>
    obtain rfl := Option.some.inj (hds.symm.trans hds')
    obtain ⟨t, -, rfl, -⟩ := hexpand d hd
    exact ⟨t, rfl⟩

lemma mentions_of_whole : Lint.mentions entries = pairs entries := by
  rw [Lint.mentions, pairs, Lint.flatMap_entryPairs, Lint.flatMap_entryPairs]
  refine List.flatMap_congr fun i hi => ?_
  rw [generated_of_whole h hi]

end Whole

end Corpus

namespace Command

/-- What linting prints for a file with nothing wrong. -/
def okLine (intents phrases : Nat) : Text :=
  "OK: ".toText ++ Text.ofNat intents ++ " intents, ".toText ++ Text.ofNat phrases ++
    " phrases".toText ++ [char '\n']

lemma okLine_inj {n m k l : Nat} (h : okLine n m = okLine k l) : n = k ∧ m = l := by
  have hform (n m : Nat) : okLine n m = "OK: ".toText ++ (Text.ofNat n ++
      char ' ' :: ("intents, ".toText ++ (Text.ofNat m ++ char ' ' :: "phrases\n".toText))) := by
    show "OK: ".toText ++ Text.ofNat n ++ " intents, ".toText ++ Text.ofNat m ++
      " phrases".toText ++ [char '\n'] = _
    simp [String.toText]
  rw [hform, hform, List.append_cancel_left_eq] at h
  obtain ⟨hintents, hrest⟩ := Text.ofNat_append_inj rfl h
  rw [List.append_cancel_left_eq] at hrest
  exact ⟨hintents, (Text.ofNat_append_inj rfl hrest).1⟩

lemma escape_not_mem_ofNat (n : Nat) : char '\x1b' ∉ Text.ofNat n :=
  Text.not_mem_ofNat rfl n

lemma printedLine_ok (n m : Nat) :
    printedLine ("OK: ".toText ++ Text.ofNat n ++ " intents, ".toText ++ Text.ofNat m ++
      " phrases".toText) = okLine n m := by
  apply printedLine_eq
  simp [escape_not_mem_ofNat, String.toText]

lemma printedLine_count (c : Text × Nat) :
    printedLine (countLine c) = countLine (Text.stripAnsi c.1, c.2) ++ [char '\n'] := by
  obtain ⟨name, n⟩ := c
  have hfront : Text.stripAnsi (char '-' :: char ' ' :: name) =
      char '-' :: char ' ' :: Text.stripAnsi name := by
    rw [Text.stripAnsi_cons (by decide), Text.stripAnsi_cons (by decide)]
  have hback : Text.stripAnsi (char ' ' :: Text.ofNat n ++ [char '\n']) =
      char ' ' :: Text.ofNat n ++ [char '\n'] :=
    Text.stripAnsi_eq_self (by simp [escape_not_mem_ofNat])
  have hform : countLine (name, n) ++ [char '\n'] =
      (char '-' :: char ' ' :: name) ++ char ':' :: (char ' ' :: Text.ofNat n ++ [char '\n']) := by
    simp [countLine, String.toText]
  rw [printedLine, hform, Text.stripAnsi_append rfl, hfront, hback]
  simp [countLine, String.toText]

lemma countLines_eq (counts : List (Text × Nat)) (total : Nat) :
    countLines counts total =
      ((counts.map fun c => countLine (Text.stripAnsi c.1, c.2)) ++ [totalLine total]).flatMap
        (· ++ [char '\n']) := by
  have htotal : printedLine (totalLine total) = totalLine total ++ [char '\n'] :=
    printedLine_eq (by simp [totalLine, String.toText, escape_not_mem_ofNat])
  rw [countLines, htotal, List.flatMap_append, List.flatMap_map, List.flatMap_singleton]
  simp only [printedLine_count]

/-- Lines without line feeds, each of them ended by one, are split apart again. -/
lemma splitOn_lines {ls : List Text} (h : ∀ l ∈ ls, char '\n' ∉ l) :
    (ls.flatMap (· ++ [char '\n'])).splitOn (char '\n') = ls ++ [[]] := by
  induction ls with
  | nil => simp
  | cons l ls ih =>
    rw [List.flatMap_cons, List.append_assoc, List.singleton_append,
      List.splitOn_append_cons_self, List.splitOn_eq_singleton (h l List.mem_cons_self),
      ih fun m hm => h m (List.mem_cons_of_mem l hm)]
    rfl

lemma splitOn_countLines {counts : List (Text × Nat)} (h : ∀ c ∈ counts, char '\n' ∉ c.1)
    (total : Nat) : (countLines counts total).splitOn (char '\n') =
      (counts.map fun c => countLine (Text.stripAnsi c.1, c.2)) ++ [totalLine total, []] := by
  rw [countLines_eq, splitOn_lines, List.append_assoc, List.singleton_append]
  intro l hl
  rcases List.mem_append.1 hl with hl | hl
  · obtain ⟨c, hc, rfl⟩ := List.mem_map.1 hl
    have hname : char '\n' ∉ Text.stripAnsi c.1 := fun hmem =>
      h c hc ((Text.stripAnsi_sublist _).subset hmem)
    have hcount : char '\n' ∉ Text.ofNat c.2 := Text.not_mem_ofNat rfl c.2
    simp [countLine, hname, hcount, String.toText]
  · have hlabel : char '\n' ∉ "Total: ".toText := by decide
    rw [List.mem_singleton.1 hl]
    exact List.not_mem_append hlabel (Text.not_mem_ofNat rfl total)

/-- What a file without faults holds, and what is counted in it. -/
structure IsClean (yaml : Load.YamlReader) (files : Load.Source) (path : Text) (entries : Entries)
    (n m : Nat) : Prop where
  load : Load.load yaml files path = .ok entries
  errors : (Corpus.build (some path) (.map entries)).errors = []
  findings : Lint.findings (some path) (.map entries) = []
  intents : entries.length = n
  phrases : (Corpus.build (some path) (.map entries)).lineCount = m

/-- Linting prints its line for clean files only. -/
theorem isClean_of_okLine {packages : Packages} (hutf8 : packages.PrintsUtf8)
    {files : Load.Source} {path : Text} {verbose : Bool} {n m : Nat} {line : List Text}
    {out : Output} (hline : packages.commandLine line = .ok (.lint path "text".toText verbose))
    (hrun : run packages files line = .done out) (hexit : out.exit = 0)
    (hstdout : out.stdout = okLine n m) :
    ∃ entries, IsClean packages.yaml files path entries n m := by
  have hperform : (lint packages.yaml files path verbose .text).perform packages.echo = .done out :=
    (run_of_line hline).symm.trans hrun
  rw [lint_text] at hperform
  have hzero := (exit_of_perform hperform).symm.trans hexit
  simp only [Script.after] at hzero
  cases hload : Load.load packages.yaml files path with
  | error e =>
    rw [Inspection.ofFile, hload] at hzero
    exact absurd hzero Nat.one_ne_zero
  | ok entries =>
    have herrors : Diagnostic.sort ((Corpus.build (some path) (.map entries)).errors ++
        Lint.findings (some path) (.map entries)) = [] := by
      by_contra hne
      rw [Inspection.ofFile, hload] at hzero
      simp only [if_neg hne] at hzero
      exact absurd hzero (by decide)
    have hwritable : Text.isWritable ("OK: ".toText ++ Text.ofNat entries.length ++
        " intents, ".toText ++ Text.ofNat (Corpus.build (some path) (.map entries)).lineCount ++
        " phrases".toText) = true := by
      simp
    obtain ⟨stderr, hdone⟩ := perform_log_line hutf8 verbose
      (Corpus.build (some path) (.map entries)).log hwritable 0
    rw [Inspection.ofFile, hload] at hperform
    simp only [herrors, if_true] at hperform
    have hout := Reply.done.inj (hdone.symm.trans hperform)
    have hline : okLine entries.length (Corpus.build (some path) (.map entries)).lineCount =
        okLine n m := by
      rw [← hstdout, ← hout, printedLine_ok]
    obtain ⟨hintents, hphrases⟩ := okLine_inj hline
    obtain ⟨hbuild, hlint⟩ := List.append_eq_nil_iff.1 (Diagnostic.sort_eq_nil.1 herrors)
    exact ⟨entries, hload, hbuild, hlint, hintents, hphrases⟩

/-- What a strict `generate` reports in JSON of a file of so many phrases: nothing is wrong. -/
def ReportsClean (packages : Packages) (files : Load.Source) (path : Text) (m : Nat) : Prop :=
  ∀ line, packages.commandLine line = .ok (.generate path true "json".toText false) →
    ∃ stdout document corpus, run packages files line = .done ⟨0, stdout, []⟩ ∧
      IsPrintedAs stdout document ∧
      (Json.IsShort m → corpus.IsJoined → document.Legible) ∧
      document.member? "ok".toText = some (.bool true) ∧
      document.member? "errors".toText = some (.array []) ∧
      document.member? "corpus".toText = some (.text corpus) ∧
      document.member? "line_count".toText = some (.int m)

/-- What the other commands do with a file of so many intents and phrases. A strict `generate` has
nothing to complain of, and `stats` prints a line for each intent and their sum. -/
structure Agrees (packages : Packages) (files : Load.Source) (path : Text) (n m : Nat) : Prop where
  generate : ∀ line, packages.commandLine line = .ok (.generate path true "text".toText false) →
    ∃ stdout, run packages files line = .done ⟨0, stdout, []⟩
  report : ReportsClean packages files path m
  stats : ∀ line, packages.commandLine line = .ok (.stats path) →
    ∃ stdout, run packages files line = .done ⟨0, stdout, []⟩ ∧
      ∃ counts : List (Text × Nat), counts.length = n ∧ (counts.map Prod.snd).sum = m ∧
        stdout.splitOn (char '\n') = counts.map countLine ++ [totalLine m, []]

lemma printErrors_nil : printErrors [] = [] := by
  simp [printErrors, Diagnostic.sort]

lemma isJoined_toText (s : String) : s.toText.IsJoined := by
  have hhigh (c : Char) : ¬(char c).IsHigh := by
    have hplace := CodePoint.toNat_char_lt_or_le c
    simp only [CodePoint.IsHigh, CodePoint.toNat]
    omega
  refine (List.pairwise_map.2 ?_).isChain
  exact List.pairwise_of_forall fun c _ hpair => hhigh c hpair.1

namespace IsClean

variable {packages : Packages} {files : Load.Source} {path : Text} {entries : Entries} {n m : Nat}
  (h : IsClean packages.yaml files path entries n m)
include h

lemma whole : ∀ e ∈ entries, Corpus.Whole e :=
  Corpus.whole_of_clean h.errors

lemma length_mentions : (Lint.mentions entries).length = m := by
  rw [Corpus.mentions_of_whole h.whole, ← Corpus.lineCount_map (some path), h.phrases]

lemma feed_not_mem_name {i : Lint.Intent} (hi : i ∈ Lint.intents entries) :
    char '\n' ∉ i.name := by
  intro hfeed
  have hblank := Lint.not_isBlank_of_clean h.findings hi (char '\n') hfeed
  exact absurd hblank (by decide)

lemma generation : Generation.ofFile packages.yaml files path true =
    ⟨[], some (Corpus.build (some path) (.map entries)).corpus, m, 0,
      (Corpus.build (some path) (.map entries)).log⟩ := by
  rw [Generation.ofFile, h.load]
  simp [h.errors, h.phrases]

/-- The JSON form prints characters of seven bits, whatever the corpus is. -/
lemma reportsClean (hutf8 : packages.PrintsUtf8) : ReportsClean packages files path m := by
  intro line hline
  obtain ⟨g, hg, herrors, hlines, hexit, corpus, hcorpus⟩ : ∃ g : Generation,
      Generation.ofFile packages.yaml files path true = g ∧ g.errors = [] ∧ g.lineCount = m ∧
        g.exit = 0 ∧ ∃ corpus, g.corpus = some corpus :=
    ⟨_, h.generation, rfl, rfl, rfl, _, rfl⟩
  have hreport : (reportJson "generate" (g.errors = []) g.errors g.more).Integral (fun _ => True)
      fun _ => True :=
    integral_reportJson (fun _ => trivial) trivial (fun _ _ _ _ => trivial)
      (g.integral_more (fun _ => trivial) (fun _ _ => trivial) trivial)
  have hwritable :
      (reportJson "generate" (g.errors = []) g.errors g.more).print.isWritable = true := by
    refine Text.isWritable_of_toNat_lt fun c hc => ?_
    have hseven := Json.isSevenBit_of_mem_printAt hreport 0 c hc
    simp only [Json.isSevenBit, Bool.or_eq_true, Bool.and_eq_true, decide_eq_true_eq] at hseven
    rcases hseven with rfl | hseven
    · decide
    · omega
  have hrun : run packages files line = .done ⟨0, printedLine
      (reportJson "generate" (g.errors = []) g.errors g.more).print, []⟩ := by
    rw [run_of_line hline]
    refine (congrArg _ (generate_json ..)).trans ?_
    simp only [hg, hexit]
    exact (perform_lines hutf8 (List.forall_mem_singleton.2 hwritable) 0).trans
      (by rw [List.flatMap_singleton])
  have hlists := g.lists
  rw [herrors, Diagnostic.sort_eq_nil.2 rfl] at hlists
  refine ⟨_, g.document, corpus, hrun, ?_, fun hm hjoined => ?_, hlists.ok, hlists.errors, ?_, ?_⟩
  · rw [printedLine_print hreport]
    exact isPrintedAs_inOrder hreport
  · refine Json.integral_inOrder (integral_reportJson isJoined_toText ?_ ?_ ?_)
    · rw [herrors]
      exact (by decide : (Text.ofNat 0).length ≤ Json.maxDigits)
    · rw [herrors]
      exact List.forall_mem_nil _
    · exact g.integral_more isJoined_toText (by simp [hcorpus, hjoined]) (hlines ▸ hm)
  · rw [g.member?_corpus, hcorpus]
    rfl
  · rw [g.member?_lineCount, hlines]

lemma run_generate (hutf8 : packages.PrintsUtf8) {line : List Text}
    (hline : packages.commandLine line = .ok (.generate path true "text".toText false)) :
    run packages files line =
      if (Corpus.build (some path) (.map entries)).corpus.isWritable then
        .done ⟨0, Text.stripAnsi (Corpus.build (some path) (.map entries)).corpus, []⟩
      else .broken [] [] := by
  have hscript : Command.generate packages.yaml files path true false .text =
      ⟨[.echo .out (Corpus.build (some path) (.map entries)).corpus], 0⟩ := by
    rw [generate_text, h.generation]
    simp [printErrors_nil, Script.after, logPieces]
  have hrun : run packages files line = Script.perform packages.echo
      ⟨[.echo .out (Corpus.build (some path) (.map entries)).corpus], 0⟩ :=
    (run_of_line hline).trans (congrArg _ hscript)
  rw [hrun]
  split_ifs with hcorpus
  · have hwritten := written?_of_isWritable hutf8 hcorpus
    rw [perform_of_written (by simp [hwritten])]
    simp [written, hwritten, Piece.stream]
  · have hunwritten := written?_of_not_isWritable hutf8 (Bool.eq_false_of_not_eq_true hcorpus)
    exact perform_of_unwritten (show _ = [] ++ _ :: [] from rfl) (List.forall_mem_nil _) hunwritten

lemma isWritable_name (hcorpus : (Corpus.build (some path) (.map entries)).corpus.isWritable = true)
    {i : Lint.Intent} (hi : i ∈ Lint.intents entries) : i.name.isWritable = true := by
  obtain ⟨value, he, hds, -⟩ := Lint.mem_intents.1 hi
  obtain ⟨d, hd⟩ := List.exists_mem_of_ne_nil _ (Lint.templates_ne_nil_of_clean h.findings hi)
  have hlines : Corpus.templateLines i.name d ≠ [] := by
    cases h.whole _ he with
    | intro hds' hexpand =>
      obtain rfl := Option.some.inj (hds.symm.trans hds')
      obtain ⟨t, phrases, rfl, hok⟩ := hexpand d hd
      exact Corpus.Skip.templateLines_ne_nil_of_expand hok i.name
  obtain ⟨l, hl⟩ := List.exists_mem_of_ne_nil _ hlines
  have hname : i.name ⊆ (Corpus.build (some path) (.map entries)).corpus := by
    have hentry : (Corpus.entryLines (.text i.name, value)).flatten <:+:
        (Corpus.build (some path) (.map entries)).corpus := Corpus.entryLines_within he
    have hwithin := (Corpus.templateLines_within i.name hds hd).flatten.trans hentry
    refine List.Subset.trans (Corpus.Skip.subset_of_mem_templateLines hl) fun c hc => ?_
    exact hwithin.subset (List.mem_flatten_of_mem hl hc)
  exact List.all_eq_true.2 fun c hc => List.all_eq_true.1 hcorpus c (hname hc)

lemma stats_eq : stats packages.yaml files path =
    ⟨(((Lint.intents entries).map fun i => countLine (generatedCount i)) ++ [totalLine m]).map
      (echoLine .out), 0⟩ := by
  have htallied := tallied_eq_nil path (Corpus.skips_of_clean h.errors)
  rw [stats_of_load_generated h.load, htallied, countScript, h.length_mentions, printErrors_nil,
    countPieces]
  simp

lemma exists_counts (hutf8 : packages.PrintsUtf8)
    (hcorpus : (Corpus.build (some path) (.map entries)).corpus.isWritable = true)
    {line : List Text} (hline : packages.commandLine line = .ok (.stats path)) :
    ∃ stdout, run packages files line = .done ⟨0, stdout, []⟩ ∧
      ∃ counts : List (Text × Nat), counts.length = n ∧ (counts.map Prod.snd).sum = m ∧
        stdout.splitOn (char '\n') = counts.map countLine ++ [totalLine m, []] := by
  have hlines : ∀ t ∈ ((Lint.intents entries).map fun i => countLine (generatedCount i)) ++
      [totalLine m], t.isWritable = true := by
    intro t ht
    rcases List.mem_append.1 ht with ht | ht
    · obtain ⟨i, hi, rfl⟩ := List.mem_map.1 ht
      simp [countLine, generatedCount, h.isWritable_name hcorpus hi]
    · rw [List.mem_singleton.1 ht]
      simp [totalLine]
  have hnames : ∀ c ∈ (Lint.intents entries).map generatedCount, char '\n' ∉ c.1 := by
    intro c hc
    obtain ⟨i, hi, rfl⟩ := List.mem_map.1 hc
    exact h.feed_not_mem_name hi
  have hprinted : (((Lint.intents entries).map fun i => countLine (generatedCount i)) ++
      [totalLine m]).flatMap printedLine =
        countLines ((Lint.intents entries).map generatedCount) m := by
    simp [countLines, List.flatMap_map]
  refine ⟨_, (run_of_line hline).trans ((congrArg _ h.stats_eq).trans
    (perform_lines hutf8 hlines 0)), (Lint.intents entries).map fun i =>
      (Text.stripAnsi i.name, (Lint.generated i.templates).length), ?_, ?_, ?_⟩
  · rw [List.length_map, Corpus.length_intents h.whole, h.intents]
  · rw [List.map_map, ← h.length_mentions, Lint.mentions, length_flatMap_entryPairs]
    rfl
  · rw [hprinted, splitOn_countLines hnames, List.map_map, List.map_map]
    rfl

end IsClean

/-- If linting finds nothing wrong with a file, the other commands agree with it, unless there is a
half in the corpus that stands alone. Then generating breaks off with nothing printed. -/
theorem agree_on_clean_file {packages : Packages} (hutf8 : packages.PrintsUtf8)
    {files : Load.Source} {path : Text} {verbose : Bool} {n m : Nat} {line : List Text}
    {out : Output} (hline : packages.commandLine line = .ok (.lint path "text".toText verbose))
    (hrun : run packages files line = .done out) (hexit : out.exit = 0)
    (hstdout : out.stdout = okLine n m) :
    ∃ entries, Load.load packages.yaml files path = .ok entries ∧
      ReportsClean packages files path m ∧
      ((Corpus.build (some path) (.map entries)).corpus.isWritable = true →
        Agrees packages files path n m) ∧
      ((Corpus.build (some path) (.map entries)).corpus.isWritable = false →
        ∀ line, packages.commandLine line = .ok (.generate path true "text".toText false) →
          run packages files line = .broken [] []) := by
  obtain ⟨entries, h⟩ := isClean_of_okLine hutf8 hline hrun hexit hstdout
  refine ⟨entries, h.load, h.reportsClean hutf8, fun hcorpus => ⟨?_, h.reportsClean hutf8, ?_⟩, ?_⟩
  · intro line hline
    rw [h.run_generate hutf8 hline, if_pos hcorpus]
    exact ⟨_, rfl⟩
  · exact fun line hline => h.exists_counts hutf8 hcorpus hline
  · intro hcorpus line hline
    rw [h.run_generate hutf8 hline, hcorpus]
    rfl

/-- Two intents, one with an alternation in the first of its two templates. -/
theorem agree_on_clean_file_greetings :
    Packages.standard.PrintsUtf8 ∧
    Packages.standard.commandLine ["lint".toText, "i.json".toText] =
      .ok (.lint "i.json".toText "text".toText false) ∧
    run Packages.standard
        (oneFile "\x7b\"Greet\": [\"(hi|hello) there\", \"good day\"], \"Bye\": \"bye\"\x7d")
        ["lint".toText, "i.json".toText] =
      .done ⟨0, "OK: 2 intents, 4 phrases\n".toText, []⟩ ∧
    ∃ entries, Load.load Packages.standard.yaml
        (oneFile "\x7b\"Greet\": [\"(hi|hello) there\", \"good day\"], \"Bye\": \"bye\"\x7d")
        "i.json".toText = .ok entries ∧
      (Corpus.build (some "i.json".toText) (.map entries)).corpus =
        "Greet hi there\nGreet hello there\nGreet good day\n\nBye bye\n".toText ∧
      Agrees Packages.standard
        (oneFile "\x7b\"Greet\": [\"(hi|hello) there\", \"good day\"], \"Bye\": \"bye\"\x7d")
        "i.json".toText 2 4 := by
  have hline : Packages.standard.commandLine ["lint".toText, "i.json".toText] =
      .ok (.lint "i.json".toText "text".toText false) := rfl
  have hrun : run Packages.standard
      (oneFile "\x7b\"Greet\": [\"(hi|hello) there\", \"good day\"], \"Bye\": \"bye\"\x7d")
      ["lint".toText, "i.json".toText] = .done ⟨0, "OK: 2 intents, 4 phrases\n".toText, []⟩ := by
    decide +kernel
  have hload : (Load.load Packages.standard.yaml
      (oneFile "\x7b\"Greet\": [\"(hi|hello) there\", \"good day\"], \"Bye\": \"bye\"\x7d")
      "i.json".toText).toOption.map
        (fun entries => (Corpus.build (some "i.json".toText) (.map entries)).corpus) =
      some "Greet hi there\nGreet hello there\nGreet good day\n\nBye bye\n".toText := by
    decide +kernel
  obtain ⟨entries, hentries, -, hagree, -⟩ :=
    agree_on_clean_file Packages.standard_printsUtf8 hline hrun rfl (by decide : _ = okLine 2 4)
  obtain ⟨loaded, hloaded, hcorpus⟩ := exists_loaded hload
  obtain rfl := Except.ok.inj (hentries.symm.trans hloaded)
  refine ⟨Packages.standard_printsUtf8, hline, hrun, entries, hentries, hcorpus, hagree ?_⟩
  rw [hcorpus]
  decide

/-- Linting has nothing to say of a half that stands alone, and generating breaks off at it. -/
theorem not_agree_on_clean_file_of_half :
    run Packages.standard (oneFile "\x7b\"k\": \"\\ud800\"\x7d") ["lint".toText, "i.json".toText] =
      .done ⟨0, "OK: 1 intents, 1 phrases\n".toText, []⟩ ∧
    run Packages.standard (oneFile "\x7b\"k\": \"\\ud800\"\x7d")
        ["generate".toText, "i.json".toText, "--strict".toText] = .broken [] [] ∧
    ¬Agrees Packages.standard (oneFile "\x7b\"k\": \"\\ud800\"\x7d") "i.json".toText 1 1 := by
  have hbroken : run Packages.standard (oneFile "\x7b\"k\": \"\\ud800\"\x7d")
      ["generate".toText, "i.json".toText, "--strict".toText] = .broken [] [] := by
    decide +kernel
  refine ⟨by decide +kernel, hbroken, fun h => ?_⟩
  obtain ⟨stdout, hdone⟩ := h.generate ["generate".toText, "i.json".toText, "--strict".toText] rfl
  exact nomatch hbroken.symm.trans hdone

end Command

end Phrasebook
