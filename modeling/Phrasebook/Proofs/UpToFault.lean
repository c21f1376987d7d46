import Phrasebook.Proofs.Formats
import Phrasebook.Proofs.OnDemand

/-!
# Printing phrases up to the first fault

Expanding on the command line goes template by template and prints the phrases of one before it
looks at the next, where expanding a row of templates gives all of its phrases or none. Both meet
what the templates owe (`expandOutput_of_owes`): the command prints the phrases of the row, or
those of the templates before the first that fails, and then the fault of the row
(`expand_prints_up_to_fault`).
-/

namespace Phrasebook

namespace Template.Stream

/-- A fault is owed for the first template that fails, and before it the phrases of those in front
of that template. -/
lemma Owes.exists_first {ts ps : List Text} {f : Fault} (h : Owes ts ps (some f)) :
    ∃ good t rest, ts = good ++ t :: rest ∧ Owes good ps none ∧ expand t = .error f := by
  generalize hending : some f = ending at h
  induction h with
  | nothing => cases hending
  | @fault t g ht rest =>
    obtain rfl := Option.some.inj hending
    exact ⟨[], t, rest, rfl, .nothing, ht⟩
  | @phrases t ts ps qs ending ht hrest ih =>
    obtain ⟨good, u, rest, rfl, hgood, hu⟩ := ih hending
    exact ⟨t :: good, u, rest, rfl, .phrases ht hgood, hu⟩

end Template.Stream

namespace Command

open Template.Stream (Owes)

/-- Texts printed one to a line, without control sequences for a terminal. -/
def printedLines (ts : List Text) : Text :=
  ts.flatMap fun t => Text.stripAnsi t ++ [char '\n']

lemma flatMap_printedLine (ts : List Text) : ts.flatMap printedLine = printedLines ts :=
  List.flatMap_congr fun t _ => printedLine_eq_stripAnsi t

/-- The script that prints phrases and then ends, with a fault if there is one. -/
def phrasesScript (ps : List Text) : Option Request.Fault → Script
  | none => ⟨ps.map (echoLine .out), 0⟩
  | some f => ⟨ps.map (echoLine .out) ++ printErrors [Diagnostic.ofRequest f], 2⟩

lemma expand_of_owes {ts ps : List Text} {ending : Option Template.Fault} (h : Owes ts ps ending) :
    expand ts = phrasesScript ps (ending.map Request.Fault.malformed) := by
  induction h with
  | nothing => rfl
  | fault ht =>
    rw [expand, Request.expand_text, ht]
    rfl
  | @phrases t ts ps qs ending ht hrest ih =>
    rw [expand, Request.expand_text, ht]
    simp only [Request.lift, ih, Script.after]
    cases ending <;> simp [phrasesScript]

lemma shown_out_phrases (ps : List Text) :
    shown .out (ps.map (echoLine .out)) = printedLines ps := by
  rw [← flatMap_printedLine]
  exact shown_lines .out id ps

lemma shown_err_phrases (ps : List Text) : shown .err (ps.map (echoLine .out)) = [] :=
  shown_lines_of_ne .err (by decide) id ps

section Plain

variable {packages : Packages} (h : packages.PrintsPlainly)
include h

lemma perform_phrases (ps : List Text) :
    (phrasesScript ps none).perform packages.echo = .done ⟨0, printedLines ps, []⟩ := by
  rw [perform_of_plain h, phrasesScript, shown_out_phrases, shown_err_phrases]

lemma perform_phrases_fault (ps : List Text) (f : Request.Fault) :
    (phrasesScript ps (some f)).perform packages.echo =
      .done ⟨2, printedLines ps, printedLines [(Diagnostic.ofRequest f).render]⟩ := by
  have hfault : diagnosticLines [Diagnostic.ofRequest f] =
      printedLines [(Diagnostic.ofRequest f).render] := by
    rw [← flatMap_printedLine, diagnosticLines, Diagnostic.sort, List.mergeSort_singleton]
    rfl
  rw [perform_of_plain h, phrasesScript, shown_append, shown_append, shown_out_phrases,
    shown_err_phrases, shown_out_printErrors, shown_err_printErrors, hfault, List.append_nil,
    List.nil_append]

end Plain

/-- Every row of templates can be given on a command line, behind a lone double dash whatever the
templates are. -/
lemma commandLine_expand {ts : List Text} (hts : ts ≠ []) :
    Packages.standard.commandLine ("expand".toText :: "--".toText :: ts) = .ok (.expand ts) := by
  have hname : Invocation.ofCommand "expand".toText ("--".toText :: ts) =
      Invocation.ofArguments ⟨helpOption, []⟩ ("--".toText :: ts) fun _ as =>
        if as = [] then .error .usage else .ok (.expand as) := rfl
  have harguments : readArguments ⟨helpOption, []⟩ ("--".toText :: ts) = .ok ([], ts) := by
    rw [readArguments, if_pos rfl]
  have hline : Invocation.ofLine ("expand".toText :: "--".toText :: ts) = .ok (.expand ts) := by
    rw [Invocation.ofLine, if_neg (by decide), if_neg (by decide), hname, Invocation.ofArguments,
      harguments]
    simp [hts, Bind.bind, Except.bind]
  show (Invocation.ofLine _).mapError Refusal.reply = _
  rw [hline]
  rfl

/-- The command prints the phrases of the row of templates that it is given, one to a line, and ends
with zero, just when the row expands. Otherwise it ends with two and prints the fault of the row;
before that it has printed the phrases of the templates in front of the first that fails, and none
of that one or of those behind it. -/
theorem expand_prints_up_to_fault {packages : Packages} (h : packages.PrintsPlainly)
    (files : Load.Source) {ts : List Text} (hts : ts ≠ []) :
    (∃ line, Packages.standard.commandLine line = .ok (.expand ts)) ∧
    ∀ line, packages.commandLine line = .ok (.expand ts) →
      ∃ out, run packages files line = .done out ∧
        (out.exit = 0 ↔ ∃ ps, Request.expand (.list (ts.map .text)) = .ok ps) ∧
        (∀ ps, Request.expand (.list (ts.map .text)) = .ok ps → out = ⟨0, printedLines ps, []⟩) ∧
        ∀ f, Request.expand (.list (ts.map .text)) = .error f →
          ∃ good t rest ps, ts = good ++ t :: rest ∧
            Request.expand (.list (good.map .text)) = .ok ps ∧
            Request.expand (.text t) = .error f ∧
            out = ⟨2, printedLines ps, printedLines [(Diagnostic.ofRequest f).render]⟩ := by
  have htemplates (us : List Text) : Request.templates (.list (us.map .text)) = .ok us :=
    Request.templates_of_texts rfl
  refine ⟨⟨_, commandLine_expand hts⟩, fun line hline => ?_⟩
  obtain ⟨ps, ending, howes⟩ := Template.Stream.exists_owes ts
  have hscript : run packages files line =
      (phrasesScript ps (ending.map Request.Fault.malformed)).perform packages.echo :=
    (run_of_line hline).trans (congrArg _ (expand_of_owes howes))
  cases ending with
  | none =>
    have hexpand : Request.expand (.list (ts.map .text)) = .ok ps :=
      Request.expand_of_owes (htemplates ts) howes
    refine ⟨_, hscript.trans (perform_phrases h ps), ?_⟩
    rw [hexpand]
    refine ⟨iff_of_true rfl ⟨ps, rfl⟩, ?_, ?_⟩
    · intro qs hqs
      rw [Except.ok.inj hqs]
    · intro f hf
      cases hf
  | some f =>
    have hexpand : Request.expand (.list (ts.map .text)) = .error (.malformed f) :=
      Request.expand_of_owes (htemplates ts) howes
    refine ⟨_, hscript.trans (perform_phrases_fault h ps _), ?_⟩
    rw [hexpand]
    refine ⟨iff_of_false (by decide : 2 ≠ 0) ?_, ?_, ?_⟩
    · rintro ⟨qs, hqs⟩
      cases hqs
    · intro qs hqs
      cases hqs
    · intro g hg
      obtain rfl := Except.error.inj hg
      obtain ⟨good, t, rest, rfl, hgood, ht⟩ := howes.exists_first
      refine ⟨good, t, rest, ps, rfl, Request.expand_of_owes (htemplates good) hgood, ?_, rfl⟩
      rw [Request.expand_text, ht]
      rfl

/-- Three templates of which the second is not closed. -/
theorem expand_prints_up_to_fault_second :
    Packages.plain.PrintsPlainly ∧
    ["(|b) c".toText, "(".toText, "d".toText] ≠ [] ∧
    Packages.plain.commandLine ["expand".toText, "(|b) c".toText, "(".toText, "d".toText] =
      .ok (.expand ["(|b) c".toText, "(".toText, "d".toText]) ∧
    (∃ line, Packages.standard.commandLine line =
      .ok (.expand ["(|b) c".toText, "(".toText, "d".toText])) ∧
    run Packages.plain (fun _ => none)
        ["expand".toText, "(|b) c".toText, "(".toText, "d".toText] =
      .done ⟨2, "b c\nc\n".toText,
        "<intents>: E_UNBALANCED_GROUP: '(' at column 1 is never closed in '('\n".toText⟩ ∧
    ∃ out, run Packages.plain (fun _ => none)
        ["expand".toText, "(|b) c".toText, "(".toText, "d".toText] = .done out ∧
      ∃ good t rest ps, ["(|b) c".toText, "(".toText, "d".toText] = good ++ t :: rest ∧
        Request.expand (.list (good.map .text)) = .ok ps ∧
        Request.expand (.text t) = .error (.malformed (.unclosedGroup .round 1 "(".toText)) ∧
        out = ⟨2, printedLines ps, printedLines
          [(Diagnostic.ofRequest (.malformed (.unclosedGroup .round 1 "(".toText))).render]⟩ := by
  have hts : ["(|b) c".toText, "(".toText, "d".toText] ≠ [] := List.cons_ne_nil _ _
  have hline : Packages.plain.commandLine
      ["expand".toText, "(|b) c".toText, "(".toText, "d".toText] =
        .ok (.expand ["(|b) c".toText, "(".toText, "d".toText]) := rfl
  have hexpand : Request.expand (.list (["(|b) c".toText, "(".toText, "d".toText].map .text)) =
      .error (.malformed (.unclosedGroup .round 1 "(".toText)) := by
    decide +kernel
  obtain ⟨hgiven, hruns⟩ :=
    expand_prints_up_to_fault Packages.plain_printsPlainly (fun _ => none) hts
  obtain ⟨out, hrun, -, -, hfault⟩ := hruns _ hline
  have hdone : run Packages.plain (fun _ => none)
      ["expand".toText, "(|b) c".toText, "(".toText, "d".toText] = .done ⟨2, "b c\nc\n".toText,
        "<intents>: E_UNBALANCED_GROUP: '(' at column 1 is never closed in '('\n".toText⟩ := by
    decide +kernel
  exact ⟨Packages.plain_printsPlainly, hts, hline, hgiven, hdone, out, hrun, hfault _ hexpand⟩

end Command

end Phrasebook
