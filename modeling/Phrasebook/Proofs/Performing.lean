import Mathlib.Data.List.TakeWhile
import Phrasebook.Command.Run
import Phrasebook.Command.Standard
import Phrasebook.Proofs.Printing

/-!
# Scripts that are performed

A command is a script of pieces, and what comes of it is up to the printer. If every piece can be
printed the script is performed to its end (`perform_of_written`), and otherwise it breaks off at
the first piece that cannot (`perform_of_unwritten`). Two printers are told apart: one that prints
every text, and one for streams in UTF-8, which prints characters only.
-/

namespace Phrasebook

namespace Text

@[simp]
lemma isWritable_append (s t : Text) :
    (s ++ t).isWritable = (s.isWritable && t.isWritable) :=
  List.all_append

lemma isWritable_of_toNat_lt {t : Text} (h : ∀ c ∈ t, c.toNat < 0x80) : t.isWritable = true := by
  refine List.all_eq_true.2 fun c hc => ?_
  cases c with
  | char c => rfl
  | half place =>
    have hlow := h _ hc
    rw [CodePoint.toNat] at hlow
    omega

@[simp]
lemma isWritable_toText (s : String) : s.toText.isWritable = true := by
  refine List.all_eq_true.2 fun c hc => ?_
  obtain ⟨c, -, rfl⟩ := List.mem_map.1 hc
  rfl

lemma toNat_lt_of_isDigit {c : CodePoint} (h : isDigit c = true) : c.toNat < 0x80 := by
  rw [isDigit, digitValue?] at h
  split at h
  · rename_i hdigit
    exact Nat.lt_of_le_of_lt (show c.toNat ≤ '9'.toNat from hdigit.2) (by decide)
  · exact Bool.noConfusion h

@[simp]
lemma isWritable_ofNat (n : Nat) : (ofNat n).isWritable = true :=
  isWritable_of_toNat_lt fun _ hc => toNat_lt_of_isDigit (isDigit_of_mem_ofNat hc)

lemma toNat_lt_of_isParameter {c : CodePoint} (h : isParameter c = true) : c.toNat < 0x80 := by
  simp only [isParameter, Bool.or_eq_true, decide_eq_true_eq] at h
  rcases h with (rfl | rfl) | h
  · decide
  · decide
  · exact toNat_lt_of_isDigit h

lemma toNat_lt_of_isAsciiLetter {c : CodePoint} (h : isAsciiLetter c = true) : c.toNat < 0x80 := by
  simp only [isAsciiLetter, Bool.or_eq_true, Bool.and_eq_true, decide_eq_true_eq] at h
  rcases h with ⟨-, h⟩ | ⟨-, h⟩
  · exact Nat.lt_of_le_of_lt (show c.toNat ≤ 'z'.toNat from h) (by decide)
  · exact Nat.lt_of_le_of_lt (show c.toNat ≤ 'Z'.toNat from h) (by decide)

lemma exists_of_behindSequence? {s rest : Text} (h : behindSequence? s = some rest) :
    ∃ sequence, s = sequence ++ rest ∧ sequence.isWritable = true := by
  unfold behindSequence? at h
  split at h
  · rename_i s
    split at h
    · rename_i c more hdrop
      split at h
      · rename_i hletter
        obtain rfl := Option.some.inj h
        refine ⟨char '[' :: s.takeWhile isParameter ++ [c], ?_, isWritable_of_toNat_lt ?_⟩
        · rw [List.cons_append, List.cons_append, List.append_assoc, List.singleton_append, ← hdrop,
            List.takeWhile_append_dropWhile]
        · simp only [List.cons_append, List.mem_cons, List.mem_append, List.not_mem_nil, or_false]
          rintro d (rfl | hd | rfl)
          · decide
          · exact toNat_lt_of_isParameter (List.mem_takeWhile_imp hd)
          · exact toNat_lt_of_isAsciiLetter hletter
      · exact nomatch h
    · exact nomatch h
  · exact nomatch h

/-- Control sequences are of characters, so a text is as writable without them. -/
lemma isWritable_stripAnsi (s : Text) : (stripAnsi s).isWritable = s.isWritable := by
  have hcons (c : CodePoint) (s : Text) :
      isWritable (c :: s) = (isWritable [c] && isWritable s) :=
    isWritable_append [c] s
  induction s using stripAnsi.induct with
  | case1 => rw [stripAnsi]
  | case2 s rest hrest ih =>
    obtain ⟨sequence, rfl, hsequence⟩ := exists_of_behindSequence? hrest
    rw [stripAnsi_escape_of_some hrest, ih, hcons, isWritable_append, hsequence]
    rfl
  | case3 s hrest ih => rw [stripAnsi_escape_of_none hrest, hcons, ih, ← hcons]
  | case4 c s hc ih => rw [stripAnsi_cons hc, hcons, ih, ← hcons]

end Text

namespace Command

section Perform

variable (echo : Stream → Text → Option Text)

/-- What pieces that can be printed leave on a stream. -/
def written (stream : Stream) (pieces : List Piece) : Text :=
  (pieces.filter fun p => p.stream = stream).flatMap fun p => (p.written? echo).getD []

@[simp]
lemma written_nil (stream : Stream) : written echo stream [] = [] :=
  rfl

@[simp]
lemma written_append (stream : Stream) (ps qs : List Piece) :
    written echo stream (ps ++ qs) = written echo stream ps ++ written echo stream qs := by
  simp [written]

lemma perform_append {before : List Piece} (h : ∀ p ∈ before, p.written? echo ≠ none) (exit : Nat)
    (after : List Piece) (stdout stderr : Text) :
    perform echo exit (before ++ after) stdout stderr =
      perform echo exit after (stdout ++ written echo .out before)
        (stderr ++ written echo .err before) := by
  induction before generalizing stdout stderr with
  | nil => simp
  | cons p before ih =>
    obtain ⟨t, ht⟩ := Option.ne_none_iff_exists'.1 (h p List.mem_cons_self)
    have ih := ih fun q hq => h q (List.mem_cons_of_mem p hq)
    rw [List.cons_append, perform, ht]
    cases hstream : p.stream <;> simp [ih, written, hstream, ht]

variable {echo}

/-- A script of which every piece can be printed is performed to its end. -/
theorem perform_of_written {s : Script} (h : ∀ p ∈ s.pieces, p.written? echo ≠ none) :
    s.perform echo = .done ⟨s.exit, written echo .out s.pieces, written echo .err s.pieces⟩ := by
  have hperform := perform_append echo h s.exit [] [] []
  rwa [List.append_nil] at hperform

/-- A script breaks off at the first piece that cannot be printed. -/
theorem perform_of_unwritten {s : Script} {before after : List Piece} {p : Piece}
    (hpieces : s.pieces = before ++ p :: after) (h : ∀ q ∈ before, q.written? echo ≠ none)
    (hp : p.written? echo = none) :
    s.perform echo = .broken (written echo .out before) (written echo .err before) := by
  rw [Script.perform, hpieces, perform_append echo h, perform, hp]
  rfl

end Perform

section Log

variable (echo : Stream → Text → Option Text) (verbose : Bool) (log : List LogRecord)

lemma written?_of_mem_logPieces {p : Piece} (hp : p ∈ logPieces verbose log) :
    p.written? echo ≠ none := by
  cases verbose with
  | false => exact absurd hp List.not_mem_nil
  | true =>
    obtain ⟨r, -, rfl⟩ := List.mem_map.1 hp
    exact Option.some_ne_none _

lemma written_out_logPieces : written echo .out (logPieces verbose log) = [] := by
  cases verbose <;> simp [logPieces, written, Piece.stream, List.filter_map, Function.comp_def]

end Log

lemma exit_of_perform {echo : Stream → Text → Option Text} {exit : Nat} {pieces : List Piece}
    {stdout stderr : Text} {out : Output} (h : perform echo exit pieces stdout stderr = .done out) :
    out.exit = exit := by
  induction pieces generalizing stdout stderr with
  | nil => rw [← Reply.done.inj h]
  | cons p pieces ih =>
    rw [perform] at h
    split at h
    · exact nomatch h
    · exact ih h
    · exact ih h

namespace Packages

variable (packages : Packages)

/-- Every text is printed, without its control sequences. -/
def PrintsPlainly : Prop :=
  ∀ stream t, packages.echo stream t = some (Text.stripAnsi t)

/-- What is printed goes to a stream in UTF-8, without its control sequences, and to no stream at
all if there is a half among it that stands alone. -/
def PrintsUtf8 : Prop :=
  ∀ t, packages.echo .out t = if t.isWritable then some (Text.stripAnsi t) else none

/-- The packages that the program runs with, with a printer that prints every text. -/
def plain : Packages :=
  { standard with echo := fun _ t => some (Text.stripAnsi t) }

lemma plain_printsPlainly : plain.PrintsPlainly :=
  fun _ _ => rfl

lemma standard_printsUtf8 : standard.PrintsUtf8 := by
  intro t
  show (if (Text.stripAnsi t).isWritable then some (Text.stripAnsi t) else none) = _
  rw [Text.isWritable_stripAnsi]

end Packages

variable {packages : Packages} {files : Load.Source} {line : List Text} {i : Invocation}

lemma run_of_line (h : packages.commandLine line = .ok i) :
    run packages files line = (i.script packages.yaml files).perform packages.echo := by
  rw [run, h]

section Utf8

variable (h : packages.PrintsUtf8) {t : Text}
include h

lemma written?_of_isWritable (ht : t.isWritable = true) :
    (Piece.echo .out t).written? packages.echo = some (Text.stripAnsi t) := by
  rw [Piece.written?, h t, if_pos ht]

lemma written?_of_not_isWritable (ht : t.isWritable = false) :
    (Piece.echo .out t).written? packages.echo = none := by
  rw [Piece.written?, h t, ht]
  rfl

lemma written?_line (ht : t.isWritable = true) :
    (echoLine .out t).written? packages.echo = some (printedLine t) :=
  written?_of_isWritable h (by rw [Text.isWritable_append, ht]; rfl)

/-- A line of characters is printed after the log. -/
lemma perform_log_line (verbose : Bool) (log : List LogRecord) (ht : t.isWritable = true)
    (exit : Nat) : ∃ stderr, Script.perform packages.echo
      (Script.after (logPieces verbose log) ⟨[echoLine .out t], exit⟩) =
        .done ⟨exit, printedLine t, stderr⟩ := by
  have hwritten : ∀ p ∈ logPieces verbose log ++ [echoLine .out t],
      p.written? packages.echo ≠ none := by
    intro p hp
    rcases List.mem_append.1 hp with hp | hp
    · exact written?_of_mem_logPieces _ _ _ hp
    · rw [List.mem_singleton.1 hp, written?_line h ht]
      exact Option.some_ne_none _
  have hline : written packages.echo .out [echoLine .out t] = printedLine t := by
    have hfilter : [echoLine .out t].filter (fun p => p.stream = .out) = [echoLine .out t] := rfl
    rw [written, hfilter, List.flatMap_singleton, written?_line h ht]
    rfl
  refine ⟨written packages.echo .err (logPieces verbose log ++ [echoLine .out t]),
    (perform_of_written hwritten).trans ?_⟩
  simp only [Script.after, written_append, written_out_logPieces, hline, List.nil_append]

/-- Lines of characters are printed to the end. -/
lemma perform_lines {ts : List Text} (hts : ∀ t ∈ ts, t.isWritable = true) (exit : Nat) :
    Script.perform packages.echo ⟨ts.map (echoLine .out), exit⟩ =
      .done ⟨exit, ts.flatMap printedLine, []⟩ := by
  have hwritten : ∀ p ∈ ts.map (echoLine .out), p.written? packages.echo ≠ none := by
    intro p hp
    obtain ⟨t, ht, rfl⟩ := List.mem_map.1 hp
    rw [written?_line h (hts t ht)]
    exact Option.some_ne_none _
  have hlines : written packages.echo .out (ts.map (echoLine .out)) = ts.flatMap printedLine := by
    rw [written, List.filter_map, List.flatMap_map]
    have hfilter : ts.filter ((fun p => decide (p.stream = .out)) ∘ echoLine .out) = ts :=
      List.filter_eq_self.2 fun _ _ => rfl
    rw [hfilter]
    refine List.flatMap_congr fun t ht => ?_
    rw [written?_line h (hts t ht)]
    rfl
  have hquiet : written packages.echo .err (ts.map (echoLine .out)) = [] := by
    rw [written, List.filter_eq_nil_iff.2, List.flatMap_nil]
    intro p hp
    obtain ⟨t, -, rfl⟩ := List.mem_map.1 hp
    exact Bool.false_ne_true
  rw [perform_of_written hwritten, hlines, hquiet]

end Utf8

/-- What a piece leaves where every text is printed. -/
def Piece.plain : Piece → Text
  | echo _ t => Text.stripAnsi t
  | log r => Text.numberHalves (logLine r)

/-- What pieces leave on a stream where every text is printed. -/
def shown (stream : Stream) (pieces : List Piece) : Text :=
  (pieces.filter fun p => p.stream = stream).flatMap Piece.plain

lemma perform_of_plain (h : packages.PrintsPlainly) (s : Script) :
    s.perform packages.echo = .done ⟨s.exit, shown .out s.pieces, shown .err s.pieces⟩ := by
  have hplain (p : Piece) : p.written? packages.echo = some p.plain := by
    cases p with
    | echo stream t => exact h stream t
    | log r => rfl
  rw [perform_of_written fun p _ => by simp [hplain]]
  simp [written, shown, hplain]

/-- The lines of diagnostics, sorted. -/
def diagnosticLines (ds : List Diagnostic) : Text :=
  (Diagnostic.sort ds).flatMap fun d => printedLine d.render

section Shown

variable (stream : Stream)

@[simp]
lemma shown_nil : shown stream [] = [] :=
  rfl

@[simp]
lemma shown_append (ps qs : List Piece) :
    shown stream (ps ++ qs) = shown stream ps ++ shown stream qs := by
  simp [shown]

@[simp]
lemma shown_singleton (t : Text) : shown stream [.echo stream t] = Text.stripAnsi t := by
  simp [shown, Piece.stream, Piece.plain]

@[simp]
lemma shown_singleton_of_ne {other : Stream} (h : other ≠ stream) (t : Text) :
    shown stream [.echo other t] = [] := by
  simp [shown, Piece.stream, h]

lemma shown_line (t : Text) : shown stream [echoLine stream t] = printedLine t :=
  shown_singleton stream _

@[simp]
lemma shown_lines {α : Type} (f : α → Text) (as : List α) :
    shown stream (as.map fun a => echoLine stream (f a)) =
      as.flatMap fun a => printedLine (f a) := by
  induction as with
  | nil => rfl
  | cons a as ih =>
    rw [List.map_cons, ← List.singleton_append, shown_append, ih, shown_line, List.flatMap_cons]

lemma shown_lines_of_ne {α : Type} {other : Stream} (h : other ≠ stream) (f : α → Text)
    (as : List α) : shown stream (as.map fun a => echoLine other (f a)) = [] := by
  induction as with
  | nil => rfl
  | cons a as ih =>
    rw [List.map_cons, ← List.singleton_append, shown_append, ih, echoLine,
      shown_singleton_of_ne stream h]
    rfl

@[simp]
lemma shown_out_printErrors (ds : List Diagnostic) : shown .out (printErrors ds) = [] :=
  shown_lines_of_ne .out (by decide : Stream.err ≠ .out) Diagnostic.render (Diagnostic.sort ds)

@[simp]
lemma shown_err_printErrors (ds : List Diagnostic) :
    shown .err (printErrors ds) = diagnosticLines ds :=
  shown_lines .err Diagnostic.render (Diagnostic.sort ds)

end Shown

end Command

end Phrasebook
