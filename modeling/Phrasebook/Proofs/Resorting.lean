import Mathlib.Order.Monotone.Basic
import Phrasebook.Proofs.Formats
import Phrasebook.Proofs.Remarks

/-!
# Sorting diagnostics again

Diagnostics are sorted by file, path and code, texts by their code points, and those that agree in
all three keep their order (`SortsStably`). A sorted list is determined by what it has of each key
in which order (`eq_of_filter_eq`), so it makes no difference whether parts of a list are sorted
before the whole, and what linting prints, though it was sorted three times, is one sort of all that
it has met (`one_sort_suffices`).
-/

namespace Phrasebook

namespace Diagnostic

def codePoints (s : Text) : List Nat :=
  s.map CodePoint.toNat

/-- A diagnostic may stand before another one by its file, by its path if the files are the same,
and by its code if the paths are too. A file or a path that is not known counts as an empty text. -/
def Precedes (d e : Diagnostic) : Prop :=
  codePoints (d.file.getD []) < codePoints (e.file.getD []) ∨
    codePoints (d.file.getD []) = codePoints (e.file.getD []) ∧
      (codePoints (d.path.getD []) < codePoints (e.path.getD []) ∨
        codePoints (d.path.getD []) = codePoints (e.path.getD []) ∧
          codePoints d.code ≤ codePoints e.code)

/-- Two diagnostics agree in file, path and code, an unknown place being an empty text. -/
def Ties (d e : Diagnostic) : Prop :=
  d.file.getD [] = e.file.getD [] ∧ d.path.getD [] = e.path.getD [] ∧ d.code = e.code

instance (d e : Diagnostic) : Decidable (d.Ties e) :=
  inferInstanceAs (Decidable (_ ∧ _ ∧ _))

/-- Sorting orders these diagnostics, keeps ties as they are, and may be done in parts. -/
structure SortsStably (ds : List Diagnostic) : Prop where
  perm : (sort ds).Perm ds
  ordered : (sort ds).Pairwise Precedes
  stable : ∀ d : Diagnostic, (sort ds).filter (fun e => d.Ties e) = ds.filter fun e => d.Ties e
  again : sort (sort ds) = sort ds
  parts : ∀ es, sort (sort ds ++ es) = sort (ds ++ es)

lemma codePoints_strictMono : StrictMono codePoints := fun _ _ h =>
  List.map_lt (fun _ _ hlt => hlt) h

lemma precedes_iff {d e : Diagnostic} : d.Precedes e ↔ d.sortKey ≤ e.sortKey := by
  have hlt {s t : Text} : codePoints s < codePoints t ↔ s < t := codePoints_strictMono.lt_iff_lt
  have hle {s t : Text} : codePoints s ≤ codePoints t ↔ s ≤ t := codePoints_strictMono.le_iff_le
  have heq {s t : Text} : codePoints s = codePoints t ↔ s = t :=
    codePoints_strictMono.injective.eq_iff
  unfold Precedes sortKey
  simp only [hlt, heq, hle, le_iff_lt_or_eq, List.cons_lt_cons_iff, List.not_lt_nil,
    List.cons.injEq]
  tauto

lemma ties_iff {d e : Diagnostic} : d.Ties e ↔ e.sortKey = d.sortKey := by
  simp only [Ties, sortKey, List.cons.injEq, and_true, eq_comm]

/-- A list in the order of its keys is determined by what it has of each key. -/
theorem eq_of_filter_eq {α κ : Type} [PartialOrder κ] [DecidableEq κ] (key : α → κ) {xs ys : List α}
    (hxs : xs.Pairwise fun x y => key x ≤ key y) (hys : ys.Pairwise fun x y => key x ≤ key y)
    (h : ∀ k, xs.filter (fun x => key x = k) = ys.filter fun y => key y = k) : xs = ys := by
  have hmem (x : α) : x ∈ xs ↔ x ∈ ys := by
    have hfilter := congrArg (x ∈ ·) (h (key x))
    simpa using hfilter
  induction xs generalizing ys with
  | nil => exact (List.eq_nil_iff_forall_not_mem.2 fun y hy => by simpa using (hmem y).2 hy).symm
  | cons x xs ih =>
    cases ys with
    | nil => simpa using (hmem x).1 List.mem_cons_self
    | cons y ys =>
      rw [List.pairwise_cons] at hxs hys
      have hxy : key x ≤ key y := by
        rcases List.mem_cons.1 ((hmem y).2 List.mem_cons_self) with rfl | hy
        · exact le_rfl
        · exact hxs.1 y hy
      have hyx : key y ≤ key x := by
        rcases List.mem_cons.1 ((hmem x).1 List.mem_cons_self) with rfl | hx
        · exact le_rfl
        · exact hys.1 x hx
      have hkey : key y = key x := le_antisymm hyx hxy
      have hheads := h (key x)
      rw [List.filter_cons_of_pos (by simp),
        List.filter_cons_of_pos (by simpa using hkey)] at hheads
      obtain rfl : x = y := (List.cons.inj hheads).1
      have htails (k : κ) : xs.filter (fun x => key x = k) = ys.filter fun y => key y = k := by
        have hk := h k
        rw [List.filter_cons, List.filter_cons] at hk
        split_ifs at hk with hx
        · exact (List.cons.inj hk).2
        · exact hk
      rw [ih hxs.2 hys.2 htails fun z => by simpa using congrArg (z ∈ ·) (htails (key z))]

lemma filter_sort (ds : List Diagnostic) (key : List Text) :
    (sort ds).filter (fun d => d.sortKey = key) = ds.filter fun d => d.sortKey = key :=
  mergeSort_filter id ds key

/-- Two lists that have the same of each key are sorted to the same list. -/
lemma sort_eq_of_filter_eq {ds es : List Diagnostic} (h : ∀ key,
    ds.filter (fun d => d.sortKey = key) = es.filter fun d => d.sortKey = key) :
    sort ds = sort es :=
  eq_of_filter_eq sortKey (pairwise_mergeSort id ds) (pairwise_mergeSort id es) fun key => by
    rw [filter_sort, filter_sort, h]

lemma sort_sort_append (ds es : List Diagnostic) : sort (sort ds ++ es) = sort (ds ++ es) :=
  sort_eq_of_filter_eq fun key => by rw [List.filter_append, List.filter_append, filter_sort]

lemma sort_append_sort (ds es : List Diagnostic) : sort (ds ++ sort es) = sort (ds ++ es) :=
  sort_eq_of_filter_eq fun key => by rw [List.filter_append, List.filter_append, filter_sort]

lemma sort_sort (ds : List Diagnostic) : sort (sort ds) = sort ds :=
  sort_eq_of_filter_eq (filter_sort ds)

lemma sortsStably (ds : List Diagnostic) : SortsStably ds where
  perm := List.mergeSort_perm ds le
  ordered := (pairwise_mergeSort id ds).imp precedes_iff.2
  stable d := by
    simp only [ties_iff]
    exact filter_sort ds d.sortKey
  again := sort_sort ds
  parts := sort_sort_append ds

end Diagnostic

namespace Command

/-- The diagnostics of a mapping as they are met: the errors of its corpus, then its remarks. -/
def metBoth (path : Text) (entries : Entries) : List Diagnostic :=
  (Corpus.build (some path) (.map entries)).errors ++
    (Lint.met entries).map (Lint.Issue.diagnostic (some path))

/-- What linting prints of this mapping, in text and in JSON, is its diagnostics, sorted once. Only
the line that says that nothing is wrong goes to the other stream. -/
structure PrintsSorted (packages : Packages) (files : Load.Source) (path : Text)
    (entries : Entries) : Prop where
  text : ∀ line verbose, packages.commandLine line = .ok (.lint path "text".toText verbose) →
    ∃ rest exit, run packages files line = Script.perform packages.echo
        ⟨logPieces verbose (Corpus.build (some path) (.map entries)).log ++
          ((Diagnostic.sort (metBoth path entries)).map fun d => echoLine .err d.render) ++ rest,
          exit⟩ ∧
      ∀ p ∈ rest, p.stream = .out
  json : ∀ line verbose, packages.commandLine line = .ok (.lint path "json".toText verbose) →
    ∃ text exit document, run packages files line = Script.perform packages.echo
        ⟨logPieces verbose (Corpus.build (some path) (.map entries)).log ++ [.echo .out text],
          exit⟩ ∧
      IsPrintedAs text document ∧
      Lists document ((Diagnostic.sort (metBoth path entries)).map fun d => (itemJson d).inOrder)

section Linting

variable {packages : Packages} {files : Load.Source} {path : Text} {entries : Entries}
  (h : Load.load packages.yaml files path = .ok entries)
include h

lemma errors_of_load : (Inspection.ofFile packages.yaml files path).errors =
    Diagnostic.sort (metBoth path entries) := by
  rw [Inspection.ofFile, h]
  simp only [Lint.findings_eq, Diagnostic.sort_append_sort]
  rfl

lemma log_of_load : (Inspection.ofFile packages.yaml files path).log =
    (Corpus.build (some path) (.map entries)).log := by
  rw [Inspection.ofFile, h]

lemma sort_errors_of_load : Diagnostic.sort (Inspection.ofFile packages.yaml files path).errors =
    Diagnostic.sort (metBoth path entries) := by
  rw [errors_of_load h, Diagnostic.sort_sort]

lemma printsSorted : PrintsSorted packages files path entries where
  text line verbose hline := by
    rw [run_of_line hline]
    by_cases hclean : (Inspection.ofFile packages.yaml files path).errors = []
    · refine ⟨[echoLine .out (Inspection.ofFile packages.yaml files path).summary],
        (Inspection.ofFile packages.yaml files path).exit,
        (congrArg _ (lint_text ..)).trans ?_, List.forall_mem_singleton.2 rfl⟩
      rw [← errors_of_load h, ← log_of_load h]
      simp only [hclean, if_true, Script.after, List.map_nil, List.append_nil]
    · refine ⟨[], (Inspection.ofFile packages.yaml files path).exit,
        (congrArg _ (lint_text ..)).trans ?_, List.forall_mem_nil _⟩
      simp only [if_neg hclean, Script.after, printErrors, sort_errors_of_load h, log_of_load h,
        List.append_nil]
  json line verbose hline := by
    have hlists := (Inspection.ofFile packages.yaml files path).lists
    rw [sort_errors_of_load h] at hlists
    have hreport : (reportJson "lint" ((Inspection.ofFile packages.yaml files path).errors = [])
        (Inspection.ofFile packages.yaml files path).errors []).Integral (fun _ => True)
          fun _ => True :=
      integral_reportJson (fun _ => trivial) trivial (fun _ _ _ _ => trivial)
        (List.forall_mem_nil _)
    refine ⟨_, (Inspection.ofFile packages.yaml files path).exit, _, ?_,
      isPrintedAs_inOrder hreport, hlists⟩
    rw [run_of_line hline, ← log_of_load h]
    exact congrArg _ (lint_json ..)

end Linting

end Command

end Phrasebook
