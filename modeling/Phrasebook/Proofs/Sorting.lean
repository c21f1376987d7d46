import Mathlib.Data.List.Lex
import Mathlib.Data.List.Nodup
import Mathlib.Order.Defs.LinearOrder
import Phrasebook.Diagnostic

/-!
# Diagnostics in order

Sorting lists diagnostics by file, path and code, and it is stable: those that agree in all three
keep their order (`mergeSort_filter`). What stands for diagnostics can be sorted in their stead, and
then comes out by key, ties as they were (`exists_sort_map`).
-/

namespace Phrasebook

instance : LinearOrder CodePoint where
  le_refl c := Nat.le_refl c.toNat
  le_trans _ _ _ := Nat.le_trans
  lt_iff_le_not_ge _ _ := Nat.lt_iff_le_and_not_ge
  le_antisymm _ _ h h' := CodePoint.toNat_inj (Nat.le_antisymm h h')
  le_total c d := Nat.le_total c.toNat d.toNat
  toDecidableLE := inferInstance
  toDecidableEq := inferInstance
  toDecidableLT := inferInstance

namespace Diagnostic

lemma sortKey_lex (d e : Diagnostic) :
    (d.sortKey.lex e.sortKey fun s t => s.lex t (· < ·)) = true ↔ d.sortKey < e.sortKey := by
  rw [List.lex_eq_true_iff_lex]
  simp

lemma le_iff {d e : Diagnostic} : d.le e = true ↔ d.sortKey ≤ e.sortKey := by
  rw [le, Bool.not_eq_true', ← Bool.not_eq_true, sortKey_lex, not_lt]

lemma sort_eq_nil {ds : List Diagnostic} : sort ds = [] ↔ ds = [] := by
  rw [← List.length_eq_zero_iff, sort, List.length_mergeSort, List.length_eq_zero_iff]

section Key

variable {α : Type} (f : α → Diagnostic)

lemma le.trans (x y z : α) (hxy : (f x).le (f y) = true) (hyz : (f y).le (f z) = true) :
    (f x).le (f z) = true :=
  le_iff.2 (le_trans (le_iff.1 hxy) (le_iff.1 hyz))

lemma le.total (x y : α) : ((f x).le (f y) || (f y).le (f x)) = true := by
  rw [Bool.or_eq_true, le_iff, le_iff]
  exact le_total _ _

lemma pairwise_mergeSort (xs : List α) :
    (xs.mergeSort fun x y => (f x).le (f y)).Pairwise fun x y =>
      (f x).sortKey ≤ (f y).sortKey :=
  (List.pairwise_mergeSort (le.trans f) (le.total f) xs).imp le_iff.1

/-- Diagnostics of different keys have one order only. -/
lemma sort_eq_of_perm {ds es : List Diagnostic} (hperm : ds.Perm es)
    (hordered : es.Pairwise fun d e => d.sortKey < e.sortKey) : sort ds = es := by
  have hkeys : (es.map sortKey).Nodup :=
    (List.pairwise_map.2 hordered).imp fun hlt => ne_of_lt hlt
  have hsorted : (sort ds).Perm es := (List.mergeSort_perm ds le).trans hperm
  refine List.Perm.eq_of_pairwise (fun d e hd he hde hed => ?_) (pairwise_mergeSort id ds)
    (hordered.imp le_of_lt) hsorted
  exact List.inj_on_of_nodup_map hkeys (hsorted.mem_iff.1 hd) he (le_antisymm hde hed)

/-- What has one key comes out as it went in. -/
theorem mergeSort_filter (xs : List α) (key : List Text) :
    (xs.mergeSort fun x y => (f x).le (f y)).filter (fun x => (f x).sortKey = key) =
      xs.filter fun x => (f x).sortKey = key := by
  have hties : (xs.filter fun x => (f x).sortKey = key).Pairwise fun x y =>
      (f x).le (f y) = true := by
    refine List.pairwise_of_forall_mem_list fun x hx y hy => le_iff.2 ?_
    rw [List.mem_filter, decide_eq_true_eq] at hx hy
    rw [hx.2, hy.2]
  have hsub := List.sublist_mergeSort (le.trans f) (le.total f) hties List.filter_sublist
  have hfilter := hsub.filter fun x => decide ((f x).sortKey = key)
  rw [List.filter_eq_self.2 fun x hx => (List.mem_filter.1 hx).2] at hfilter
  have hlength := ((List.mergeSort_perm xs fun x y => (f x).le (f y)).filter fun x =>
    decide ((f x).sortKey = key)).length_eq
  exact (hfilter.eq_of_length hlength.symm).symm

/-- What stands for diagnostics is sorted as they are. If those of one key stand in some order at
first, they do so in the end. -/
theorem exists_sort_map {xs : List α} {R : α → α → Prop}
    (h : xs.Pairwise fun x y => (f x).sortKey = (f y).sortKey → R x y) :
    ∃ ys : List α, ys.Perm xs ∧ sort (xs.map f) = ys.map f ∧ ys.Pairwise fun x y =>
      (f x).sortKey < (f y).sortKey ∨ (f x).sortKey = (f y).sortKey ∧ R x y := by
  refine ⟨xs.mergeSort fun x y => (f x).le (f y), List.mergeSort_perm _ _, ?_, ?_⟩
  · exact (List.map_mergeSort (f := f) fun _ _ _ _ => rfl).symm
  · rw [List.pairwise_iff_forall_sublist] at h ⊢
    intro x y hxy
    have hle := List.pairwise_iff_forall_sublist.1 (pairwise_mergeSort f xs) hxy
    rcases lt_or_eq_of_le hle with hlt | heq
    · exact .inl hlt
    · have hpair := hxy.filter fun z => decide ((f z).sortKey = (f y).sortKey)
      rw [mergeSort_filter, List.filter_eq_self.2 (by simp [heq])] at hpair
      exact .inr ⟨heq, h (hpair.trans List.filter_sublist) heq⟩

end Key

end Diagnostic

end Phrasebook
