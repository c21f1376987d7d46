import Mathlib.Data.List.Induction
import Mathlib.Data.List.Nodup
import Mathlib.Logic.Function.Basic
import Phrasebook.Lint

/-!
# Tables that are filled in one pass

The linter counts the phrases of an intent and gathers the owners of a phrase in tables, which it
fills as it goes. Such a table ends with a row for each key, in the order in which the keys were
first met, and the row holds what the items of its key come to one after the other (`foldl_update`).
-/

namespace Phrasebook.Lint

section Occurrences

variable {α : Type} [BEq α] [LawfulBEq α]

lemma eraseDups_concat (l : List α) (b : α) [Decidable (b ∈ l)] :
    (l ++ [b]).eraseDups = if b ∈ l then l.eraseDups else l.eraseDups ++ [b] := by
  rw [List.eraseDups_append]
  by_cases hb : b ∈ l <;> simp [List.removeAll, List.eraseDups_cons, hb]

lemma pairwise_eraseDups (l : List α) :
    l.eraseDups.Pairwise fun a b => l.idxOf a < l.idxOf b := by
  classical
  induction l using List.reverseRecOn with
  | nil => simp
  | append_singleton l b ih =>
    have hold : ∀ a ∈ l.eraseDups, (l ++ [b]).idxOf a = l.idxOf a := fun a ha =>
      List.idxOf_append_of_mem (List.mem_eraseDups.1 ha)
    have hbefore : l.eraseDups.Pairwise fun a c => (l ++ [b]).idxOf a < (l ++ [b]).idxOf c := by
      refine ih.imp_of_mem fun ha hc hac => ?_
      rwa [hold _ ha, hold _ hc]
    rw [eraseDups_concat]
    split
    · exact hbefore
    · rename_i hb
      refine List.pairwise_append.2 ⟨hbefore, List.pairwise_singleton _ _, fun a ha c hc => ?_⟩
      rw [List.mem_singleton.1 hc, hold a ha, List.idxOf_append_of_notMem hb]
      have := List.idxOf_lt_length_of_mem (List.mem_eraseDups.1 ha)
      omega

lemma nodup_eraseDups (l : List α) : l.eraseDups.Nodup :=
  (pairwise_eraseDups l).imp fun h heq => by simp [heq] at h

lemma eraseDups_append_congr {as bs : List α} (h : as.eraseDups = bs.eraseDups) (cs : List α) :
    (as ++ cs).eraseDups = (bs ++ cs).eraseDups := by
  have hmem (a : α) : a ∈ as ↔ a ∈ bs := by rw [← List.mem_eraseDups, h, List.mem_eraseDups]
  rw [List.eraseDups_append, List.eraseDups_append, h]
  simp [List.removeAll, hmem]

lemma eraseDups_append_eraseDups (as bs : List α) :
    (as ++ bs.eraseDups).eraseDups = (as ++ bs).eraseDups := by
  classical
  induction bs using List.reverseRecOn with
  | nil => simp
  | append_singleton bs b ih =>
    rw [eraseDups_concat, ← List.append_assoc, eraseDups_concat (as ++ bs)]
    by_cases hb : b ∈ bs
    · simp [hb, ih]
    · rw [if_neg hb, ← List.append_assoc, eraseDups_concat, ih]
      simp [List.mem_eraseDups]

/-- First occurrences in rows one after the other are first occurrences in the whole. -/
lemma eraseDups_flatMap {ι : Type} (f : ι → List α) (is : List ι) :
    (is.flatMap fun i => (f i).eraseDups).eraseDups = (is.flatMap f).eraseDups := by
  induction is using List.reverseRecOn with
  | nil => rfl
  | append_singleton is i ih =>
    rw [List.flatMap_append, List.flatMap_append, List.flatMap_singleton, List.flatMap_singleton,
      eraseDups_append_eraseDups, eraseDups_append_congr ih]

end Occurrences

section Tables

variable {α β : Type}

def table (keys : List Text) (value : Text → α) : List (Text × α) :=
  keys.map fun k => (k, value k)

lemma update_table_of_mem (set : Option α → α) {keys : List Text} (hnodup : keys.Nodup)
    (value : Text → α) {k : Text} (hk : k ∈ keys) :
    update set k (table keys value) =
      table keys (Function.update value k (set (some (value k)))) := by
  induction keys with
  | nil => exact absurd hk List.not_mem_nil
  | cons k' keys ih =>
    obtain ⟨hnew, hnodup⟩ := List.nodup_cons.1 hnodup
    simp only [table, List.map_cons, update]
    by_cases heq : k' = k
    · subst heq
      rw [if_pos rfl, Function.update_self]
      refine congrArg _ (List.map_congr_left fun a ha => ?_)
      rw [Function.update_of_ne (ne_of_mem_of_not_mem ha hnew)]
    · rw [if_neg heq, Function.update_of_ne heq]
      exact congrArg _ (ih hnodup ((List.mem_cons.1 hk).resolve_left (Ne.symm heq)))

lemma update_table_of_not_mem (set : Option α → α) {keys : List Text} (value : Text → α) {k : Text}
    (hk : k ∉ keys) :
    update set k (table keys value) = table (keys ++ [k]) (Function.update value k (set none)) := by
  induction keys with
  | nil => simp [table, update]
  | cons k' keys ih =>
    rw [List.mem_cons, not_or] at hk
    simp only [table, List.map_cons, List.cons_append, update]
    rw [if_neg (Ne.symm hk.1), Function.update_of_ne (Ne.symm hk.1)]
    exact congrArg _ (ih hk.2)

/-- What the items of a key come to, added one after the other to what there is at first. -/
def gathered (key : β → Text) (add : α → β → α) (first : α) (items : List β) (k : Text) : α :=
  (items.filter fun b => key b = k).foldl add first

/-- A table that is filled item by item. -/
lemma foldl_update (key : β → Text) (add : α → β → α) (first : α) (items : List β) :
    items.foldl (fun t b => update (fun a => add (a.getD first) b) (key b) t) [] =
      table (items.map key).eraseDups (gathered key add first items) := by
  induction items using List.reverseRecOn with
  | nil => simp [table]
  | append_singleton items b ih =>
    have hvalue : gathered key add first (items ++ [b]) =
        Function.update (gathered key add first items) (key b)
          (add (gathered key add first items (key b)) b) := by
      funext k
      by_cases hk : k = key b
      · subst hk
        simp [gathered]
      · simp [gathered, hk, Ne.symm hk]
    rw [List.foldl_concat, ih, List.map_append, List.map_singleton, eraseDups_concat, hvalue]
    split
    · rename_i hmem
      rw [update_table_of_mem _ (nodup_eraseDups _) _ (List.mem_eraseDups.2 hmem)]
      rfl
    · rename_i hnew
      have hnone : gathered key add first items (key b) = first := by
        have hfilter : (items.filter fun c => key c = key b) = [] := by
          simp only [List.filter_eq_nil_iff, decide_eq_true_eq]
          exact fun c hc heq => hnew (heq ▸ List.mem_map_of_mem hc)
        rw [gathered, hfilter, List.foldl_nil]
      rw [update_table_of_not_mem _ _ (mt List.mem_eraseDups.1 hnew), hnone]
      rfl

end Tables

lemma foldl_add_one (ps : List Text) (n : Nat) : ps.foldl (fun n _ => n + 1) n = n + ps.length := by
  induction ps generalizing n with
  | nil => rfl
  | cons p ps ih =>
    rw [List.foldl_cons, ih, List.length_cons]
    omega

/-- Counting in one pass counts each phrase once, where it first occurs. -/
lemma counts_eq (phrases : List Text) :
    counts phrases = phrases.eraseDups.map fun p => (p, phrases.count p) := by
  have hcount (p : Text) : gathered id (fun n _ => n + 1) 0 phrases p = phrases.count p := by
    rw [gathered, foldl_add_one, Nat.zero_add, List.count_eq_length_filter]
    simp [beq_eq_decide]
  have htable := foldl_update id (fun n _ => n + 1) 0 phrases
  rw [List.map_id, table] at htable
  simp only [hcount] at htable
  exact htable

end Phrasebook.Lint
