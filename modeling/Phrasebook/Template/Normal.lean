import Phrasebook.Template.Token

/-!
# Normal form of a template

A round group that holds a single word offers no choice, so it is the same as the word. The normal
form drops such brackets in one pass from left to right; groups that only the pass itself brings
about stay.
-/

namespace Phrasebook.Template

/-- A character that may stand in a lone word: no blank, no bar and no bracket. -/
def isPlain (c : CodePoint) : Bool :=
  !Text.isBlank c && c != '|' && !isBracket c

/-- Splits what follows an opening round bracket into the lone word of its group and the text
after the group. -/
def loneWord? (s : Text) : Option (Text × Text) :=
  match s.takeWhile isPlain, s.dropWhile isPlain with
  | c :: w, d :: rest => if d = ')' then some (c :: w, rest) else none
  | _, _ => none

theorem loneWord?_eq_some {s w rest : Text} (h : loneWord? s = some (w, rest)) :
    s = w ++ char ')' :: rest ∧ w ≠ [] ∧ ∀ c ∈ w, isPlain c := by
  unfold loneWord? at h
  split at h
  · rename_i c w' d rest' hw hr
    split at h
    · rename_i hd
      obtain ⟨rfl, rfl⟩ : c :: w' = w ∧ rest' = rest := by simpa using h
      refine ⟨?_, by simp, ?_⟩
      · have := List.takeWhile_append_dropWhile (p := isPlain) (l := s)
        rw [hw, hr, hd] at this
        exact this.symm
      · intro x hx
        rw [← hw] at hx
        have := List.all_takeWhile (p := isPlain) (l := s)
        exact List.all_eq_true.1 this x hx
    · simp at h
  · simp at h

theorem length_of_loneWord? {s w rest : Text} (h : loneWord? s = some (w, rest)) :
    rest.length < s.length := by
  rw [(loneWord?_eq_some h).1]
  simp
  omega

/-- The template with every group that holds a lone word replaced by that word. -/
def normalize : Text → Text
  | [] => []
  | c :: s =>
    if c = '(' then
      match _h : loneWord? s with
      | some (w, rest) => w ++ normalize rest
      | none => c :: normalize s
    else c :: normalize s
  termination_by s => s.length
  decreasing_by
    all_goals simp only [List.length_cons]
    · have := length_of_loneWord? _h
      omega
    all_goals omega

end Phrasebook.Template
