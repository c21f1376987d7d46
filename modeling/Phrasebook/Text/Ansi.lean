import Phrasebook.Text.Basic

/-!
# Terminal control sequences

A sequence that sets colours or moves the cursor of a terminal is an escape character and an
opening square bracket, parameters, and a letter. Text that is not written to a terminal goes
without them.
-/

namespace Phrasebook.Text

/-- Whether a character may stand among the parameters of a control sequence. -/
def isParameter (c : CodePoint) : Bool :=
  c = ';' || c = '?' || isDigit c

def isAsciiLetter (c : CodePoint) : Bool :=
  ('a' ≤ c && c ≤ 'z') || ('A' ≤ c && c ≤ 'Z')

/-- The text behind a control sequence, from behind its escape character. -/
def behindSequence? : Text → Option Text
  | '[' :: s =>
    match s.dropWhile isParameter with
    | c :: rest => if isAsciiLetter c then some rest else none
    | [] => none
  | _ => none

theorem length_of_behindSequence? {s rest : Text} (h : behindSequence? s = some rest) :
    rest.length < s.length := by
  unfold behindSequence? at h
  split at h
  · rename_i s'
    split at h
    · rename_i c rest' hd
      split at h
      · obtain rfl : rest' = rest := by simpa using h
        have := (List.dropWhile_sublist isParameter (l := s')).length_le
        rw [hd] at this
        simp only [List.length_cons] at this ⊢
        omega
      · simp at h
    · simp at h
  · simp at h

def stripAnsi : Text → Text
  | [] => []
  | c :: s =>
    if c = '\x1b' then
      match _h : behindSequence? s with
      | some rest => stripAnsi rest
      | none => c :: stripAnsi s
    else c :: stripAnsi s
  termination_by s => s.length
  decreasing_by
    all_goals simp only [List.length_cons]
    · have := length_of_behindSequence? _h
      omega
    all_goals omega

end Phrasebook.Text
