/-!
# Terminal control sequences

A control sequence is an escape character, an opening bracket, parameter characters `0`-`?`,
intermediate characters from the space to `/`, and one final character `@`-`~`.  Output that does
not go to a terminal is written without them.
-/

namespace Lox.Text

/-- What follows a control sequence whose escape and bracket have been read, if it is complete. -/
def afterSequence? (cs : List Char) : Option (List Char) :=
  let rest := (cs.dropWhile fun c => '0' ≤ c && c ≤ '?').dropWhile fun c => ' ' ≤ c && c ≤ '/'
  match rest with
  | [] => none
  | c :: rest => if '@' ≤ c && c ≤ '~' then some rest else none

theorem length_afterSequence?_lt {cs rest : List Char} (h : afterSequence? cs = some rest) :
    rest.length < cs.length := by
  unfold afterSequence? at h
  simp only at h
  split at h
  · simp at h
  · rename_i c tail heq
    have hl := congrArg List.length heq
    have h₁ := (List.dropWhile_suffix (l := cs.dropWhile fun c => '0' ≤ c && c ≤ '?')
      (fun c => ' ' ≤ c && c ≤ '/')).length_le
    have h₂ := (List.dropWhile_suffix (l := cs) (fun c => '0' ≤ c && c ≤ '?')).length_le
    split at h
    · cases h
      simp only [List.length_cons] at hl
      omega
    · simp at h

/-- Characters without the control sequences among them. -/
def dropSequences : List Char → List Char
  | [] => []
  | [c] => [c]
  | c :: d :: cs =>
    if c = '\x1b' ∧ d = '[' then
      match _after : afterSequence? cs with
      | some rest => dropSequences rest
      | none => c :: dropSequences (d :: cs)
    else c :: dropSequences (d :: cs)
termination_by cs => cs.length
decreasing_by
  · have := length_afterSequence?_lt _after
    simp only [List.length_cons]
    omega
  · simp
  · simp

def plain (s : String) : String := String.ofList (dropSequences s.toList)

end Lox.Text
