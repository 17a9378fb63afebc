/-
CommandShell.Text.Pieces — cutting a text into pieces from its far end.

Every way of cutting used here (words, fields, lines) reads the rest of the
text first and then puts the present character in front of the first piece,
so each is a structural recursion with no accumulator. `consHead` is that
one step.
-/

namespace CommandShell.Text

/-- Puts `c` in front of the first piece; with no piece yet, `c` begins one. -/
def consHead (c : Char) : List (List Char) → List (List Char)
  | [] => [[c]]
  | piece :: pieces => (c :: piece) :: pieces

@[simp] theorem consHead_nil (c : Char) : consHead c [] = [[c]] := rfl

@[simp] theorem consHead_cons (c : Char) (piece : List Char) (pieces : List (List Char)) :
    consHead c (piece :: pieces) = (c :: piece) :: pieces := rfl

theorem consHead_ne_nil (c : Char) (pieces : List (List Char)) : consHead c pieces ≠ [] := by
  cases pieces <;> simp

end CommandShell.Text
