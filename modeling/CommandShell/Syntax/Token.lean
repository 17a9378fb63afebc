/-
CommandShell.Syntax.Token — the words and operators of a line.

An operator is cut off from the words beside it, blanks separate the rest,
and the first word that begins with a number sign starts a comment, which
ends the line.
-/
import CommandShell.Text.Blank

namespace CommandShell

/-- What joins a command to the one before it. -/
inductive Operator
  | semicolon
  | and
  | or
  deriving Repr, DecidableEq

namespace Operator

/-- How an operator is written. -/
def text : Operator → String
  | .semicolon => ";"
  | .and => "&&"
  | .or => "||"

/-- The operator that a text writes. -/
def ofText? (text : String) : Option Operator :=
  if text = ";" then some .semicolon
  else if text = "&&" then some .and
  else if text = "||" then some .or
  else none

@[simp] theorem ofText?_text (operator : Operator) : ofText? operator.text = some operator := by
  cases operator <;> decide

theorem ofText?_eq_some {text : String} {operator : Operator} :
    ofText? text = some operator ↔ text = operator.text := by
  constructor
  · intro h
    simp only [ofText?] at h
    split at h
    · cases h; assumption
    · split at h
      · cases h; assumption
      · split at h
        · cases h; assumption
        · cases h
  · rintro rfl
    exact ofText?_text operator

end Operator

/-- A word or an operator. -/
inductive Token
  | word (text : String)
  | op (operator : Operator)
  deriving Repr, DecidableEq

namespace Token

/-- How a token is written. -/
def text : Token → String
  | .word text => text
  | .op operator => operator.text

/-- The token that a text writes: an operator if it is one, else a word. -/
def ofText (text : String) : Token :=
  match Operator.ofText? text with
  | some operator => .op operator
  | none => .word text

@[simp] theorem text_ofText (text : String) : (ofText text).text = text := by
  unfold ofText
  split
  · next h => exact (Operator.ofText?_eq_some.mp h).symm
  · rfl

/-- Puts a space on either side of every operator, found from left to right:
of three ampersands the first two are one. -/
def setApart : List Char → List Char
  | [] => []
  | '&' :: '&' :: rest => ' ' :: '&' :: '&' :: ' ' :: setApart rest
  | '|' :: '|' :: rest => ' ' :: '|' :: '|' :: ' ' :: setApart rest
  | ';' :: rest => ' ' :: ';' :: ' ' :: setApart rest
  | c :: rest => c :: setApart rest

/-- Whether a word starts a comment. -/
def opensComment : List Char → Bool
  | '#' :: _ => true
  | _ => false

/-- The texts of the tokens of a line. -/
def pieces (line : List Char) : List (List Char) :=
  (Text.words (setApart line)).takeWhile fun piece => !opensComment piece

/-- The tokens of a line. -/
def ofLine (line : String) : List Token :=
  (pieces line.toList).map fun piece => ofText (String.ofList piece)

end Token

end CommandShell
