/-
CommandShell.Expansion — references in a word and what they stand for.

A dollar sign with a question mark stands for the last status, with another
dollar sign for the shell's process id, and with a name for the value of
that variable. Substituted text is not read again, and a dollar sign that
begins none of these is a plain character.
-/

namespace CommandShell

/-- What a reference asks for. -/
inductive Reference
  | status
  | processId
  | variable (name : List Char)
  deriving Repr, DecidableEq

/-- What references are looked up in. -/
structure Scope where
  status : Int
  processId : Int
  lookup : String → Option String

namespace Reference

/-- ASCII letters and the underscore begin a name. -/
def isNameStart (c : Char) : Bool :=
  c.isAlpha || c == '_'

/-- ASCII letters, digits and the underscore go on with a name. -/
def isNameChar (c : Char) : Bool :=
  c.isAlphanum || c == '_'

/-- The reference that the text after a dollar sign writes, and the text
after it; a name is as long as it can be. -/
def read? : List Char → Option (Reference × List Char)
  | [] => none
  | c :: rest =>
    if c = '?' then some (.status, rest)
    else if c = '$' then some (.processId, rest)
    else if isNameStart c then
      some (.variable (c :: rest.takeWhile isNameChar), rest.dropWhile isNameChar)
    else none

/-- What follows a reference is shorter than the text it was read from. -/
theorem length_lt_of_read? {text rest : List Char} {reference : Reference}
    (h : read? text = some (reference, rest)) : rest.length < text.length := by
  cases text with
  | nil => simp [read?] at h
  | cons c tail =>
    simp only [read?] at h
    split at h
    · cases h; simp
    · split at h
      · cases h; simp
      · split at h
        · cases h
          exact Nat.lt_succ_of_le (List.dropWhile_sublist _).length_le
        · cases h

/-- What a reference stands for; an unset variable stands for nothing. -/
def value (scope : Scope) : Reference → List Char
  | .status => (toString scope.status).toList
  | .processId => (toString scope.processId).toList
  | .variable name => ((scope.lookup (String.ofList name)).getD "").toList

end Reference

namespace Scope

/-- A text with its references replaced. -/
def expandChars (scope : Scope) : List Char → List Char
  | [] => []
  | c :: rest =>
    if c = '$' then
      match _h : Reference.read? rest with
      | some (reference, after) => reference.value scope ++ expandChars scope after
      | none => c :: expandChars scope rest
    else c :: expandChars scope rest
termination_by text => text.length
decreasing_by
  · have := Reference.length_lt_of_read? _h
    simp only [List.length_cons]
    omega
  all_goals simp

/-- A word with its references replaced. -/
def expandWord (scope : Scope) (word : String) : String :=
  String.ofList (scope.expandChars word.toList)

/-- Words with their references replaced; a word stays one word. -/
def expand (scope : Scope) (words : List String) : List String :=
  words.map scope.expandWord

end Scope

end CommandShell
