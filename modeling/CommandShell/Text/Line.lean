/-
CommandShell.Text.Line — where lines end.

Two rules are in use. A command text given as a whole ends its lines at
every line boundary of Unicode (`breakLines`); a stream has its carriage
returns turned into newlines first (`unifyNewlines`) and then ends its lines
at newlines alone, each line keeping its own (`terminatedLines`).
-/
import CommandShell.Text.Pieces

namespace CommandShell.Text

/-- The characters that end a line of a command text. -/
def isLineBreak (c : Char) : Bool :=
  c == '\n' || c == '\r' || c == '\x0b' || c == '\x0c' || c == '\x1c' || c == '\x1d' ||
    c == '\x1e' || c == '\u0085' || c == '\u2028' || c == '\u2029'

/-- The lines of a command text without their ends; a carriage return with a
newline after it is one end, and nothing after the last end is no line. -/
def breakLines : List Char → List (List Char)
  | [] => []
  | '\r' :: '\n' :: rest => [] :: breakLines rest
  | c :: rest => if isLineBreak c then [] :: breakLines rest else consHead c (breakLines rest)

/-- The lines of a stream, each with the newline that ends it; the last one
may have none. -/
def terminatedLines : List Char → List (List Char)
  | [] => []
  | c :: rest =>
    if c = '\n' then ['\n'] :: terminatedLines rest else consHead c (terminatedLines rest)

/-- Carriage return, with or without a newline after it, becomes a newline. -/
def unifyNewlines : List Char → List Char
  | [] => []
  | '\r' :: '\n' :: rest => '\n' :: unifyNewlines rest
  | '\r' :: rest => '\n' :: unifyNewlines rest
  | c :: rest => c :: unifyNewlines rest

/-- A line without the newline at its end. -/
def chomp (line : String) : String :=
  let chars := line.toList
  if chars.getLast? = some '\n' then String.ofList chars.dropLast else line

/-- The lines of a command text. -/
def linesOfText (text : String) : List String :=
  (breakLines text.toList).map String.ofList

/-- The lines of a stream whose newlines are already unified. -/
def linesOfStream (text : String) : List String :=
  (terminatedLines text.toList).map String.ofList

/-- The lines of a stream as it stands in a file. -/
def linesOfRawStream (text : String) : List String :=
  (terminatedLines (unifyNewlines text.toList)).map String.ofList

/-- No line of a stream is empty, so an empty read always means its end. -/
theorem ne_nil_of_mem_terminatedLines {text line : List Char}
    (h : line ∈ terminatedLines text) : line ≠ [] := by
  induction text generalizing line with
  | nil => simp [terminatedLines] at h
  | cons c rest ih =>
    by_cases hc : c = '\n'
    · simp only [terminatedLines, hc, if_true, List.mem_cons] at h
      rcases h with rfl | h
      · simp
      · exact ih h
    · simp only [terminatedLines, hc, if_false] at h
      cases hr : terminatedLines rest with
      | nil => simp_all
      | cons first others =>
        simp only [hr, consHead_cons, List.mem_cons] at h
        rcases h with rfl | h
        · simp
        · exact ih (by simp [hr, h])

end CommandShell.Text
