/-
CommandShell.Path — paths as texts.

Nothing here looks at a file tree: joining and normalising go by the
characters alone.
-/
import CommandShell.Text.Field

namespace CommandShell.Path

/-- Whether a path starts at the root. -/
def isAbsolute (path : String) : Bool :=
  path.toList.head? == some '/'

/-- Whether a path ends in a slash. -/
def endsInSlash (path : String) : Bool :=
  path.toList.getLast? == some '/'

/-- The names between the slashes of a path. -/
def components (path : String) : List String :=
  ((Text.fields '/' path.toList).filter fun name => !name.isEmpty).map String.ofList

/-- The absolute path with the given names. -/
def absolute (names : List String) : String :=
  "/" ++ Text.joinWith '/' names

/-- A path seen from a directory: an absolute one stays as it is. -/
def join (directory path : String) : String :=
  if isAbsolute path then path
  else if directory = "" ∨ endsInSlash directory then directory ++ path
  else directory ++ "/" ++ path

/-! ## Normalising -/

/-- How many slashes a normalised path starts with: exactly two stay two,
any other number of them becomes one. -/
def leadingSlashes : List Char → Nat
  | '/' :: '/' :: '/' :: _ => 1
  | '/' :: '/' :: _ => 2
  | '/' :: _ => 1
  | _ => 0

/-- Takes one component onto the names kept so far, the last one first. A
single dot changes nothing; two dots take the last name away, or are kept
where there is none to take away, or nothing at all above the root. -/
def pushComponent (rooted : Bool) (kept : List String) (component : String) : List String :=
  if component = "." then kept
  else if component = ".." then
    match kept with
    | [] => if rooted then [] else [".."]
    | last :: earlier => if last = ".." then ".." :: kept else earlier
  else component :: kept

/-- The path without empty components, single dots, and names with two dots
after them; an empty result is written as a single dot. -/
def normalise (path : String) : String :=
  let slashes := leadingSlashes path.toList
  let kept := (components path).foldl (pushComponent (slashes != 0)) []
  let text := String.ofList (List.replicate slashes '/') ++ Text.joinWith '/' kept.reverse
  if text = "" then "." else text

end CommandShell.Path
