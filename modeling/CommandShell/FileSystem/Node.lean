/-
CommandShell.FileSystem.Node — file trees.

A directory holds named nodes. A file that may be executed carries what
happens when a process starts it. Paths into a tree are lists of names, and
the operations below are recursions on that list.
-/
import CommandShell.Bindings
import CommandShell.Errno

namespace CommandShell

/-- Why the system refuses to start a program. -/
inductive Refusal
  /-- A numbered error, in its own words if it has some. -/
  | numbered (errno : Errno) (message : Option String)
  /-- An error without a number. -/
  | unnumbered (message : String)
  deriving Repr, DecidableEq

/-- What happens when a process starts a program. -/
inductive Program
  /-- There is no memory left to try. -/
  | outOfMemory
  | refused (refusal : Refusal)
  /-- It runs and ends with a code, or, where the code is negative, by the
  signal of that number. Interrupts reach the shell while it waits. -/
  | runs (code : Int) (interrupts : Nat)
  deriving Repr, DecidableEq

/-- A regular file. -/
structure File where
  executable : Bool := false
  readable : Bool := true
  content : List UInt8 := []
  program : Program := .runs 0 0
  deriving Repr, DecidableEq

/-- A node of a file tree. -/
inductive Node
  /-- A directory; where it is not searchable no name in it can be looked up. -/
  | directory (searchable : Bool) (entries : List (String × Node))
  | file (file : File)
  | link (target : String)
  /-- What exists and is none of the others. -/
  | special (executable : Bool)

namespace Node

/-- A directory with nothing in it. -/
def emptyDirectory : Node := .directory true []

/-- The named nodes in a directory; in any other node there are none. -/
def entries : Node → Bindings Node
  | .directory _ entries => entries
  | _ => []

/-- Whether names can be looked up in a node. -/
def isSearchable : Node → Bool
  | .directory searchable _ => searchable
  | _ => false

def isDirectory : Node → Bool
  | .directory _ _ => true
  | _ => false

def isFile : Node → Bool
  | .file _ => true
  | _ => false

/-- Whether a node may be executed, which for a directory means searched. -/
def isExecutable : Node → Bool
  | .directory searchable _ => searchable
  | .file program => program.executable
  | .link _ => true
  | .special permitted => permitted

/-- The node that names lead to. -/
def at? : Node → List String → Option Node
  | node, [] => some node
  | node, name :: rest => (Bindings.find? node.entries name).bind fun child => child.at? rest

/-- A node put where another one is: a directory put over a directory keeps
what is in it. -/
def putOver (old new : Node) : Node :=
  match old, new with
  | .directory _ entries, .directory searchable _ => .directory searchable entries
  | _, new => new

/-- Puts a node where names lead to. Directories are made on the way. -/
def put (node new : Node) : List String → Node
  | [] => node.putOver new
  | name :: rest =>
    let child :=
      match Bindings.find? node.entries name with
      | some child => child.put new rest
      | none => if rest = [] then new else emptyDirectory.put new rest
    .directory (node.isSearchable || !node.isDirectory) (Bindings.insert node.entries name child)

/-- Takes the node away that names lead to; the root stays. -/
def remove : Node → List String → Node
  | node, [] => node
  | node, [name] =>
    match node with
    | .directory searchable entries => .directory searchable (Bindings.erase entries name)
    | node => node
  | node, name :: rest =>
    match node with
    | .directory searchable entries =>
      match Bindings.find? entries name with
      | some child => .directory searchable (Bindings.insert entries name (child.remove rest))
      | none => node
    | node => node

end Node

end CommandShell
