/-
CommandShell.FileSystem.Walk — following a path through a file tree.

A walk goes down the components of a path until it meets a link that has to
be followed; the components of the link's target then come before those
that are left. `descend` is a recursion on the components, `walk` one on
the number of links that may still be followed. Opening, searching and
changing the directory are walks with a look at the node they end at.
-/
import CommandShell.FileSystem.World

namespace CommandShell

/-- Why a path leads nowhere. -/
inductive PathError
  /-- The path holds the character NUL. -/
  | embeddedNul
  | system (errno : Errno)
  deriving Repr, DecidableEq

namespace World

/-- Where a descent stops. -/
inductive Stop
  /-- All components are used up. -/
  | arrived (place : Place)
  /-- A link in the directory `holder` has to be followed before the
  components that are left. -/
  | link (holder : Place) (target : String) (rest : List String)

/-- Goes down components from a place. The last component is followed, if it
is a link, only when `followLast` says so. -/
def descend (world : World) (followLast : Bool) (place : Place) :
    List String → Except Errno Stop
  | [] => .ok (.arrived place)
  | name :: rest =>
    match world.node? place with
    | some (.directory searchable entries) =>
      if !searchable then .error .eacces
      else if name = "." then descend world followLast place rest
      else if name = ".." then descend world followLast place.parent rest
      else
        match Bindings.find? entries name with
        | none => .error .enoent
        | some (.link target) =>
          if rest ≠ [] ∨ followLast then .ok (.link place target rest)
          else .ok (.arrived (place.child name))
        | some _ => descend world followLast (place.child name) rest
    | _ => .error .enotdir

/-- The place where a path starts: the root for an absolute one. -/
def startOf (place : Place) (path : String) : Place :=
  if Path.isAbsolute path then .root else place

/-- How many links one walk follows at most. -/
def linkLimit : Nat := 40

/-- Walks down components and follows at most `links` links. A walk that
wants a directory follows a link in the last position too, and fails where
it ends at any other node. -/
def walk (world : World) (follow wantDirectory : Bool) (place : Place) (components : List String)
    (links : Nat) : Except Errno Place :=
  match world.descend (follow || wantDirectory) place components with
  | .error errno => .error errno
  | .ok (.arrived place) =>
    if wantDirectory && !((world.node? place).any Node.isDirectory) then .error .enotdir
    else .ok place
  | .ok (.link holder target rest) =>
    match links with
    | 0 => .error .eloop
    | links + 1 =>
      world.walk follow (wantDirectory || (rest.isEmpty && Path.endsInSlash target))
        (startOf holder target) (Path.components target ++ rest) links

/-- The place that a path leads to. Without `follow`, a link in the last
position is where the path leads. -/
def resolve (world : World) (follow : Bool) (path : String) : Except PathError Place :=
  if path.toList.contains '\x00' then .error .embeddedNul
  else if path = "" then .error (.system .enoent)
  else
    (world.walk follow (Path.endsInSlash path) (startOf world.workingDirectory path)
      (Path.components path) linkLimit).mapError .system

/-- The node that a path leads to, links followed. -/
def lookup (world : World) (path : String) : Except PathError Node :=
  match world.resolve true path with
  | .error error => .error error
  | .ok place =>
    match world.node? place with
    | some node => .ok node
    | none => .error (.system .enoent)

/-- Whether something has the path, be it a link that leads nowhere. -/
def entryExists (world : World) (path : String) : Bool :=
  match world.resolve false path with
  | .ok _ => true
  | .error _ => false

/-- Whether a path leads to a regular file that may be executed. -/
def isExecutableFile (world : World) (path : String) : Bool :=
  match world.lookup path with
  | .ok node => node.isFile && node.isExecutable
  | .error _ => false

/-- The world after the working directory is changed. -/
def changeDirectory (world : World) (path : String) : Except PathError World :=
  match world.resolve true path with
  | .error error => .error error
  | .ok place =>
    match world.node? place with
    | some (.directory true _) => .ok { world with workingDirectory := place }
    | some (.directory false _) => .error (.system .eacces)
    | _ => .error (.system .enotdir)

/-- The bytes of what a path leads to. -/
def read (world : World) (path : String) : Except PathError (List UInt8) :=
  match world.lookup path with
  | .error error => .error error
  | .ok (.directory _ _) => .error (.system .eisdir)
  | .ok (.file file) => if file.readable then .ok file.content else .error (.system .eacces)
  | .ok _ => .ok []

end World

end CommandShell
