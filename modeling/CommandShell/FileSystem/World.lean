/-
CommandShell.FileSystem.World — a file tree and the directory a process
works in.

The tree is changed from outside while the process runs. The working
directory is a `Place`, so it outlives its leaving the tree.
-/
import CommandShell.FileSystem.Place
import CommandShell.Path

namespace CommandShell

/-- A file tree and a working directory. -/
structure World where
  root : Node := .emptyDirectory
  workingDirectory : Place := .root

namespace World

/-- The node at a place. -/
def node? (world : World) (place : Place) : Option Node :=
  place.node? world.root

/-- The path of the working directory; one that was removed has none. -/
def workingPath? (world : World) : Option String :=
  if world.workingDirectory.isRemoved then none
  else some (Path.absolute world.workingDirectory.names)

/-! ## Changes from outside -/

/-- Removes a node from the tree. -/
def remove (world : World) (path : String) : World :=
  let names := Path.components path
  { root := world.root.remove names
    workingDirectory := world.workingDirectory.afterRemoval world.root names }

/-- Whether a node put over another one takes its place. Of two directories
the one that is there stays, and is changed. -/
def replaces (old new : Node) : Bool :=
  !(old.isDirectory && new.isDirectory)

/-- Puts a node into the tree. Where a node of another kind is, that one
gives way to it. -/
def put (world : World) (path : String) (node : Node) : World :=
  let names := Path.components path
  { root := world.root.put node names
    workingDirectory :=
      if (world.root.at? names).any (replaces · node) then
        world.workingDirectory.afterReplacement world.root names
      else world.workingDirectory }

end World

end CommandShell
