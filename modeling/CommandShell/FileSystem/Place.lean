/-
CommandShell.FileSystem.Place — where a node is, in the tree or apart from it.

A process stays in its working directory when that directory leaves the
tree, and can still go up from it. A directory leaves in one of two ways. A
removed one is empty for good, as are all that were below it. One that had
to give way to another node keeps what is in it, and nothing that is done to
the tree later reaches it there. A `Place` is therefore a way down the tree,
followed by a way down each detached directory that was gone through.

Going down to a name adds it to the names of a place, and going up drops the
last one (`names_child`, `names_parent`).
-/
import CommandShell.FileSystem.Node

namespace CommandShell

/-- A directory that has left the tree, with the name that it had and what
is still in it. -/
structure Detached where
  name : String
  node : Node
  /-- Whether it was removed, and did not merely give way to another node. -/
  removed : Bool

namespace Detached

/-- What removing leaves of a node. -/
def ofRemoved (name : String) (node : Node) : Detached :=
  ⟨name, .directory node.isSearchable [], true⟩

/-- What is left of a node that another one took the place of. -/
def ofReplaced (name : String) (node : Node) : Detached :=
  ⟨name, node, false⟩

end Detached

/-- Where a node is. -/
inductive Place
  /-- In the tree, with the names that lead down to it from the root. -/
  | inTree (names : List String)
  /-- In a detached directory, with the names that lead down to it from
  there. The detached directory was in the directory at `above`. -/
  | apart (above : Place) (top : Detached) (names : List String)

namespace Place

/-- The place of the root. -/
def root : Place := .inTree []

/-- The directory above; the root is its own. -/
def parent : Place → Place
  | .inTree names => .inTree names.dropLast
  | .apart above _ [] => above
  | .apart above top names => .apart above top names.dropLast

/-- The node of the given name in a directory. -/
def child (name : String) : Place → Place
  | .inTree names => .inTree (names ++ [name])
  | .apart above top names => .apart above top (names ++ [name])

/-- The names down from the root, those of detached directories among them. -/
def names : Place → List String
  | .inTree names => names
  | .apart above top names => above.names ++ top.name :: names

/-- Whether the directory at a place was removed. -/
def isRemoved : Place → Bool
  | .inTree _ => false
  | .apart _ top _ => top.removed

/-- The node at a place, where the tree has the given root. -/
def node? (tree : Node) : Place → Option Node
  | .inTree names => tree.at? names
  | .apart _ top names => top.node.at? names

theorem names_child (name : String) (place : Place) :
    (place.child name).names = place.names ++ [name] := by
  cases place <;> simp [child, names]

theorem names_parent (place : Place) : place.parent.names = place.names.dropLast := by
  cases place with
  | inTree here => rfl
  | apart above top here =>
    cases here with
    | nil => simp [parent, names]
    | cons name rest =>
      simp [parent, names, List.dropLast_append_of_ne_nil]

/-! ## Leaving the tree -/

/-- Moves the part of a place that is in the tree. -/
def moveInTree (move : List String → Place) : Place → Place
  | .inTree names => move names
  | .apart above top names => .apart (above.moveInTree move) top names

/-- Goes down names from a node at a place when all that is below the node
is removed: each directory on the way is left in the one above it. -/
def throughRemoved (above : Place) (node : Node) : List String → Place
  | [] => above
  | name :: rest =>
    let next := (Bindings.find? node.entries name).getD .emptyDirectory
    throughRemoved (.apart above (.ofRemoved name next) []) next rest

/-- What a place becomes when the node that the names `taken` lead to is
removed from a tree. -/
def afterRemoval (tree : Node) (taken : List String) : Place → Place :=
  moveInTree fun here =>
    if taken ≠ [] ∧ taken.isPrefixOf here then
      let kept := taken.dropLast
      throughRemoved (.inTree kept) ((tree.at? kept).getD .emptyDirectory) (here.drop kept.length)
    else .inTree here

/-- What a place becomes when the node that the names `taken` lead to gives
way to another node. The root never does. -/
def afterReplacement (tree : Node) (taken : List String) : Place → Place :=
  moveInTree fun here =>
    match taken.getLast?, tree.at? taken with
    | some name, some node =>
      if taken.isPrefixOf here then
        .apart (.inTree taken.dropLast) (.ofReplaced name node) (here.drop taken.length)
      else .inTree here
    | _, _ => .inTree here

end Place

end CommandShell
