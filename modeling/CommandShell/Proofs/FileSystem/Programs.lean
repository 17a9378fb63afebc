/-
CommandShell.Proofs.FileSystem.Programs — what holds of all programs of a
world.

A process that changes its directory comes to see other files, those of
directories among them that have left the tree. A property of all programs of
a world (`World.Programs`) is one of those in its tree and of those in every
detached directory that one can go up through from the working directory.
Paths lead to no others (`lookup`), and a change of directory keeps the
property (`changeDirectory`), so any number of them does (`moves`).
-/
import CommandShell.Process
import CommandShell.Proofs.FileSystem.RealPath

namespace CommandShell

variable {good : Program → Prop}

/-- The property holds of the program of each file that names lead to. -/
def Node.Programs (good : Program → Prop) (node : Node) : Prop :=
  ∀ names file, node.at? names = some (.file file) → good file.program

namespace Node

theorem programs_file {file : File} (h : good file.program) : (Node.file file).Programs good := by
  intro names other hother
  cases names with
  | nil =>
    cases hother
    exact h
  | cons name rest => simp [at?, entries] at hother

/-- The property holds in a directory if it holds of all that is in it. -/
theorem programs_directory {searchable : Bool} {entries : Bindings Node}
    (h : ∀ entry ∈ entries, entry.2.Programs good) :
    (Node.directory searchable entries).Programs good := by
  intro names file hfile
  cases names with
  | nil => cases hfile
  | cons name rest =>
    obtain ⟨child, hfind, hrest⟩ := Option.bind_eq_some_iff.mp hfile
    exact h _ (Bindings.mem_of_find? hfind) rest file hrest

end Node

/-- It holds in every detached directory that a place is in. -/
def Place.Programs (good : Program → Prop) : Place → Prop
  | .inTree _ => True
  | .apart above top _ => above.Programs good ∧ top.node.Programs good

/-- It holds in the tree and wherever the working directory is. -/
structure World.Programs (good : Program → Prop) (world : World) : Prop where
  root : world.root.Programs good
  workingDirectory : world.workingDirectory.Programs good

namespace Place.Programs

variable {place : Place}

theorem parent (h : place.Programs good) : place.parent.Programs good := by
  cases place with
  | inTree names => trivial
  | apart above top names =>
    cases names with
    | nil => exact h.1
    | cons name rest => exact h

theorem child (h : place.Programs good) (name : String) : (place.child name).Programs good := by
  cases place with
  | inTree names => trivial
  | apart above top names => exact h

end Place.Programs

namespace World

variable {world : World} {place final : Place}

theorem Step.programs {name : String} (h : Step world place name final)
    (hplace : place.Programs good) : final.Programs good := by
  cases h with
  | stay => exact hplace
  | up => exact hplace.parent
  | down => exact hplace.child _

theorem programs_startOf (hplace : place.Programs good) (path : String) :
    (startOf place path).Programs good := by
  unfold startOf
  split
  · trivial
  · exact hplace

theorem Leads.programs {components : List String} {links : Nat}
    (h : Leads world place components links final) (hplace : place.Programs good) :
    final.Programs good := by
  induction h with
  | arrived place => exact hplace
  | step hstep _ ih => exact ih (hstep.programs hplace)
  | @link place final name target rest links _ _ ih => exact ih (programs_startOf hplace target)

namespace Programs

variable (h : world.Programs good)
include h

theorem resolve {path : String} (hresolve : world.resolve true path = .ok final) :
    final.Programs good := by
  obtain ⟨-, links, -, hleads⟩ := leads_of_resolve hresolve
  exact hleads.programs (programs_startOf h.workingDirectory path)

theorem node? (hplace : place.Programs good) {file : File}
    (hnode : world.node? place = some (.file file)) : good file.program := by
  cases place with
  | inTree names => exact h.root names file hnode
  | apart above top names => exact hplace.2 names file hnode

theorem lookup {path : String} {file : File} (hlookup : world.lookup path = .ok (.file file)) :
    good file.program := by
  unfold World.lookup at hlookup
  split at hlookup
  · cases hlookup
  · next place hresolve =>
    split at hlookup
    · next node hnode =>
      cases hlookup
      exact h.node? (h.resolve hresolve) hnode
    · cases hlookup

theorem changeDirectory {path : String} {after : World}
    (hmove : world.changeDirectory path = .ok after) : after.Programs good := by
  obtain ⟨place, entries, hresolve, -, rfl⟩ := World.changeDirectory_eq_ok_iff.mp hmove
  exact ⟨h.root, h.resolve hresolve⟩

theorem moves {after : World} (hmoves : world.Moves after) : after.Programs good := by
  induction hmoves with
  | refl => exact h
  | tail _ hmove ih =>
    obtain ⟨path, hmove⟩ := hmove
    exact ih.changeDirectory hmove

/-- A program that is started is one of those of the world. -/
theorem start {attempt : Attempt} {code : Int} {interrupts : Nat}
    (hstart : attempt.start world = .running code interrupts) : good (.runs code interrupts) := by
  unfold Attempt.start at hstart
  split at hstart
  · cases hstart
  · split at hstart
    · cases hstart
    · cases hstart
    · next file hlookup =>
      split at hstart
      · have hprogram := h.lookup hlookup
        cases hrun : file.program with
        | runs other more =>
          rw [hrun] at hstart hprogram
          cases hstart
          exact hprogram
        | outOfMemory =>
          rw [hrun] at hstart
          cases hstart
        | refused refusal =>
          rw [hrun] at hstart
          cases hstart
      · cases hstart
    · cases hstart

end Programs

end World

end CommandShell
