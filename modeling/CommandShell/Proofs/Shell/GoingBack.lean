/-
CommandShell.Proofs.Shell.GoingBack — going back undoes a change of directory.

The two commands have only the text in OLDPWD in common. What holds between
them, and again after each time of going back, is `Between`: the shell is in
one directory of an open tree, and OLDPWD is the path of another. A change of
directory comes to such a state (`between_of_returned_zero`), and going back
comes from one to the one with the directories exchanged
(`Between.runCommand`). From there the shell goes back and forth any number of
times (`goes_back_and_forth`).

The directory has to be in the tree (`World.InPlace`). That it was not removed
is not enough: once another node has taken its place it is not removed and has
a path, but the path leads back to it no more. `no_way_back` shows this, and is
the only statement about directories that are merely not removed.
-/
import CommandShell.Proofs.Shell.Directory
import Mathlib.Logic.Function.Iterate

namespace CommandShell

open Builtin (destination presentPath newPath? Recordable)

/-- The outcome is that of going back into a world with the given path, from
the directory with the previous one. -/
structure WentBack (outcome : Outcome) (world : World) (path previous : String) : Prop where
  ending : outcome.ending = .returned 0
  output : outcome.transcript.output = path ++ "\n"
  world : outcome.shell.world = world
  pwd : outcome.shell.environment.get? "PWD" = some path
  oldpwd : outcome.shell.environment.get? "OLDPWD" = some previous

/-- With these aliases the words mean to go back, whatever the variables are. -/
def GoesBack (table : AliasTable) (words : List String) : Prop :=
  ∀ shell : Shell, shell.aliases = table → ∃ more, shell.prepare words = "cd" :: "-" :: more

theorem goesBack_dash {table : AliasTable} (h : table.find? "cd" = none) :
    GoesBack table ["cd", "-"] := by
  rintro shell rfl
  exact ⟨[], by simp [Shell.prepare, AliasTable.expand, h, Scope.expand, Scope.expandWord,
    Scope.expandChars]⟩

namespace Shell

/-- The state after words are run once. -/
def rerun (words : List String) (shell : Shell) : Shell :=
  (shell.runCommand words).shell

/-- A shell in one directory of an open tree, of which another one is the
previous directory. -/
structure Between (shell : Shell) (table : AliasTable) (root : Node)
    (here there : List String) : Prop where
  builtins : shell.builtins = Builtin.standard
  aliases : shell.aliases = table
  world : shell.world = ⟨root, .inTree here⟩
  openRoot : root.Open
  present : ∃ entries, root.at? here = some (.directory true entries)
  previous : ∃ entries, root.at? there = some (.directory true entries)
  oldpwd : shell.environment.get? "OLDPWD" = some (Path.absolute there)

variable {shell : Shell} {table : AliasTable} {root : Node} {here there : List String}

namespace Between

theorem inPlace (h : Between shell table root here there) : shell.world.InPlace here := by
  obtain ⟨entries, hpresent⟩ := h.present
  rw [h.world]
  exact ⟨rfl, true, entries, hpresent⟩

/-- The previous directory is where one goes back to. -/
theorem destination_dash (h : Between shell table root here there) (more : List String) :
    destination shell.environment ("-" :: more) = .ok ⟨Path.absolute there, true⟩ := by
  have hne := Path.ne_empty_of_isAbsolute (Path.isAbsolute_absolute there)
  have hrequired : Builtin.required shell.environment "OLDPWD" = .ok (Path.absolute there) := by
    simp only [Builtin.required, h.oldpwd]
  rw [destination, if_neg (by decide), if_pos rfl, hrequired]
  rfl

theorem changeDirectory_back (h : Between shell table root here there) :
    shell.world.changeDirectory (Path.absolute there) = .ok ⟨root, .inTree there⟩ := by
  obtain ⟨entries, hprevious⟩ := h.previous
  rw [h.world]
  exact World.changeDirectory_eq_ok_iff.mpr
    ⟨_, entries, World.resolve_absolute h.openRoot hprevious, hprevious, rfl⟩

/-- The path that is recorded is the one that was there before. -/
theorem newPath?_back (h : Between shell table root here there) (world : World) :
    newPath? world (presentPath shell) (Path.absolute there) = some (Path.absolute there) := by
  obtain ⟨entries, hprevious⟩ := h.previous
  rw [presentPath_of_inPlace h.inPlace, newPath?_absolute,
    Path.join_of_isAbsolute (Path.isAbsolute_absolute there),
    Path.normalise_absolute (h.openRoot.named there _ hprevious)]

theorem recordable (h : Between shell table root here there) (world : World) :
    Recordable shell world := by
  obtain ⟨entries, hpresent⟩ := h.present
  rw [Recordable, presentPath_of_inPlace h.inPlace]
  refine ⟨Path.nul_not_mem_absolute (h.openRoot.named here _ hpresent), fun hempty => ?_⟩
  exact absurd hempty (Path.ne_empty_of_isAbsolute (Path.isAbsolute_absolute here))

/-- **Going back exchanges the two directories.** -/
theorem runCommand (h : Between shell table root here there) {back : List String}
    (hback : GoesBack table back) :
    WentBack (shell.runCommand back) ⟨root, .inTree there⟩ (Path.absolute there)
        (Path.absolute here) ∧
      Between (rerun back shell) table root there here := by
  obtain ⟨more, hprepared⟩ := hback shell h.aliases
  -- That it succeeds comes first; what a success leaves is known of every change.
  obtain ⟨answer, path, -, -, hcd⟩ := Builtin.exists_done_of_recordable (h.destination_dash more)
    h.changeDirectory_back (h.recordable _)
  have hdone : (shell.runCommand back).ending = .returned 0 := by
    rw [(answered_cd h.builtins hprepared).ending, hcd]
    rfl
  obtain ⟨aim, world, new, environment, status, haim, hmove, hnew, -, hpwd, holdpwd, hshell,
    houtput⟩ := changed_of_returned_zero h.builtins hprepared hdone
  rw [h.destination_dash more] at haim
  obtain rfl := Except.ok.inj haim
  rw [h.changeDirectory_back] at hmove
  obtain rfl := Except.ok.inj hmove
  rw [h.newPath?_back] at hnew
  obtain rfl := Option.some.inj hnew
  rw [presentPath_of_inPlace h.inPlace] at holdpwd
  refine ⟨⟨hdone, houtput, ?_, ?_, ?_⟩, ?_⟩
  · rw [hshell]
  · rw [hshell]
    exact hpwd
  · rw [hshell]
    exact holdpwd
  · rw [rerun, hshell]
    exact ⟨h.builtins, h.aliases, rfl, h.openRoot, h.previous, h.present, holdpwd⟩

/-- After an even number of times the shell is where it was, and after one more
it is in the other directory. -/
theorem iterate (h : Between shell table root here there) {back : List String}
    (hback : GoesBack table back) (times : Nat) :
    Between ((rerun back)^[2 * times] shell) table root here there ∧
      Between ((rerun back)^[2 * times + 1] shell) table root there here := by
  have hnext : ∀ count, Between ((rerun back)^[count] shell) table root here there →
      Between ((rerun back)^[count + 1] shell) table root there here := by
    intro count hcount
    rw [Function.iterate_succ_apply']
    exact (hcount.runCommand hback).2
  induction times with
  | zero => exact ⟨h, hnext 0 h⟩
  | succ times ih =>
    have heven : Between ((rerun back)^[2 * (times + 1)] shell) table root here there := by
      rw [Nat.mul_succ, Function.iterate_succ_apply']
      exact (ih.2.runCommand hback).2
    exact ⟨heven, hnext _ heven⟩

end Between

/-- A change of directory comes to a state between the new directory and the
old one. -/
theorem between_of_returned_zero (hbuiltins : shell.builtins = Builtin.standard)
    (hopen : shell.world.root.Open) (hplace : shell.world.InPlace here)
    {words operands : List String} (hcd : shell.prepare words = "cd" :: operands)
    (hdone : (shell.runCommand words).ending = .returned 0) :
    ∃ there, Between (shell.runCommand words).shell shell.aliases shell.world.root there here := by
  obtain ⟨aim, world, new, environment, status, -, hmove, -, -, -, holdpwd, hshell, -⟩ :=
    changed_of_returned_zero hbuiltins hcd hdone
  obtain ⟨place, entries, hresolve, hnode, rfl⟩ := World.changeDirectory_eq_ok_iff.mp hmove
  obtain ⟨links, -, hleads⟩ := World.leads_join hopen hplace hresolve
  obtain ⟨there, rfl⟩ := hleads.inTree ⟨[], rfl⟩
  rw [presentPath_of_inPlace hplace] at holdpwd
  obtain ⟨-, searchable, siblings, hpresent⟩ := hplace
  obtain rfl := hopen.searchable here searchable siblings hpresent
  refine ⟨there, ?_⟩
  rw [hshell]
  exact ⟨hbuiltins, rfl, rfl, hopen, ⟨entries, hnode⟩, ⟨siblings, hpresent⟩, holdpwd⟩

end Shell

/-- **Going back undoes a change of directory**, in every state of a session in
which the working directory is in an open tree. After a change that succeeded,
with whatever operands, words that mean to go back succeed any number of times
in a row. By turns they restore the world from before the change and the one
from after it, that is, the very directory in the very tree; they show the path
of that directory, and they leave that path in PWD and the path of the other
directory in OLDPWD. -/
theorem goes_back_and_forth {count : Nat} {shell : Shell} (h : Session count shell)
    (hopen : shell.world.root.Open) {names : List String} (hplace : shell.world.InPlace names)
    {words operands : List String} (hcd : shell.prepare words = "cd" :: operands)
    (hdone : (shell.runCommand words).ending = .returned 0)
    {back : List String} (hback : GoesBack shell.aliases back) :
    let moved := (shell.runCommand words).shell
    ∃ old new, shell.world.workingPath? = some old ∧ moved.world.workingPath? = some new ∧
      ∀ times,
        WentBack (((Shell.rerun back)^[2 * times] moved).runCommand back) shell.world old new ∧
        WentBack (((Shell.rerun back)^[2 * times + 1] moved).runCommand back) moved.world
          new old := by
  intro moved
  obtain ⟨there, hbetween⟩ :=
    Shell.between_of_returned_zero h.builtins hopen hplace hcd hdone
  have hold : shell.world = ⟨shell.world.root, .inTree names⟩ := by rw [← hplace.1]
  have hnew : moved.world = ⟨shell.world.root, .inTree there⟩ := hbetween.world
  refine ⟨Path.absolute names, Path.absolute there, ?_, ?_, fun times => ?_⟩
  · rw [hold]
    rfl
  · rw [hnew]
    rfl
  · obtain ⟨heven, hodd⟩ := hbetween.iterate hback times
    rw [hold, hnew]
    exact ⟨(heven.runCommand hback).1, (hodd.runCommand hback).1⟩

/-- Out of the root through a link. PWD then has the name of the link, but once
the shell has gone back and forth it has the names of the directory. -/
theorem goes_back_and_forth_through_link :
    let world : World := { root := .linked }
    let shell : Shell :=
      { programName := "minish", processId := 1, environment := .ofPairs [], world,
        builtins := Builtin.standard }
    let moved := (shell.runCommand ["cd", "l"]).shell
    Session 0 shell ∧ moved.environment.get? "PWD" = some "/l" ∧
      ∀ times,
        WentBack (((Shell.rerun ["cd", "-"])^[2 * times] moved).runCommand ["cd", "-"])
          shell.world "/" "/a/b" ∧
        WentBack (((Shell.rerun ["cd", "-"])^[2 * times + 1] moved).runCommand ["cd", "-"])
          moved.world "/a/b" "/" := by
  intro world shell moved
  have hsession : Session 0 shell := .start "minish" 1 [] world
  obtain ⟨old, new, hold, hnew, hback⟩ := @goes_back_and_forth 0 shell hsession
    Node.open_linked [] ⟨rfl, _, _, rfl⟩ ["cd", "l"] ["l"] (by decide +kernel) (by decide +kernel) ["cd", "-"]
    (goesBack_dash rfl)
  have hroot : shell.world.workingPath? = some "/" := by decide +kernel
  have hmoved : moved.world.workingPath? = some "/a/b" := by decide +kernel
  obtain rfl := Option.some.inj (hroot.symm.trans hold)
  obtain rfl := Option.some.inj (hmoved.symm.trans hnew)
  exact ⟨hsession, by decide +kernel, hback⟩

/-- A file takes the place of the working directory. The directory was not
removed and still has a path, but that path leads to the file, so there is no
way back. -/
theorem no_way_back :
    let world : World :=
      { root := .directory true [("d", .directory true [])], workingDirectory := .inTree ["d"] }
    let replaced := world.put "/d" (.file {})
    let shell : Shell :=
      { programName := "minish", processId := 1, environment := .ofPairs [], world := replaced,
        builtins := Builtin.standard }
    let outcome := shell.runCommand ["cd", "/"]
    Session 0 shell ∧ replaced.root.Open ∧ replaced.workingDirectory.isRemoved = false ∧
      replaced.workingPath? = some "/d" ∧ outcome.ending = .returned 0 ∧
      (outcome.shell.runCommand ["cd", "-"]).ending = .returned 2 := by
  intro world replaced shell outcome
  have hsession : Session 0 shell := .start "minish" 1 [] replaced
  have hopen : replaced.root.Open := by
    have hfile : (Node.file {}).Open := Node.open_of_entries_eq_nil rfl rfl
    have hroot : replaced.root = .directory true [("d", .file {})] := rfl
    rw [hroot]
    exact Node.open_directory (by simpa using ⟨by decide, hfile⟩)
  exact ⟨hsession, hopen, by decide +kernel, by decide +kernel, by decide +kernel,
    by decide +kernel⟩

end CommandShell
