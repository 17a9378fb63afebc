/-
CommandShell.Proofs.Shell.WorkingPath — PWD against the working directory's
own path.

A change of directory goes one way through the tree and another on the text.
Without links both end at the same names (`World.names_of_resolve` and
`Path.normalise_join_absolute` have the same right side), so what is recorded
in PWD is what the process would be told if it asked where it is. One slash
makes a difference: a target with just two of them at its beginning keeps
them. `Builtin.Aims` says which target is meant.
-/
import CommandShell.Proofs.FileSystem.Linkless
import CommandShell.Proofs.Shell.Directory

namespace CommandShell

open Builtin (destination presentPath newPath?)

/-- The target that the operands of a change of directory aim at. -/
inductive Builtin.Aims (env : Environment) : List String → String → Prop
  | home {target : String} (h : env.get? "HOME" = some target) : Aims env [] target
  | dashes {target : String} (h : env.get? "HOME" = some target) (more : List String) :
      Aims env ("--" :: more) target
  | dash {target : String} (h : env.get? "OLDPWD" = some target) (more : List String) :
      Aims env ("-" :: more) target
  | operand {target : String} (hdashes : target ≠ "--") (hdash : target ≠ "-")
      (more : List String) : Aims env (target :: more) target

theorem Builtin.required_eq_ok {env : Environment} {name value : String}
    (h : required env name = .ok value) : env.get? name = some value := by
  unfold required at h
  split at h
  · cases h
  · cases h
  · next hget =>
    cases h
    exact hget

/-- The target is what the operands aim at, and it is announced after one
dash. -/
theorem Builtin.aims_of_destination {env : Environment} {operands : List String}
    {aim : Destination} (h : destination env operands = .ok aim) :
    Aims env operands aim.target ∧ aim.announced = decide (operands.head? = some "-") := by
  have hrequired : ∀ {name : String} {announced : Bool},
      (required env name).map (fun target => (⟨target, announced⟩ : Destination)) = .ok aim →
        env.get? name = some aim.target ∧ aim.announced = announced := by
    intro name announced hmap
    cases hvalue : required env name with
    | error fault =>
      rw [hvalue] at hmap
      cases hmap
    | ok value =>
      rw [hvalue] at hmap
      cases hmap
      exact ⟨required_eq_ok hvalue, rfl⟩
  unfold destination at h
  cases operands with
  | nil =>
    obtain ⟨hget, hannounced⟩ := hrequired h
    exact ⟨.home hget, hannounced⟩
  | cons operand more =>
    dsimp only at h
    split at h
    · next hdashes =>
      subst hdashes
      obtain ⟨hget, hannounced⟩ := hrequired h
      exact ⟨.dashes hget more, hannounced⟩
    · next hdashes =>
      split at h
      · next hdash =>
        subst hdash
        obtain ⟨hget, hannounced⟩ := hrequired h
        exact ⟨.dash hget more, hannounced⟩
      · next hdash =>
        split at h
        · cases h
        · cases h
          exact ⟨.operand hdashes hdash more, by simp [hdash]⟩

/-- What the process is told is the path of the names of its working
directory. -/
theorem World.names_of_workingPath? {world : World} {path : String}
    (h : world.workingPath? = some path) : path = Path.absolute world.workingDirectory.names := by
  unfold workingPath? at h
  split at h
  · cases h
  · exact (Option.some.inj h).symm

/-- **PWD is the path of the working directory** after every change of directory
that succeeds, in every state of a session in whose world there are no links
and where the working directory has a path. It is the text that the process
would be told, but for one slash more in front of it when the target begins
with just two. OLDPWD is the text that it would have been told before, and PWD
is shown after one dash alone. Where no directory was removed above the
working directory, the new one has a path. -/
theorem pwd_is_working_path {count : Nat} {shell : Shell} (h : Session count shell)
    (hworld : shell.world.Linkless) {old : String} (hold : shell.world.workingPath? = some old)
    {words operands : List String} (hcd : shell.prepare words = "cd" :: operands)
    (hdone : (shell.runCommand words).ending = .returned 0) :
    let after := (shell.runCommand words).shell
    let real := Path.absolute after.world.workingDirectory.names
    (shell.world.workingDirectory.Intact → after.world.workingPath? = some real) ∧
      (∀ path, after.world.workingPath? = some path → path = real) ∧
      ∃ target pwd, Builtin.Aims shell.environment operands target ∧
        pwd = (if Path.slashCount target = 2 then "/" else "") ++ real ∧
        after.environment.get? "PWD" = some pwd ∧
        after.environment.get? "OLDPWD" = some old ∧
        (shell.runCommand words).transcript.output =
          if operands.head? = some "-" then pwd ++ "\n" else "" := by
  intro after real
  obtain ⟨aim, world, new, environment, status, haim, hmove, hnew, -, hpwd, holdpwd, hshell,
    houtput⟩ := Shell.changed_of_returned_zero h.builtins hcd hdone
  obtain ⟨place, entries, hresolve, -, rfl⟩ := World.changeDirectory_eq_ok_iff.mp hmove
  obtain ⟨htarget, hannounced⟩ := Builtin.aims_of_destination haim
  have hworking : after.world.workingDirectory = place := by simp [after, hshell]
  have hpresent : presentPath shell = old := by simp [presentPath, hold]
  obtain rfl := World.names_of_workingPath? hold
  have hnames : ∀ name ∈ shell.world.workingDirectory.names, Path.IsComponent name :=
    fun name hname => (hworld.workingDirectory.isName name hname).toIsComponent
  rw [hpresent] at hnew holdpwd
  rw [Shell.newPath?_absolute, Path.normalise_join_absolute hnames,
    ← World.names_of_resolve hworld hresolve, ← hworking] at hnew
  refine ⟨fun hintact => ?_, fun path => World.names_of_workingPath?, aim.target, new, htarget,
    (Option.some.inj hnew).symm, ?_, ?_, ?_⟩
  · have hplace := World.intact_of_resolve hintact hresolve
    rw [World.workingPath?, hworking, hplace.isRemoved_eq_false]
    simp [real, hworking]
  · simpa [after, hshell] using hpwd
  · simpa [after, hshell] using holdpwd
  · simpa [hannounced] using houtput

/-- From a directory whose place a file has taken, in a world with a directory
that cannot be searched, to a target with two slashes. -/
theorem pwd_is_working_path_slashes :
    let siblings : Bindings Node :=
      [("b", .file {}), ("c", .directory false []), ("d", .emptyDirectory)]
    let world : World :=
      { root := .directory true [("a", .directory true siblings)]
        workingDirectory := .apart (.inTree ["a"]) (.ofReplaced "b" .emptyDirectory) [] }
    let shell : Shell :=
      { programName := "minish", processId := 1, environment := .ofPairs [("OLDPWD", "//a/d/./..")],
        world, builtins := Builtin.standard }
    let after := (shell.runCommand ["cd", "-"]).shell
    Session 0 shell ∧ shell.world.workingPath? = some "/a/b" ∧
      after.world.workingDirectory.names = ["a"] ∧
      after.world.workingPath? = some (Path.absolute after.world.workingDirectory.names) ∧
      after.environment.get? "PWD" = some "//a" ∧
      after.environment.get? "OLDPWD" = some "/a/b" := by
  intro siblings world shell after
  have hsession : Session 0 shell := .start "minish" 1 [("OLDPWD", "//a/d/./..")] world
  have hempty : ∀ searchable, (Node.directory searchable []).Linkless := fun searchable =>
    .directory (by simp) (by simp)
  have hsiblings : (Node.directory true siblings).Linkless := by
    refine .directory (by simpa [siblings] using ⟨by decide, by decide, by decide⟩) ?_
    simpa [siblings] using ⟨.file {}, hempty false, hempty true⟩
  have hworld : shell.world.Linkless := by
    refine ⟨.directory (by simpa using by decide) (by simpa using hsiblings), ?_⟩
    exact .apart (.inTree (by simpa using by decide)) (by decide) (hempty true) (by simp)
  have hold : shell.world.workingPath? = some "/a/b" := by decide +kernel
  obtain ⟨hintact, -, target, pwd, -, -, -, holdpwd, -⟩ := @pwd_is_working_path 0 shell hsession
    hworld "/a/b" hold ["cd", "-"] ["-"] (by decide +kernel) (by decide +kernel)
  exact ⟨hsession, hold, by decide +kernel, hintact (.apart (.inTree ["a"]) rfl []),
    by decide +kernel, holdpwd⟩

end CommandShell
