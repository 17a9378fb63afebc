/-
CommandShell.Proofs.Shell.Directory — what a change of directory leaves.

§1 opens a command that changed the directory (`changed_of_returned_zero`):
where it was to go, where it came to and what it recorded. §2 compares the two
ways to the new directory. The process went through the tree, link by link;
PWD was worked out on the text. They come to the same directory as long as no
two dots take the name of a link away (`pwd_leads_to_workingDirectory`), and
they need not otherwise (`pwd_leads_astray`). The old directory is in the tree
in both (`World.InPlace`, which says more than that it was not removed). §3 is about a change that fails.
It leaves all as it was as long as nothing stands in the way of recording it
(`failed_change_leaves_all`); otherwise it fails when the shell has moved
(`failed_change_moves`).
-/
import CommandShell.Proofs.Builtin.ChangeDirectory
import CommandShell.Proofs.Shell.Answer
import CommandShell.Proofs.Shell.Session

namespace CommandShell

open Builtin (destination presentPath newPath? Recordable)

/-! ## §1 A change that succeeded -/

namespace Shell

variable {shell : Shell} {words operands : List String}

theorem answered_cd (h : shell.builtins = Builtin.standard)
    (hcd : shell.prepare words = "cd" :: operands) :
    Answered (shell.runCommand words) (Builtin.cd shell operands) :=
  answered_standard h .cd hcd

/-- A command that changed the directory went to its target and recorded the
old path and the new one. -/
theorem changed_of_returned_zero (h : shell.builtins = Builtin.standard)
    (hcd : shell.prepare words = "cd" :: operands)
    (hdone : (shell.runCommand words).ending = .returned 0) :
    ∃ aim world new environment status,
      destination shell.environment operands = .ok aim ∧
      shell.world.changeDirectory aim.target = .ok world ∧
      newPath? world (presentPath shell) aim.target = some new ∧ '\x00' ∉ new.toList ∧
      environment.get? "PWD" = some new ∧ environment.get? "OLDPWD" = some (presentPath shell) ∧
      (shell.runCommand words).shell = { shell with world, environment, lastStatus := status } ∧
      (shell.runCommand words).transcript.output = if aim.announced then new ++ "\n" else "" := by
  obtain ⟨⟨status, hshell⟩, hending, houtput⟩ := answered_cd h hcd
  rw [hdone] at hending
  have hchange := Builtin.change_cd shell operands
  generalize Builtin.cd shell operands = answer at hshell hending houtput hchange
  cases hchange with
  | nowhere haim => exact absurd (Ending.returned.inj hending).symm (Fault.status_ne_zero _)
  | refused haim hmove => cases hending
  | pathless haim hmove hnew => cases hending
  | unrecorded haim hmove hnew hrecord => cases hending
  | @changed aim world new after haim hmove hnew hrecord =>
    obtain ⟨first, second, hfirst, hsecond, rfl⟩ := Builtin.recordChange_eq_true_iff.mp hrecord
    have hpwd := Environment.get?_of_set? hsecond "PWD"
    have holdpwd := Environment.get?_of_set? hsecond "OLDPWD"
    have hprevious := Environment.get?_of_set? hfirst "OLDPWD"
    refine ⟨aim, world, new, second, status, haim, hmove, hnew,
      (Environment.set?_eq_some_iff.mp hsecond).2.1, ?_, ?_, hshell, houtput⟩
    · simpa using hpwd
    · simpa [hprevious] using holdpwd

/-! ## §2 PWD -/

/-- The path of a directory of the tree is known. -/
theorem presentPath_of_inPlace {names : List String} (h : shell.world.InPlace names) :
    presentPath shell = Path.absolute names := by
  simp [presentPath, World.workingPath?, h.1, Place.isRemoved, Place.names]

theorem newPath?_absolute (world : World) (names : List String) (target : String) :
    newPath? world (Path.absolute names) target =
      some (Path.normalise (Path.join (Path.absolute names) target)) :=
  if_neg (Path.ne_empty_of_isAbsolute (Path.isAbsolute_absolute names))

end Shell

/-- **PWD leads to the working directory** after every change of directory
that succeeds, in every state of a session in which the working directory is
in an open tree. The new value is absolute, and a walk from the root, links
followed, comes to the very place at which the shell is now. The proviso is
that no two dots of the target take the name of a link away: the process goes
up from where the link leads, and PWD from where the link stands. -/
theorem pwd_leads_to_workingDirectory {count : Nat} {shell : Shell} (h : Session count shell)
    (hopen : shell.world.root.Open) {names : List String} (hplace : shell.world.InPlace names)
    {words operands : List String} (hcd : shell.prepare words = "cd" :: operands)
    (hdone : (shell.runCommand words).ending = .returned 0)
    (hlinks : ∀ aim, destination shell.environment operands = .ok aim →
      shell.world.ClearOfLinks
        (Path.components (Path.join (Path.absolute names) aim.target))) :
    let after := (shell.runCommand words).shell
    ∃ pwd, after.environment.get? "PWD" = some pwd ∧ Path.isAbsolute pwd = true ∧
      after.world.resolve true pwd = .ok after.world.workingDirectory := by
  intro after
  obtain ⟨aim, world, new, environment, status, haim, hmove, hnew, hnul, hpwd, -, hshell, -⟩ :=
    Shell.changed_of_returned_zero h.builtins hcd hdone
  obtain ⟨place, entries, hresolve, hnode, rfl⟩ := World.changeDirectory_eq_ok_iff.mp hmove
  rw [Shell.presentPath_of_inPlace hplace, Shell.newPath?_absolute] at hnew
  obtain rfl := Option.some.inj hnew
  have habsolute : Path.isAbsolute (Path.join (Path.absolute names) aim.target) = true :=
    Path.isAbsolute_join (Path.isAbsolute_absolute names) aim.target
  obtain ⟨links, hlimit, hleads⟩ := World.leads_join hopen hplace hresolve
  obtain ⟨fewer, hfewer, hnormal⟩ := World.leads_normalForm hleads hlimit (hlinks aim haim)
  rw [← Path.components_normalise habsolute] at hnormal
  have hroot : after.world.root = shell.world.root := by simp [after, hshell]
  have hworking : after.world.workingDirectory = place := by simp [after, hshell]
  refine ⟨_, by simpa [after, hshell] using hpwd, Path.isAbsolute_normalise habsolute, ?_⟩
  rw [hworking]
  refine World.resolve_of_leads (Path.isAbsolute_normalise habsolute) hnul
    (hnormal.of_root_eq hroot) (hfewer.trans hlimit) ?_
  have hhere : after.world.node? place = some (.directory true entries) := by
    rw [← hnode, World.node?, World.node?, hroot]
  simp [hhere, Node.isDirectory]

/-- Two directories, one in the other, and a link to the inner one. -/
def Node.linked : Node :=
  .directory true [("a", .directory true [("b", .emptyDirectory)]), ("l", .link "a/b")]

theorem Node.open_linked : linked.Open := by
  have hinner : Node.emptyDirectory.Open := open_directory (by simp)
  have houter : (Node.directory true [("b", .emptyDirectory)]).Open :=
    open_directory (by simpa using ⟨by decide, hinner⟩)
  have hlink : (Node.link "a/b").Open := open_of_entries_eq_nil rfl rfl
  exact open_directory (by simpa using ⟨⟨by decide, houter⟩, by decide, hlink⟩)

/-- A link at the end of the way. PWD has the name of the link, and leads
through it. -/
theorem pwd_leads_through_link :
    let world : World := { root := .linked }
    let shell : Shell :=
      { programName := "minish", processId := 1, environment := .ofPairs [], world,
        builtins := Builtin.standard }
    let after := (shell.runCommand ["cd", "a/../l"]).shell
    Session 0 shell ∧ after.world.workingDirectory.names = ["a", "b"] ∧
      after.environment.get? "PWD" = some "/l" ∧
      ∃ pwd, after.environment.get? "PWD" = some pwd ∧ Path.isAbsolute pwd = true ∧
        after.world.resolve true pwd = .ok after.world.workingDirectory := by
  intro world shell after
  have hsession : Session 0 shell := .start "minish" 1 [] world
  have hleads := @pwd_leads_to_workingDirectory 0 shell hsession Node.open_linked []
    ⟨rfl, _, _, rfl⟩
    ["cd", "a/../l"] ["a/../l"] (by decide +kernel) (by decide +kernel) ?_
  · exact ⟨hsession, by decide +kernel, by decide +kernel, hleads⟩
  · intro aim haim
    obtain rfl : (⟨"a/../l", false⟩ : Builtin.Destination) = aim := Except.ok.inj haim
    decide +kernel

/-- Two dots after a link. What the change shows as the new directory, and
records as such, is the root; but the link led to a directory in another one,
and that is where the shell is. -/
theorem pwd_leads_astray :
    let world : World := { root := .linked }
    let shell : Shell :=
      { programName := "minish", processId := 1, environment := .ofPairs [("OLDPWD", "/l/..")],
        world, builtins := Builtin.standard }
    let outcome := shell.runCommand ["cd", "-"]
    Session 0 shell ∧ world.root.Open ∧ outcome.ending = .returned 0 ∧
      outcome.transcript.output = "/\n" ∧ outcome.shell.environment.get? "PWD" = some "/" ∧
      outcome.shell.world.workingDirectory.names = ["a"] := by
  intro world shell outcome
  exact ⟨.start "minish" 1 [("OLDPWD", "/l/..")] world, Node.open_linked, by decide +kernel,
    by decide +kernel, by decide +kernel, by decide +kernel⟩

/-! ## §3 A change that fails -/

/-- **A change of directory that fails leaves all as it was** but for the last
status, in every state of a session, whatever the operands. The proviso is that
a change that can be made can be recorded as well. That needs the path of the
old directory, or else one of the new directory, and no NUL in it. -/
theorem failed_change_leaves_all {count : Nat} {shell : Shell} (h : Session count shell)
    {words operands : List String} (hcd : shell.prepare words = "cd" :: operands) {status : Int}
    (hfailed : (shell.runCommand words).ending = .returned status) (hstatus : status ≠ 0)
    (hrecordable : ∀ aim world, destination shell.environment operands = .ok aim →
      shell.world.changeDirectory aim.target = .ok world → Recordable shell world) :
    (shell.runCommand words).shell = { shell with lastStatus := status } := by
  obtain ⟨⟨last, hshell⟩, hending, -⟩ := Shell.answered_cd h.builtins hcd
  have hlast := Shell.lastStatus_runCommand hfailed
  rcases Builtin.cd_of_recordable hrecordable with ⟨fault, hcd⟩ | ⟨after, output, hcd⟩
  · rw [hcd] at hshell
    rw [hshell] at hlast ⊢
    obtain rfl : last = status := hlast
    rfl
  · rw [hcd, hfailed] at hending
    exact absurd (Ending.returned.inj hending) hstatus

/-- No such directory, in a directory that was removed but has its path in
PWD. -/
theorem failed_change_leaves_all_removed :
    let world : World := { root := .linked, workingDirectory := .inTree ["a", "b"] }
    let shell : Shell :=
      { programName := "minish", processId := 1, environment := .ofPairs [("PWD", "/a/b")],
        world := world.remove "/a", builtins := Builtin.standard }
    Session 0 shell ∧ (shell.runCommand ["cd", "c"]).ending = .returned 2 ∧
      (shell.runCommand ["cd", "c"]).shell = { shell with lastStatus := 2 } := by
  intro world shell
  have hsession : Session 0 shell := .start "minish" 1 [("PWD", "/a/b")] (world.remove "/a")
  have hending : (shell.runCommand ["cd", "c"]).ending = .returned 2 := by decide +kernel
  refine ⟨hsession, hending, @failed_change_leaves_all 0 shell hsession ["cd", "c"] ["c"]
    (by decide +kernel) 2 hending (by decide) ?_⟩
  intro aim after haim hmove
  obtain rfl : (⟨"c", false⟩ : Builtin.Destination) = aim := Except.ok.inj haim
  cases hmove

/-- Two directories, one in the other, are removed, and PWD is not set. A change
to the outer one fails, since it has no path; but the next change starts from
there. -/
theorem failed_change_moves :
    let world : World := { root := .linked, workingDirectory := .inTree ["a", "b"] }
    let shell : Shell :=
      { programName := "minish", processId := 1, environment := .ofPairs [],
        world := world.remove "/a", builtins := Builtin.standard }
    let first := shell.runCommand ["cd", ".."]
    let second := first.shell.runCommand ["cd", ".."]
    Session 0 shell ∧ first.ending = .returned 1 ∧ second.ending = .returned 0 ∧
      shell.world.workingDirectory.names = ["a", "b"] ∧
      first.shell.world.workingDirectory.names = ["a"] ∧
      second.shell.world.workingDirectory.names = [] := by
  intro world shell first second
  exact ⟨.start "minish" 1 [] (world.remove "/a"), by decide +kernel, by decide +kernel,
    by decide +kernel, by decide +kernel, by decide +kernel⟩

end CommandShell
