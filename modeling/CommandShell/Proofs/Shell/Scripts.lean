/-
CommandShell.Proofs.Shell.Scripts — a script is run, or it is reported.

§1 says on its own terms what comes of opening a path (`Opens`): each way in
which the walk can end, and each kind of node that it can end at. For a path
without NUL there is always one answer and never two. §2 goes by that answer:
the bytes are run as a stream, and an error, whichever it is, is reported in one
and the same way. The path itself is not looked at before, and so one that holds
NUL comes to no answer and breaks the run off (`script_runs_or_is_reported`).
-/
import CommandShell.Proofs.FileSystem.Ends
import CommandShell.Proofs.Shell.Leaving

namespace CommandShell

/-! ## §1 Opening a file -/

namespace World

/-- What comes of opening a path to read from it: the bytes that are read, or an
error. -/
inductive Opens (world : World) (path : String) : Except Errno (List UInt8) → Prop
  | nowhere {errno : Errno} (h : Comes world true path (.error errno)) :
      Opens world path (.error errno)
  | absent {place : Place} (h : Comes world true path (.ok place))
      (hnode : world.node? place = none) : Opens world path (.error .enoent)
  | directory {place : Place} {searchable : Bool} {entries : Bindings Node}
      (h : Comes world true path (.ok place))
      (hnode : world.node? place = some (.directory searchable entries)) :
      Opens world path (.error .eisdir)
  | unreadable {place : Place} {file : File} (h : Comes world true path (.ok place))
      (hnode : world.node? place = some (.file file)) (hread : file.readable = false) :
      Opens world path (.error .eacces)
  | file {place : Place} {file : File} (h : Comes world true path (.ok place))
      (hnode : world.node? place = some (.file file)) (hread : file.readable = true) :
      Opens world path (.ok file.content)
  | empty {place : Place} {node : Node} (h : Comes world true path (.ok place))
      (hnode : world.node? place = some node) (hdirectory : node.isDirectory = false)
      (hfile : node.isFile = false) : Opens world path (.ok [])

variable {world : World} {path : String} {answer : Except Errno (List UInt8)}

theorem read_of_opens (h : Opens world path answer) :
    world.read path = answer.mapError .system := by
  cases h with
  | nowhere h =>
    rw [read, h.lookup_eq_error]
    rfl
  | absent h hnode =>
    rw [read, lookup, h.resolve_eq_ok]
    simp only [hnode]
    rfl
  | directory h hnode =>
    rw [read, h.lookup_eq_ok hnode]
    rfl
  | unreadable h hnode hread =>
    rw [read, h.lookup_eq_ok hnode]
    simp only [hread]
    rfl
  | file h hnode hread =>
    rw [read, h.lookup_eq_ok hnode]
    simp only [hread]
    rfl
  | @empty place node h hnode hdirectory hfile =>
    rw [read, h.lookup_eq_ok hnode]
    cases node with
    | directory => cases hdirectory
    | file => cases hfile
    | _ => rfl

theorem exists_opens (world : World) (h : '\x00' ∉ path.toList) :
    ∃ answer, Opens world path answer := by
  obtain ⟨result, hcomes⟩ := exists_comes world true h
  cases result with
  | error errno => exact ⟨_, .nowhere hcomes⟩
  | ok place =>
    cases hnode : world.node? place with
    | none => exact ⟨_, .absent hcomes hnode⟩
    | some node =>
      cases node with
      | directory searchable entries => exact ⟨_, .directory hcomes hnode⟩
      | link target => exact ⟨_, .empty hcomes hnode rfl rfl⟩
      | special executable => exact ⟨_, .empty hcomes hnode rfl rfl⟩
      | file file =>
        cases hread : file.readable with
        | false => exact ⟨_, .unreadable hcomes hnode hread⟩
        | true => exact ⟨_, .file hcomes hnode hread⟩

/-- Opening a path without NUL has one answer, and reading gives it. -/
theorem opens_iff :
    Opens world path answer ↔ world.read path = answer.mapError .system := by
  refine ⟨read_of_opens, fun h => ?_⟩
  by_cases hnul : '\x00' ∈ path.toList
  · rw [read, lookup, resolve_of_nul true hnul] at h
    cases answer <;> cases h
  · obtain ⟨other, hother⟩ := exists_opens world hnul
    obtain rfl : other = answer := mapError_system_inj.mp ((read_of_opens hother).symm.trans h)
    exact hother

theorem Opens.unique {other : Except Errno (List UInt8)} (h : Opens world path answer)
    (h' : Opens world path other) : other = answer :=
  mapError_system_inj.mp ((read_of_opens h').symm.trans (read_of_opens h))

end World

/-! ## §2 Running a script -/

open World (Opens)

theorem Outcome.status_after (events : Transcript) (outcome : Outcome) :
    (outcome.after events).status = outcome.status := rfl

namespace Shell

variable {shell : Shell} {path : String}

/-- A script that can be opened is run as the stream of its content. -/
theorem runScript_of_opens {bytes : List UInt8} (h : Opens shell.world path (.ok bytes)) :
    shell.runScript path =
      (shell.runStream
        (String.ofList (Text.unifyNewlines (Text.Utf8.decode bytes).toList))).after
          [.log .dispatcher ("running script " ++ path)] := by
  have hread : shell.world.read path = .ok bytes := World.opens_iff.mp h
  rw [runStream, Text.linesOfStream_unifyNewlines]
  simp only [runScript, hread]

/-- Any error on the way to the script is reported alike. -/
theorem runScript_of_error {errno : Errno} (h : Opens shell.world path (.error errno)) :
    shell.runScript path = shell.rejectScript path := by
  have hread : shell.world.read path = .error (.system errno) := World.opens_iff.mp h
  simp only [runScript, hread]

/-- The report is all that is seen of a script that cannot be opened. -/
theorem rejectScript_eq (shell : Shell) (path : String) :
    shell.rejectScript path =
      ⟨{ shell with lastStatus := 127 },
        [.errors (shell.programName ++ ": " ++ toString shell.lineNumber ++ ": " ++
          ("Can't open " ++ path) ++ "\n")], .returned 127⟩ := by
  have hdiagnostic : Diagnostic.ofFault ⟨.scriptUnreadable path, none⟩ [] =
      ⟨"Can't open " ++ path, 127, none⟩ := by
    rw [Diagnostic.ofFault, if_pos (.inr rfl)]
    rfl
  rw [rejectScript, hdiagnostic]
  rfl

theorem runScript_of_nul (h : '\x00' ∈ path.toList) :
    shell.runScript path = ⟨shell, [], .broken .embeddedNul⟩ := by
  have hread : shell.world.read path = .error .embeddedNul := by
    rw [World.read, World.lookup, World.resolve_of_nul true h]
  simp only [runScript, hread]

end Shell

/-- **A script is run, or it is reported.** A path without NUL opens in just one
way. If bytes are read, they are run as the stream of the text that they are,
with unified newlines. Any error leads to the one report with status 127; no
line is run, and only the last status is changed. Both ways the run comes to a
status. A path that holds NUL is the exception: it breaks the run off, and
nothing is reported. -/
theorem script_runs_or_is_reported (shell : Shell) (path : String) :
    (∀ bytes, Opens shell.world path (.ok bytes) →
      shell.runScript path =
        (shell.runStream
          (String.ofList (Text.unifyNewlines (Text.Utf8.decode bytes).toList))).after
            [.log .dispatcher ("running script " ++ path)]) ∧
    (∀ errno, Opens shell.world path (.error errno) →
      shell.runScript path =
        ⟨{ shell with lastStatus := 127 },
          [.errors (shell.programName ++ ": " ++ toString shell.lineNumber ++ ": " ++
            ("Can't open " ++ path) ++ "\n")], .returned 127⟩) ∧
    ('\x00' ∉ path.toList →
      (∃ answer, Opens shell.world path answer ∧
        ∀ other, Opens shell.world path other → other = answer) ∧
      ∃ status, (shell.runScript path).status = .ok status) ∧
    ('\x00' ∈ path.toList → shell.runScript path = ⟨shell, [], .broken .embeddedNul⟩) := by
  refine ⟨fun bytes h => Shell.runScript_of_opens h, fun errno h => ?_, fun hnul => ?_,
    Shell.runScript_of_nul⟩
  · rw [Shell.runScript_of_error h, Shell.rejectScript_eq]
  · obtain ⟨answer, hopens⟩ := World.exists_opens shell.world hnul
    refine ⟨⟨answer, hopens, fun other h => hopens.unique h⟩, ?_⟩
    cases answer with
    | ok bytes =>
      rw [Shell.runScript_of_opens hopens, Outcome.status_after, Shell.runStream]
      exact Shell.exists_status_runLines shell _
    | error errno =>
      rw [Shell.runScript_of_error hopens, Shell.rejectScript_eq]
      exact ⟨127, rfl⟩

/-- A tree with a script that leaves the shell, one that must not be read, and a
link to itself. -/
def World.withScripts : World where
  root := .directory true
    [("s", .file { content := "x y\r\nexit 4\nenv".toList.map fun c => c.toNat.toUInt8 }),
      ("u", .file { readable := false }), ("l", .link "l"), ("d", .emptyDirectory)]

/-- Each kind of path that does not open, and one that does. -/
theorem script_runs_or_is_reported_paths :
    let shell : Shell :=
      { programName := "minish", processId := 1, environment := {}, builtins := Builtin.standard,
        world := .withScripts, lineNumber := 7 }
    (∀ pair ∈ [("", .enoent), ("none", .enoent), ("s/x", .enotdir), ("s/", .enotdir),
        ("d", .eisdir), ("u", .eacces), ("l", .eloop)],
      Opens shell.world pair.1 (.error pair.2) ∧
        (shell.runScript pair.1).ending = .returned 127 ∧
        (shell.runScript pair.1).transcript =
          [.errors ("minish: 7: " ++ ("Can't open " ++ pair.1) ++ "\n")]) ∧
      (shell.runScript "/s").ending = .left 4 ∧
      (shell.runScript "/s").transcript.errors false = "minish: 8: x: not found\n" := by
  intro shell
  refine ⟨fun pair hpair => ?_, by decide +kernel, by decide +kernel⟩
  have hread : ∀ pair ∈ [("", Errno.enoent), ("none", .enoent), ("s/x", .enotdir),
      ("s/", .enotdir), ("d", .eisdir), ("u", .eacces), ("l", .eloop)],
      shell.world.read pair.1 = .error (.system pair.2) := by
    decide +kernel
  have hopens : Opens shell.world pair.1 (.error pair.2) := World.opens_iff.mpr (hread pair hpair)
  obtain ⟨-, hreported, -, -⟩ := script_runs_or_is_reported shell pair.1
  have hplace : shell.programName ++ ": " ++ toString shell.lineNumber ++ ": " = "minish: 7: " := by
    decide +kernel
  rw [hreported pair.2 hopens, hplace]
  exact ⟨hopens, rfl, rfl⟩

/-- The path of a script holds NUL: there is no status and no report. -/
theorem script_breaks_off :
    let shell : Shell :=
      { programName := "minish", processId := 1, environment := {}, builtins := Builtin.standard,
        world := {} }
    (shell.runScript "a\x00b").status = .error .embeddedNul ∧
      (shell.runScript "a\x00b").transcript = [] := by
  decide +kernel

end CommandShell
