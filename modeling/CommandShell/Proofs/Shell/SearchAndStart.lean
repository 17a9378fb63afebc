/-
CommandShell.Proofs.Shell.SearchAndStart — the search for a program and the
start of it agree.

Three questions are asked about a path: the search asks whether it leads to a
regular file that may be executed, the look at a command with a slash whether
anything has that path, and the start whether the path leads to a program. §1
answers each by where the path comes to (`World.Comes`), with links followed for
the first and the third and not for the second. §2 puts the answers side by
side. What the search found is started, and its program decides. What is missing
with links followed is either missing without, and nothing is started, or it is a
link that leads to nothing, and the start fails; the report does not tell one
from the other (`search_and_start_agree`).
-/
import CommandShell.Proofs.FileSystem.Ends
import CommandShell.Proofs.SearchPath.Memory
import CommandShell.Proofs.Shell.EmbeddedNul
import CommandShell.Proofs.Shell.ProgramEnding

namespace CommandShell

open World (Comes Dangling)

/-! ## §1 Three questions about a path -/

variable {world : World} {path command : String} {place : Place} {file : File}

/-- The search asks for a regular file that may be executed. -/
theorem SearchPath.qualifies_iff_comes :
    Qualifies world path ↔ ∃ place file, Comes world true path (.ok place) ∧
      world.node? place = some (.file file) ∧ file.executable = true := by
  constructor
  · rintro ⟨file, hlookup, hexecutable⟩
    unfold World.lookup at hlookup
    split at hlookup
    · cases hlookup
    · next place hresolve =>
      split at hlookup
      · next node hnode =>
        cases hlookup
        exact ⟨place, file, World.comes_iff.mpr hresolve, hnode, hexecutable⟩
      · cases hlookup
  · rintro ⟨place, file, hcomes, hnode, hexecutable⟩
    exact ⟨file, hcomes.lookup_eq_ok hnode, hexecutable⟩

/-- A command with a slash has only to come to something. -/
theorem World.entryExists_of_comes {result : Except Errno Place}
    (h : Comes world false path result) : world.entryExists path = result.isOk := by
  rw [entryExists, comes_iff.mp h]
  cases result <;> rfl

/-- No text of the request holds NUL. -/
structure Attempt.FreeOfNul (attempt : Attempt) : Prop where
  executable : '\x00' ∉ attempt.executable.toList
  arguments : ∀ word ∈ attempt.arguments, '\x00' ∉ word.toList
  environment : ∀ line ∈ attempt.environment, '\x00' ∉ line.toList

namespace Attempt.FreeOfNul

variable {attempt : Attempt} (h : attempt.FreeOfNul)
include h

theorem holdsNul_eq_false : (holdsNul attempt.executable || attempt.arguments.any holdsNul ||
    attempt.environment.any holdsNul) = false := by
  simpa [holdsNul] using ⟨⟨h.executable, h.arguments⟩, h.environment⟩

/-- The start of a file that may be executed is that of its program. -/
theorem start_of_file (hcomes : Comes world true attempt.executable (.ok place))
    (hnode : world.node? place = some (.file file)) (hexecutable : file.executable = true) :
    attempt.start world = file.program.start := by
  simp [start, h.holdsNul_eq_false, hcomes.lookup_eq_ok hnode, hexecutable]

/-- Where no node is, the start is refused for the reason that led to none. -/
theorem start_of_error {errno : Errno}
    (hcomes : Comes world true attempt.executable (.error errno)) :
    attempt.start world = .refused (.numbered errno none) := by
  simp [start, h.holdsNul_eq_false, hcomes.lookup_eq_error]

end Attempt.FreeOfNul

/-! ## §2 Side by side -/

namespace SearchPath

variable {memory : SearchPath} {env : Environment}

/-- What is found is a path in some directory, and qualifies. -/
theorem qualifies_of_location {candidate : String} (hslash : '/' ∉ command.toList)
    (h : (memory.resolve env world command).location = some candidate) :
    ∃ directory, candidate = Path.join directory command ∧ Qualifies world candidate := by
  unfold resolve at h
  split at h
  · cases h
  · rw [if_neg (by simpa using hslash)] at h
    dsimp only at h
    split at h
    · next location hsearch =>
      cases h
      obtain ⟨_, directory, _, -, rfl, hqualifies, -⟩ := search_eq_some_iff.mp hsearch
      exact ⟨directory, rfl, hqualifies⟩
    · cases h

/-- A command with a slash is where it says, if it is anywhere. -/
theorem resolve_of_slash (hslash : '/' ∈ command.toList) :
    memory.resolve env world command =
      ⟨if world.entryExists command then some command else none, memory, []⟩ := by
  have hne : command ≠ "" := by
    rintro rfl
    simp at hslash
  simp [resolve, hne, hslash]

end SearchPath

theorem Builtin.lookup_of_slash (h : '/' ∈ command.toList) : standard.lookup command = none := by
  cases hlookup : standard.lookup command with
  | none => rfl
  | some entry =>
    have hstandard := isStandard_of_lookup hlookup
    generalize entry.handler = action at hstandard
    cases hstandard <;> simp at h

namespace Shell

variable {shell : Shell} {words operands : List String} {attempt : Attempt}

theorem attempt?_of_external (h : shell.builtins.lookup command = none) :
    shell.attempt? (command :: operands) =
      (shell.searchPath.resolve shell.environment shell.world command).location.map
        fun location => ⟨location, command :: operands, shell.environment.lines⟩ := by
  simp only [attempt?, h]

theorem attempts_of_attempt? (hprepared : shell.prepare words = command :: operands)
    (hattempt : shell.attempt? (command :: operands) = some attempt) :
    (shell.runCommand words).transcript.attempts = [attempt] := by
  rw [attempts_runCommand, hprepared, hattempt]
  rfl

/-- A command whose program is nowhere is reported as not found. -/
theorem concluded_of_nowhere (hprepared : shell.prepare words = command :: operands)
    (hbuiltin : shell.builtins.lookup command = none)
    (hlocation : (shell.searchPath.resolve shell.environment shell.world command).location = none) :
    Concluded shell command 127 (some "not found") (shell.runCommand words) := by
  have hrun : shell.runPrepared (command :: operands) =
      (({ shell with searchPath := (shell.searchPath.resolve shell.environment shell.world
          command).searchPath } : Shell).report (.notFound command)).after
        (shell.searchPath.resolve shell.environment shell.world command).transcript := by
    simp only [runPrepared, hbuiltin, runExternal, hlocation]
    rfl
  have hreport : Concluded shell command 127 (some "not found")
      (shell.runPrepared (command :: operands)) := by
    have h : Concluded shell command 127 (some "not found") _ :=
      (concluded_report "not found" 127).after
        (SearchPath.output_resolve shell.searchPath shell.environment shell.world command)
        (SearchPath.errors_resolve shell.searchPath shell.environment shell.world command)
    rw [hrun]
    exact ⟨h.ending, h.output, h.errors⟩
  rw [← hprepared] at hreport
  exact hreport.runCommand

/-- So is one whose program turns out to be missing when it is started. -/
theorem concluded_of_missing (hprepared : shell.prepare words = command :: operands)
    (hattempt : shell.attempt? (command :: operands) = some attempt)
    (hstart : attempt.start shell.world = .refused (.numbered .enoent none)) :
    Concluded shell command 127 (some "not found") (shell.runCommand words) := by
  obtain ⟨status, reason, hverdict, hconcluded⟩ := concluded_runCommand hprepared hattempt
  rw [hstart] at hverdict
  obtain ⟨rfl, rfl⟩ := hverdict.unique (.missing none) rfl
  exact hconcluded

end Shell

/-- **The search for a program and the start of it agree.** Neither the words nor
the variables hold NUL. What a search finds in some directory comes to a regular
file that may be executed; a start of it in the same world is that of the program
of this file, and so the status of a command that is run there, and its report, are
those of the verdict on this program. Where a command with a slash is missing with
links followed, it is reported as not found, with status 127. Either it is missing
without, and nothing is started, or it is the name of a link that leads to nothing,
and one start was tried. -/
theorem search_and_start_agree (shell : Shell) (hbuiltins : shell.builtins = Builtin.standard)
    (henvironment : shell.environment.FreeOfNul) (command : String) (operands : List String)
    (hwords : ∀ word ∈ command :: operands, '\x00' ∉ word.toList) :
    let attempt (executable : String) : Attempt :=
      ⟨executable, command :: operands, shell.environment.lines⟩
    ('/' ∉ command.toList → ∀ candidate,
      (shell.searchPath.resolve shell.environment shell.world command).location =
          some candidate →
        ∃ directory place file, candidate = Path.join directory command ∧
          Comes shell.world true candidate (.ok place) ∧
          shell.world.node? place = some (.file file) ∧ file.executable = true ∧
          (attempt candidate).start shell.world = file.program.start ∧
          ∀ words, shell.prepare words = command :: operands →
            Builtin.standard.lookup command = none →
              (shell.runCommand words).transcript.attempts = [attempt candidate] ∧
              ∃ status reason, Verdict file.program.start status reason ∧
                shell.Concluded command status reason (shell.runCommand words)) ∧
    ('/' ∈ command.toList → Comes shell.world true command (.error .enoent) →
      ∀ words, shell.prepare words = command :: operands →
        shell.Concluded command 127 (some "not found") (shell.runCommand words) ∧
          (Comes shell.world false command (.error .enoent) ∧
              (shell.runCommand words).transcript.attempts = [] ∨
            ∃ holder name target, Comes shell.world false command (.ok (holder.child name)) ∧
              Dangling shell.world holder name target ∧
              (shell.runCommand words).transcript.attempts = [attempt command])) := by
  intro attempt
  have hfree : ∀ executable, '\x00' ∉ executable.toList → (attempt executable).FreeOfNul :=
    fun executable hnul => ⟨hnul, hwords, henvironment.lines⟩
  refine ⟨fun hslash candidate hlocation => ?_, fun hslash hmissing words hprepared => ?_⟩
  · obtain ⟨directory, hcandidate, hqualifies⟩ :=
      SearchPath.qualifies_of_location hslash hlocation
    obtain ⟨place, file, hcomes, hnode, hexecutable⟩ :=
      SearchPath.qualifies_iff_comes.mp hqualifies
    have hstart : (attempt candidate).start shell.world = file.program.start :=
      (hfree candidate hcomes.nul_not_mem).start_of_file hcomes hnode hexecutable
    refine ⟨directory, place, file, hcandidate, hcomes, hnode, hexecutable, hstart, ?_⟩
    intro words hprepared hbuiltin
    have hattempt : shell.attempt? (command :: operands) = some (attempt candidate) := by
      rw [Shell.attempt?_of_external (hbuiltins ▸ hbuiltin), hlocation]
      rfl
    exact ⟨Shell.attempts_of_attempt? hprepared hattempt,
      hstart ▸ Shell.concluded_runCommand hprepared hattempt⟩
  · have hbuiltin : shell.builtins.lookup command = none :=
      hbuiltins ▸ Builtin.lookup_of_slash hslash
    have hlocation : (shell.searchPath.resolve shell.environment shell.world command).location =
        if shell.world.entryExists command then some command else none := by
      rw [SearchPath.resolve_of_slash hslash]
    rcases hmissing.missing_or_dangling with habsent | ⟨holder, name, target, hlast, hdangling⟩
    · rw [World.entryExists_of_comes habsent] at hlocation
      have hattempt : shell.attempt? (command :: operands) = none := by
        rw [Shell.attempt?_of_external hbuiltin, hlocation]
        rfl
      refine ⟨Shell.concluded_of_nowhere hprepared hbuiltin hlocation, .inl ⟨habsent, ?_⟩⟩
      rw [Shell.attempts_runCommand, hprepared, hattempt]
      rfl
    · rw [World.entryExists_of_comes hlast] at hlocation
      have hattempt : shell.attempt? (command :: operands) = some (attempt command) := by
        rw [Shell.attempt?_of_external hbuiltin, hlocation]
        rfl
      have hstart : (attempt command).start shell.world = .refused (.numbered .enoent none) :=
        (hfree command hmissing.nul_not_mem).start_of_error hmissing
      exact ⟨Shell.concluded_of_missing hprepared hattempt hstart,
        .inr ⟨holder, name, target, hlast, hdangling,
          Shell.attempts_of_attempt? hprepared hattempt⟩⟩

/-- A program, and a directory to work in with a link to the program and a link to
nothing. -/
def World.withDeadLink : World where
  root := .directory true
    [("bin", .directory true [("x", .file { executable := true, program := .runs 5 0 })]),
      ("d", .directory true [("y", .link "../bin/x"), ("dead", .link "none")])]
  workingDirectory := .inTree ["d"]

/-- A program is found through a link in the working directory, which PATH lists
as nothing. Two names with a slash are missing, and only one is tried. -/
theorem search_and_start_agree_links :
    let shell : Shell :=
      { programName := "minish", processId := 1, environment := .ofPairs [("PATH", ":/bin")],
        world := .withDeadLink, builtins := Builtin.standard }
    let attempt (executable : String) (words : List String) : Attempt :=
      ⟨executable, words, ["PATH=:/bin"]⟩
    (attempt "./y" ["y", "1"]).start shell.world = .running 5 0 ∧
      (shell.runCommand ["y", "1"]).transcript.attempts = [attempt "./y" ["y", "1"]] ∧
      (shell.runCommand ["y", "1"]).ending = .returned 5 ∧
      (∀ command ∈ ["./dead", "./none"],
        shell.Concluded command 127 (some "not found") (shell.runCommand [command])) ∧
      (shell.runCommand ["./dead"]).transcript.attempts = [attempt "./dead" ["./dead"]] ∧
      (shell.runCommand ["./none"]).transcript.attempts = [] := by
  intro shell attempt
  have henvironment : shell.environment.FreeOfNul := by
    unfold Environment.FreeOfNul
    decide +kernel
  have hmissing : ∀ command ∈ ["./dead", "./none"],
      Comes shell.world true command (.error .enoent) := by
    intro command hcommand
    refine World.comes_iff.mpr ?_
    simp only [List.mem_cons, List.not_mem_nil, or_false] at hcommand
    rcases hcommand with rfl | rfl <;> rfl
  have hreported : ∀ command ∈ ["./dead", "./none"], '/' ∈ command.toList ∧
      (∀ word ∈ [command], '\x00' ∉ word.toList) ∧ shell.prepare [command] = [command] := by
    decide +kernel
  obtain ⟨hfound, -⟩ :=
    search_and_start_agree shell rfl henvironment "y" ["1"] (by decide)
  obtain ⟨_, _, _, -, -, -, -, -, hruns⟩ := hfound (by decide) "./y" (by decide +kernel)
  obtain ⟨hattempts, -⟩ := hruns ["y", "1"] (by decide +kernel) (by decide +kernel)
  refine ⟨by decide +kernel, hattempts, by decide +kernel, fun command hcommand => ?_,
    by decide +kernel, by decide +kernel⟩
  obtain ⟨hslash, hwords, hprepared⟩ := hreported command hcommand
  obtain ⟨-, hnotFound⟩ := search_and_start_agree shell rfl henvironment command [] hwords
  exact (hnotFound hslash (hmissing command hcommand) [command] hprepared).1

end CommandShell
