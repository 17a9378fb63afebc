/-
CommandShell.Proofs.Shell.Requests — all that a session asks the system to
start.

§1 says on its own terms what ought to be asked for. All it goes by are the
variables, the file tree and the working directory: `Requests` says what a
command asks for there, given its words as they are prepared, and
`afterCommand` what it leaves of them. `Accords` takes this through any number
of commands. Aliases, statuses, line numbers and what the search path remembers
have no part in it.

§2 shows it of one command. §3 goes on to everything that can be run, by way of
`Told`: the dispatches and requests that an outcome shows are those of some
turns that accord with what there was before. This is so of one command, and
runs are composed of those (`Compositional`). The search path must remember
what PATH says, so this is carried along (`Ready`). §4 puts runs and changes of
the world together to a session that is on record from its start
(`Recorded`).
-/
import CommandShell.Proofs.SearchPath.Memory
import CommandShell.Proofs.Shell.Launch
import CommandShell.Proofs.Shell.Touch

namespace CommandShell

open SearchPath (Surroundings Located)

/-! ## §1 What ought to be asked for -/

/-- What the commands of a shell go by when they ask for programs. -/
def Shell.surroundings (shell : Shell) : Surroundings :=
  ⟨shell.environment, shell.world⟩

namespace SearchPath.Surroundings

/-- A shell of which nothing but its surroundings is known. -/
def bareShell (around : Surroundings) : Shell where
  programName := ""
  processId := 0
  environment := around.environment
  world := around.world
  builtins := []

/-- What a command leaves, given its words as they are prepared. There are
three that may change something. -/
def afterCommand (around : Surroundings) : List String → Surroundings
  | [] => around
  | name :: operands =>
    if name = "setenv" then
      match operands with
      | [target, value] => around.after (.set target value)
      | _ => around
    else if name = "unsetenv" then
      match operands with
      | [target] => around.after (.unset target)
      | _ => around
    else if name = "cd" then (Builtin.cd around.bareShell operands).1.surroundings
    else around

theorem afterCommand_of_ne (around : Surroundings) {name : String} (hsetenv : name ≠ "setenv")
    (hunsetenv : name ≠ "unsetenv") (hcd : name ≠ "cd") (operands : List String) :
    around.afterCommand (name :: operands) = around := by
  simp [afterCommand, hsetenv, hunsetenv, hcd]

/-- What a command asks to be started, given its words as they are prepared:
nothing without words or for a builtin, nothing if no program is found, and
otherwise the program where it is found, with these words and with the variables
as they are. -/
inductive Requests (around : Surroundings) : List String → Option Attempt → Prop
  | wordless : Requests around [] none
  | builtin {name : String} {action : Action} (hstandard : Builtin.IsStandard name action)
      (operands : List String) : Requests around (name :: operands) none
  | missing {command : String} (hname : ∀ action, ¬ Builtin.IsStandard command action)
      (hlocated : Located (around.environment.get? "PATH") around.world command none)
      (operands : List String) : Requests around (command :: operands) none
  | found {command location : String} (hname : ∀ action, ¬ Builtin.IsStandard command action)
      (hlocated : Located (around.environment.get? "PATH") around.world command (some location))
      (operands : List String) :
      Requests around (command :: operands)
        (some ⟨location, command :: operands, around.environment.lines⟩)

end SearchPath.Surroundings

/-- One turn of a session: a command with its words as they are prepared and
what it asks for, or a change of the world. -/
inductive Turn
  | command (words : List String) (request : Option Attempt)
  | world (world : World)

/-- Turns as they ought to be: each command asks for what it has to where the
turns before it lead. -/
inductive Accords : Surroundings → List Turn → Surroundings → Prop
  | nil (around : Surroundings) : Accords around [] around
  | command {around final : Surroundings} {words : List String} {request : Option Attempt}
      {rest : List Turn} (hrequest : around.Requests words request)
      (hrest : Accords (around.afterCommand words) rest final) :
      Accords around (.command words request :: rest) final
  | world {around final : Surroundings} {rest : List Turn} (world : World)
      (hrest : Accords { around with world } rest final) :
      Accords around (.world world :: rest) final

theorem Accords.append {around between final : Surroundings} {turns more : List Turn}
    (h : Accords around turns between) (h' : Accords between more final) :
    Accords around (turns ++ more) final := by
  induction h with
  | nil _ => exact h'
  | command hrequest _ ih => exact .command hrequest (ih h')
  | world world _ ih => exact .world world (ih h')

/-- One entry of the record of a session. -/
inductive Entry
  | event (event : Event)
  | world (world : World)

/-- Whether an entry tells of a command, of a request or of a change of the
world. -/
def Entry.tells : Entry → Bool
  | .event (.dispatch _) | .event (.spawn _) | .world _ => true
  | .event _ => false

/-- What is on record of a turn: a command begins, and then its request is
made if it makes one. -/
def Turn.entries : Turn → List Entry
  | .command words request =>
    .event (.dispatch words) :: request.toList.map fun attempt => .event (.spawn attempt)
  | .world other => [.world other]

/-- The entries that tell of commands and requests among some events. -/
def Transcript.told (transcript : Transcript) : List Entry :=
  (transcript.map Entry.event).filter Entry.tells

/-! ## §2 One command -/

namespace Transcript

@[simp] theorem told_append (before after : Transcript) :
    told (before ++ after) = before.told ++ after.told := by
  simp [told]

/-- Without commands and requests there is nothing to tell of. -/
theorem told_eq_nil (transcript : Transcript) (hattempts : transcript.attempts = [])
    (hdispatched : transcript.dispatched = []) : transcript.told = [] := by
  refine List.filter_eq_nil_iff.mpr fun entry hentry => ?_
  obtain ⟨event, hevent, rfl⟩ := List.mem_map.mp hentry
  have hattempt := List.filterMap_eq_nil_iff.mp hattempts event hevent
  have hdispatch := List.filterMap_eq_nil_iff.mp hdispatched event hevent
  cases event with
  | dispatch words => cases hdispatch
  | spawn attempt => cases hattempt
  | _ => exact Bool.false_ne_true

/-- Once a command has begun there are requests to tell of, and no more. -/
theorem Effects.told {transcript : Transcript} (h : transcript.Effects) :
    transcript.told = transcript.attempts.map fun attempt => .event (.spawn attempt) := by
  induction transcript with
  | nil => rfl
  | cons event rest ih =>
    have hrest := ih fun other hother => h other (List.mem_cons_of_mem event hother)
    have hevent : event.isEffect = true := h event (by simp)
    rw [← List.singleton_append, told_append, attempts_append, List.map_append, hrest]
    cases event with
    | prompt text => cases hevent
    | dispatch words => cases hevent
    | read => cases hevent
    | _ => rfl

end Transcript

namespace Builtin

theorem surroundings_setenv (shell : Shell) (operands : List String) :
    (setenv shell operands).1.surroundings =
      match operands with
      | [target, value] => shell.surroundings.after (.set target value)
      | _ => shell.surroundings := by
  rcases operands with _ | ⟨target, _ | ⟨value, _ | ⟨other, more⟩⟩⟩
  · rfl
  · rfl
  · cases hset : shell.environment.set? target value with
    | none => simp [setenv, Surroundings.after, Shell.surroundings, hset]
    | some environment => simp [setenv, Surroundings.after, Shell.surroundings, hset]
  · rfl

theorem surroundings_unsetenv (shell : Shell) (operands : List String) :
    (unsetenv shell operands).1.surroundings =
      match operands with
      | [target] => shell.surroundings.after (.unset target)
      | _ => shell.surroundings := by
  rcases operands with _ | ⟨target, _ | ⟨other, more⟩⟩
  · rfl
  · cases hunset : shell.environment.unset? target with
    | none => simp [unsetenv, Surroundings.after, Shell.surroundings, hunset]
    | some answer => simp [unsetenv, Surroundings.after, Shell.surroundings, hunset]
  · rfl

/-- A change of directory goes by the surroundings alone. -/
theorem surroundings_cd (shell : Shell) (operands : List String) :
    (cd shell operands).1.surroundings =
      (cd shell.surroundings.bareShell operands).1.surroundings := by
  have hpath : presentPath shell.surroundings.bareShell = presentPath shell := rfl
  have henvironment : shell.surroundings.bareShell.environment = shell.environment := rfl
  have hworld : shell.surroundings.bareShell.world = shell.world := rfl
  unfold cd
  simp only [hpath, henvironment, hworld]
  split
  · rfl
  · split
    · rfl
    · split
      · rfl
      · next world _ _ new _ =>
        unfold recordChange
        cases hfirst : shell.environment.set? "OLDPWD" (presentPath shell) with
        | none => simp [Shell.surroundings]
        | some first =>
          cases hsecond : first.set? "PWD" new with
          | none => simp [Shell.surroundings, hsecond]
          | some second => simp [Shell.surroundings, hsecond]

end Builtin

namespace Shell

/-- The builtins are the standard ones, and the search path remembers what
PATH says, if anything. -/
structure Ready (shell : Shell) : Prop where
  builtins : shell.builtins = Builtin.standard
  searchPath : shell.searchPath.Faithful

variable {shell : Shell}

theorem not_isStandard_of_lookup (h : shell.builtins = Builtin.standard) {command : String}
    (hlookup : shell.builtins.lookup command = none) (action : Action) :
    ¬ Builtin.IsStandard command action := by
  intro hstandard
  obtain ⟨entry, hentry, -⟩ := hstandard.exists_lookup
  rw [h, hentry] at hlookup
  cases hlookup

/-- A command asks for what it ought to. -/
theorem Ready.requests (h : shell.Ready) (words : List String) :
    shell.surroundings.Requests words (shell.attempt? words) := by
  cases words with
  | nil => exact .wordless
  | cons command operands =>
    rw [attempt?]
    cases hlookup : shell.builtins.lookup command with
    | some entry => exact .builtin (Builtin.isStandard_of_lookup (h.builtins ▸ hlookup)) operands
    | none =>
      have hname := not_isStandard_of_lookup h.builtins hlookup
      have hlocated : Located (shell.surroundings.environment.get? "PATH")
          shell.surroundings.world command
          (shell.searchPath.resolve shell.environment shell.world command).location :=
        SearchPath.located_iff.mpr
          (SearchPath.location_resolve h.searchPath shell.environment shell.world command)
      dsimp only
      cases hlocation :
          (shell.searchPath.resolve shell.environment shell.world command).location with
      | none => exact .missing hname (hlocation ▸ hlocated) operands
      | some location => exact .found hname (hlocation ▸ hlocated) operands

/-- A command leaves what it ought to. -/
theorem surroundings_runPrepared (h : shell.builtins = Builtin.standard) (words : List String) :
    (shell.runPrepared words).shell.surroundings = shell.surroundings.afterCommand words := by
  cases words with
  | nil => rfl
  | cons command operands =>
    cases hlookup : shell.builtins.lookup command with
    | none =>
      have hname := not_isStandard_of_lookup h hlookup
      have hsetenv : command ≠ "setenv" := fun heq => hname .setenv (heq ▸ .setenv)
      have hunsetenv : command ≠ "unsetenv" := fun heq => hname .unsetenv (heq ▸ .unsetenv)
      have hcd : command ≠ "cd" := fun heq => hname .cd (heq ▸ .cd)
      rw [runPrepared]
      simp only [hlookup]
      rw [shell_runExternal, Surroundings.afterCommand_of_ne _ hsetenv hunsetenv hcd]
      rfl
    | some entry =>
      have hstandard := Builtin.isStandard_of_lookup (h ▸ hlookup)
      rw [runPrepared_builtin hlookup, Outcome.after_shell, shell_runBuiltin]
      generalize entry.handler = action at hstandard
      cases hstandard with
      | setenv => exact Builtin.surroundings_setenv shell operands
      | unsetenv => exact Builtin.surroundings_unsetenv shell operands
      | cd => exact Builtin.surroundings_cd shell operands
      | aliases =>
        obtain ⟨aliases, -, hshell⟩ := Builtin.aliases_touches shell "alias" operands
        rw [hshell]
        rfl
      | _ => rfl

theorem Ready.runPrepared (h : shell.Ready) (words : List String) :
    (shell.runPrepared words).shell.Ready := by
  refine ⟨(frame_runPrepared shell words).builtins.trans h.builtins, ?_⟩
  cases words with
  | nil => exact h.searchPath
  | cons command operands =>
    cases hlookup : shell.builtins.lookup command with
    | none =>
      rw [Shell.runPrepared]
      simp only [hlookup]
      rw [shell_runExternal]
      exact SearchPath.faithful_resolve h.searchPath _ _ _
    | some entry =>
      obtain ⟨environment, aliases, world, hshell, -⟩ :=
        entry.handler.touches shell command operands
      rw [runPrepared_builtin hlookup, Outcome.after_shell, shell_runBuiltin, hshell]
      exact h.searchPath

end Shell

/-! ## §3 Runs -/

/-- What an outcome shows of commands and requests is what is on record of
some turns, and these lead from the surroundings before it to those after
it. -/
structure Told (shell : Shell) (outcome : Outcome) : Prop where
  ready : outcome.shell.Ready
  turns : ∃ turns, Accords shell.surroundings turns outcome.shell.surroundings ∧
    outcome.transcript.told = turns.flatMap Turn.entries

namespace Told

variable {shell : Shell} {outcome : Outcome}

/-- Nothing happens that there is to tell of. -/
theorem quiet {after : Shell} (h : after.Ready) (hsame : after.surroundings = shell.surroundings)
    (transcript : Transcript) (htold : transcript.told = []) (ending : Ending) :
    Told shell ⟨after, transcript, ending⟩ :=
  ⟨h, [], hsame ▸ .nil _, htold⟩

theorem after (h : Told shell outcome) {events : Transcript} (hevents : events.told = []) :
    Told shell (outcome.after events) := by
  obtain ⟨turns, haccords, htold⟩ := h.turns
  refine ⟨h.ready, turns, haccords, ?_⟩
  rw [Outcome.after_transcript, Transcript.told_append, hevents, List.nil_append, htold]

theorem andThen (h : Told shell outcome) {next : Shell → Int → Outcome}
    (hnext : ∀ shell status, shell.Ready → Told shell (next shell status)) :
    Told shell (outcome.andThen next) := by
  by_cases hreturned : ∃ status, outcome.ending = .returned status
  · obtain ⟨status, hstatus⟩ := hreturned
    obtain ⟨turns, haccords, htold⟩ := h.turns
    have hafter := hnext outcome.shell status h.ready
    obtain ⟨more, hmore, htoldMore⟩ := hafter.turns
    rw [Outcome.andThen_of_returned next hstatus]
    refine ⟨hafter.ready, turns ++ more, haccords.append hmore, ?_⟩
    rw [Outcome.after_transcript, Transcript.told_append, htold, htoldMore, List.flatMap_append]
  · rw [Outcome.andThen_of_not_returned next (by simpa using hreturned)]
    exact h

/-- The state may differ in what is no part of the surroundings. -/
theorem of_surroundings {other : Shell} (h : Told other outcome)
    (hsame : other.surroundings = shell.surroundings) : Told shell outcome :=
  ⟨h.ready, hsame ▸ h.turns⟩

end Told

/-- One command is one turn. -/
theorem Shell.Ready.told_runCommand {shell : Shell} (h : shell.Ready) (words : List String) :
    Told shell (shell.runCommand words) := by
  have hready := h.runPrepared (shell.prepare words)
  obtain ⟨status, hshell⟩ := Shell.exists_shell_runCommand shell words
  have hsurroundings : (shell.runCommand words).shell.surroundings =
      shell.surroundings.afterCommand (shell.prepare words) := by
    rw [hshell, ← Shell.surroundings_runPrepared h.builtins]
    rfl
  refine ⟨hshell ▸ ⟨hready.builtins, hready.searchPath⟩,
    [.command (shell.prepare words) (shell.attempt? (shell.prepare words))],
    .command (h.requests _) (hsurroundings ▸ .nil _), ?_⟩
  have heffects := (Shell.effects_runPrepared shell (shell.prepare words)).told
  rw [Shell.attempts_runPrepared] at heffects
  rw [Shell.transcript_runCommand, ← List.singleton_append, Transcript.told_append, heffects,
    List.flatMap_singleton]
  rfl

/-- Turns come one after the other as commands do. -/
theorem compositional_told : Compositional Shell.Ready (fun _ => True) Told where
  returned hready _ := .quiet hready rfl [] rfl _
  broken hready _ := .quiet hready rfl [] rfl _
  command hready words := hready.told_runCommand words
  andThen htold hnext := htold.andThen fun shell status hready => hnext shell status hready trivial
  after htold events hattempts hdispatched := htold.after (events.told_eq_nil hattempts hdispatched)
  start htold := htold.of_surroundings rfl
  fault _ := trivial
  lastStatus _ := trivial
  settled hready _ := ⟨hready.builtins, hready.searchPath⟩
  numbered hready _ := ⟨hready.builtins, hready.searchPath⟩

/-! ## §4 Sessions on record -/

/-- A session from its start, with all that is on record of it: the events of
each run in the order of the runs, and between two runs any changes of the
world. -/
inductive Recorded (start : Shell) : List Entry → Shell → Prop
  | start : Recorded start [] start
  | run {record : List Entry} {shell : Shell} {outcome : Outcome} (h : Recorded start record shell)
      (hrun : shell.Runs outcome) :
      Recorded start (record ++ outcome.transcript.map Entry.event) outcome.shell
  | world {record : List Entry} {shell : Shell} (h : Recorded start record shell) (world : World) :
      Recorded start (record ++ [.world world]) { shell with world }

/-- **One request for each command that names a program.** Let any lines,
scripts and streams be run in any order by a new shell with the standard
builtins, and let the world change in between in any way. Then what is on
record of commands, requests and changes of the world is what is on record of
turns that accord with the variables and the world at the start. So a command
is followed by one request, for the program where it is found at that time,
with the words of the command and the variables as the commands before it left
them, if its words name a program that is found; and no other command is
followed by any. -/
theorem requests_accord (programName : String) (processId : Int)
    (pairs : List (String × String)) (world : World) {record : List Entry} {shell : Shell}
    (h : Recorded
      { programName, processId, environment := .ofPairs pairs, world,
        builtins := Builtin.standard } record shell) :
    ∃ turns, Accords ⟨.ofPairs pairs, world⟩ turns shell.surroundings ∧
      record.filter Entry.tells = turns.flatMap Turn.entries := by
  suffices hready : shell.Ready ∧ ∃ turns,
      Accords ⟨.ofPairs pairs, world⟩ turns shell.surroundings ∧
        record.filter Entry.tells = turns.flatMap Turn.entries from hready.2
  induction h with
  | start => exact ⟨⟨rfl, SearchPath.faithful_new⟩, [], .nil _, rfl⟩
  | run _ hrun ih =>
    obtain ⟨hready, turns, haccords, hrecord⟩ := ih
    have htold := compositional_told.runs hready hrun
    obtain ⟨more, hmore, hevents⟩ := htold.turns
    refine ⟨htold.ready, turns ++ more, haccords.append hmore, ?_⟩
    rw [List.filter_append, hrecord, List.flatMap_append, ← hevents]
    rfl
  | @world record shell _ world ih =>
    obtain ⟨hready, turns, haccords, hrecord⟩ := ih
    refine ⟨⟨hready.builtins, hready.searchPath⟩, turns ++ [.world world],
      haccords.append (.world world (.nil _)), ?_⟩
    rw [List.filter_append, hrecord, List.flatMap_append]
    rfl

/-- A command that is skipped, one that is not found, one behind an alias that
sets a variable, and one that is found no more when the tree has changed. -/
theorem requests_accord_session :
    let world : World := { root := .directory true [("ls", .file { executable := true })] }
    let start : Shell :=
      { programName := "minish", processId := 1, environment := .ofPairs [("PATH", "/")], world,
        builtins := Builtin.standard }
    let first := start.runText "alias set='setenv A' ; nosuch && ls 1 || ls 2\nset $? && ls $A"
    let second := { first.shell with world := {} }.runCommand ["ls"]
    let record := first.transcript.map Entry.event ++ [.world {}] ++
      second.transcript.map Entry.event
    Recorded start record second.shell ∧
      first.transcript.attempts =
        [⟨"/ls", ["ls", "2"], ["PATH=/"]⟩, ⟨"/ls", ["ls", "0"], ["PATH=/", "A=0"]⟩] ∧
      second.transcript.attempts = [] ∧
      ∃ turns, Accords ⟨.ofPairs [("PATH", "/")], world⟩ turns second.shell.surroundings ∧
        record.filter Entry.tells = turns.flatMap Turn.entries := by
  intro world start first second record
  have hfirst : Recorded start (first.transcript.map Entry.event) first.shell :=
    .run .start (.text _)
  have hrecord : Recorded start record second.shell := .run (.world hfirst {}) (.command _)
  exact ⟨hrecord, by decide +kernel, by decide +kernel,
    requests_accord "minish" 1 [("PATH", "/")] world hrecord⟩

end CommandShell
