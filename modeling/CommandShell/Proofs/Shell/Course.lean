/-
CommandShell.Proofs.Shell.Course — what holds of a shell all along.

A `Course` is all that can become of a shell: commands, lines, texts, streams
and scripts are run, lines come from standard input or from a user, and the
world changes in between, each any number of times and in any order. §2 goes
through all that can be run once and for all: what is `Compositional` and holds
of commands holds of every run (`Compositional.runs`).

An `Invariant` is what one wants to hold on the way, of the states, of the
requests to start programs, and of the statuses. If it holds of one command
whose words are prepared (`Invariant.Kept`), then by §2 it holds of every run
(`Kept.runs`), and §3 has it in every state of a course (`Kept.course`). §4 does
the same for the commands that a line dispatches (`Kept.dispatches`), so that
nothing is missed between the beginning and the end of a line.
-/
import CommandShell.Proofs.Shell.Reports
import CommandShell.Shell.Loop

namespace CommandShell

/-! ## §1 Courses -/

/-- The outcome is that of something run in the shell. -/
inductive Shell.Runs (shell : Shell) : Outcome → Prop
  | command (words : List String) : Runs shell (shell.runCommand words)
  | line (line : String) : Runs shell (shell.executeLine line)
  | text (text : String) : Runs shell (shell.runText text)
  | stream (text : String) : Runs shell (shell.runStream text)
  | script (path : String) : Runs shell (shell.runScript path)
  | input (reads : List Read) : Runs shell (shell.runInput reads)
  | prompted (reads : List Read) : Runs shell (shell.runPrompted reads)

/-- The states that a shell can come to from a start, where the world changes
at times to one of the given worlds. -/
inductive Course (worlds : World → Prop) (start : Shell) : Shell → Prop
  | start : Course worlds start start
  | run {shell : Shell} {outcome : Outcome} (h : Course worlds start shell)
      (hrun : shell.Runs outcome) : Course worlds start outcome.shell
  | world {shell : Shell} (h : Course worlds start shell) {world : World}
      (hworld : worlds world) : Course worlds start { shell with world }

/-! ## §2 From commands to runs -/

/-- What can be shown of all that is run by showing it of commands. Here
`holds shell outcome` speaks of an outcome of something run in a shell, `state`
and `status` of the shells and the statuses that it is run with. Things may be
run one after the other. The last status and the line number at the start make
no difference, nor do events that tell of no command and no request. -/
structure Compositional (state : Shell → Prop) (status : Int → Prop)
    (holds : Shell → Outcome → Prop) : Prop where
  returned : ∀ {shell : Shell} {value : Int}, state shell → status value →
    holds shell ⟨shell, [], .returned value⟩
  broken : ∀ {shell : Shell}, state shell → ∀ breakdown, holds shell ⟨shell, [], .broken breakdown⟩
  command : ∀ {shell : Shell}, state shell → ∀ words, holds shell (shell.runCommand words)
  andThen : ∀ {shell : Shell} {outcome : Outcome} {next : Shell → Int → Outcome},
    holds shell outcome →
      (∀ shell value, state shell → status value → holds shell (next shell value)) →
        holds shell (outcome.andThen next)
  after : ∀ {shell : Shell} {outcome : Outcome}, holds shell outcome →
    ∀ events : Transcript, events.attempts = [] → events.dispatched = [] →
      holds shell (outcome.after events)
  start : ∀ {shell : Shell} {outcome : Outcome} {lastStatus : Int} {lineNumber : Nat},
    holds { shell with lastStatus, lineNumber } outcome → holds shell outcome
  fault : ∀ fault : Fault, status fault.status
  lastStatus : ∀ {shell : Shell}, state shell → status shell.lastStatus
  settled : ∀ {shell : Shell} {value : Int}, state shell → status value →
    state { shell with lastStatus := value }
  numbered : ∀ {shell : Shell}, state shell → ∀ lineNumber, state { shell with lineNumber }

namespace Compositional

variable {state : Shell → Prop} {status : Int → Prop} {holds : Shell → Outcome → Prop}
variable (h : Compositional state status holds) {shell : Shell}
include h

theorem finish (hstate : state shell) : holds shell shell.finish :=
  h.returned hstate (h.lastStatus hstate)

theorem report (hstate : state shell) (fault : Fault) (words : List String) :
    holds shell ((shell.report (.ofFault fault words)).andThen fun shell value =>
      ⟨{ shell with lastStatus := value }, [], .returned value⟩) := by
  have hreported : holds shell ⟨shell, [], .returned fault.status⟩ :=
    h.returned hstate (h.fault fault)
  have hline := h.after hreported [.errors (shell.diagnosticLine (.ofFault fault words))] rfl rfl
  refine h.andThen hline fun shell value hafter hvalue => ?_
  -- Nothing is run any more, but the last status is another one already.
  have hsettled : holds { shell with lastStatus := value }
      ⟨{ shell with lastStatus := value }, [], .returned value⟩ :=
    h.returned (h.settled hafter hvalue) hvalue
  exact h.start hsettled

theorem runCommands (hstate : state shell) {value : Int} (hvalue : status value)
    (commands : List Command) : holds shell (shell.runCommands value commands) := by
  induction commands generalizing shell value with
  | nil => exact h.returned hstate hvalue
  | cons command rest ih =>
    rw [Shell.runCommands]
    split
    · exact ih hstate hvalue
    · exact h.andThen (h.command hstate command.words) fun _ _ hafter hvalue => ih hafter hvalue

theorem executeLine (hstate : state shell) (line : String) :
    holds shell (shell.executeLine line) := by
  have hnumbered := h.numbered hstate (shell.lineNumber + 1)
  unfold Shell.executeLine
  dsimp only
  split
  · next error _ => exact h.start (h.report hnumbered error.fault [])
  · exact h.start (h.runCommands hnumbered (h.lastStatus hstate) _)

theorem runLines (hstate : state shell) (lines : List String) :
    holds shell (shell.runLines lines) := by
  induction lines generalizing shell with
  | nil => exact h.finish hstate
  | cons line rest ih =>
    rw [Shell.runLines]
    exact h.andThen (h.executeLine hstate line) fun _ _ hafter _ => ih hafter

theorem runScript (hstate : state shell) (path : String) : holds shell (shell.runScript path) := by
  unfold Shell.runScript
  split
  · exact h.broken hstate _
  · exact h.report hstate ⟨.scriptUnreadable path, none⟩ []
  · exact h.after (h.runLines hstate _) _ rfl rfl

theorem runInput (hstate : state shell) (reads : List Read) :
    holds shell (shell.runInput reads) := by
  induction reads generalizing shell with
  | nil => exact h.after (h.finish hstate) _ rfl rfl
  | cons read rest ih =>
    cases read with
    | interrupt => exact h.after (h.broken hstate .interrupted) [.read] rfl rfl
    | line text =>
      rw [Shell.runInput]
      split
      · exact h.after (h.finish hstate) _ rfl rfl
      · have hline := h.executeLine hstate text
        exact h.after (h.andThen hline fun _ _ hafter _ => ih hafter) _ rfl rfl

theorem runPrompted (hstate : state shell) (reads : List Read) :
    holds shell (shell.runPrompted reads) := by
  induction reads generalizing shell with
  | nil => exact h.after (h.finish hstate) _ rfl rfl
  | cons read rest ih =>
    cases read with
    | interrupt => exact h.after (ih hstate) _ rfl rfl
    | line text =>
      rw [Shell.runPrompted]
      split
      · exact h.after (h.finish hstate) _ rfl rfl
      · have hline := h.executeLine hstate (Text.chomp text)
        exact h.after (h.andThen hline fun _ _ hafter _ => ih hafter) _ rfl rfl

/-- **What holds of commands holds of all that is run.** -/
theorem runs (hstate : state shell) {outcome : Outcome} (hrun : shell.Runs outcome) :
    holds shell outcome := by
  cases hrun with
  | command words => exact h.command hstate words
  | line line => exact h.executeLine hstate line
  | text text => exact h.runLines hstate _
  | stream text => exact h.runLines hstate _
  | script path => exact h.runScript hstate path
  | input reads => exact h.runInput hstate reads
  | prompted reads => exact h.runPrompted hstate reads

end Compositional

/-! ## §3 Invariants -/

/-- What is to hold of states, of requests to start programs, and of statuses. -/
structure Invariant where
  state : Shell → Prop
  attempt : Attempt → Prop
  status : Int → Prop

namespace Transcript

@[simp] theorem attempts_append (before after : Transcript) :
    Transcript.attempts (before ++ after) = before.attempts ++ after.attempts :=
  List.filterMap_append

end Transcript

namespace Invariant

/-- It holds of the state that an outcome leaves, of all requests that were
made on the way, and of the status that comes of it, if one does. -/
structure Holds (inv : Invariant) (outcome : Outcome) : Prop where
  state : inv.state outcome.shell
  attempts : ∀ attempt ∈ outcome.transcript.attempts, inv.attempt attempt
  status : ∀ value, outcome.status = .ok value → inv.status value

/-- It holds of a command whose words are prepared, and what the shell does of
itself around commands keeps it. -/
structure Kept (inv : Invariant) : Prop where
  prepared : ∀ {shell : Shell}, inv.state shell → ∀ words, inv.Holds (shell.runPrepared words)
  fault : ∀ fault : Fault, inv.status fault.status
  lastStatus : ∀ {shell : Shell}, inv.state shell → inv.status shell.lastStatus
  settled : ∀ {shell : Shell} {value : Int}, inv.state shell → inv.status value →
    inv.state { shell with lastStatus := value }
  numbered : ∀ {shell : Shell}, inv.state shell → ∀ lineNumber,
    inv.state { shell with lineNumber }

variable {inv : Invariant} {outcome : Outcome} {shell : Shell}

theorem Holds.after (h : inv.Holds outcome) {events : Transcript}
    (hevents : ∀ attempt ∈ events.attempts, inv.attempt attempt) :
    inv.Holds (outcome.after events) where
  state := h.state
  attempts attempt hmem := by
    rw [Outcome.after_transcript, Transcript.attempts_append] at hmem
    rcases List.mem_append.mp hmem with hmem | hmem
    · exact hevents attempt hmem
    · exact h.attempts attempt hmem
  status := h.status

/-- Events that request nothing make no difference. -/
theorem Holds.after_of_attempts_eq_nil (h : inv.Holds outcome) (events : Transcript)
    (hevents : events.attempts = []) : inv.Holds (outcome.after events) :=
  h.after (by simp [hevents])

theorem Holds.andThen (h : inv.Holds outcome) {next : Shell → Int → Outcome}
    (hnext : ∀ shell value, inv.state shell → inv.status value → inv.Holds (next shell value)) :
    inv.Holds (outcome.andThen next) := by
  obtain ⟨after, transcript, ending⟩ := outcome
  cases ending with
  | returned value => exact (hnext after value h.state (h.status value rfl)).after h.attempts
  | left value => exact h
  | broken breakdown => exact h

theorem holds_returned (hstate : inv.state shell) {value : Int} (hstatus : inv.status value) :
    inv.Holds ⟨shell, [], .returned value⟩ where
  state := hstate
  attempts := by simp [Transcript.attempts]
  status other hother := by
    cases hother
    exact hstatus

theorem holds_broken (hstate : inv.state shell) (breakdown : Breakdown) :
    inv.Holds ⟨shell, [], .broken breakdown⟩ where
  state := hstate
  attempts := by simp [Transcript.attempts]
  status other hother := by cases hother

namespace Kept

variable (h : inv.Kept)
include h

theorem runCommand (hstate : inv.state shell) (words : List String) :
    inv.Holds (shell.runCommand words) := by
  unfold Shell.runCommand
  refine Holds.andThen ?_ fun _ _ hafter hvalue =>
    holds_returned (h.settled hafter hvalue) hvalue
  exact (h.prepared hstate (shell.prepare words)).after_of_attempts_eq_nil _ rfl

theorem compositional : Compositional inv.state inv.status fun _ outcome => inv.Holds outcome where
  returned hstate hvalue := holds_returned hstate hvalue
  broken hstate breakdown := holds_broken hstate breakdown
  command hstate words := h.runCommand hstate words
  andThen houtcome hnext := houtcome.andThen hnext
  after houtcome events hattempts _ := houtcome.after_of_attempts_eq_nil events hattempts
  start := id
  fault := h.fault
  lastStatus := h.lastStatus
  settled := h.settled
  numbered := h.numbered

/-- An invariant holds of all that is run where it holds. -/
theorem runs (hstate : inv.state shell) (hrun : shell.Runs outcome) : inv.Holds outcome :=
  h.compositional.runs hstate hrun

/-- **An invariant that holds at the start holds all along**, if a change of
the world keeps it. -/
theorem course {worlds : World → Prop} {start : Shell} (hstart : inv.state start)
    (hworld : ∀ shell world, inv.state shell → worlds world → inv.state { shell with world })
    (hcourse : Course worlds start shell) : inv.state shell := by
  induction hcourse with
  | start => exact hstart
  | run _ hrun ih => exact (h.runs ih hrun).state
  | world _ hchange ih => exact hworld _ _ ih hchange

end Kept

end Invariant

/-! ## §4 The commands of a line -/

open AndOr (Evaluation runAll trees)

namespace Shell

/-- The commands that a line dispatches, each with the state that it is run in. -/
def dispatches (shell : Shell) (line : String) : List Dispatch :=
  match Command.ofLine line with
  | .error _ => []
  | .ok commands =>
    (runAll { shell with lineNumber := shell.lineNumber + 1 } shell.lastStatus shell.lastStatus
      (trees commands)).dispatches

end Shell

namespace Invariant

/-- It holds of an evaluation and, before that, in the state of each command
that is dispatched. -/
structure Throughout (inv : Invariant) (evaluation : Evaluation) : Prop where
  outcome : inv.Holds evaluation.outcome
  last : inv.status evaluation.last
  dispatches : ∀ dispatch ∈ evaluation.dispatches, inv.state dispatch.state

variable {inv : Invariant} {evaluation : Evaluation} {shell : Shell} {last : Int}

theorem throughout_pass (hstate : inv.state shell) (hlast : inv.status last) {value : Int}
    (hvalue : inv.status value) : inv.Throughout (.pass shell last value) where
  outcome := holds_returned hstate hvalue
  last := hlast
  dispatches := by simp [Evaluation.pass]

theorem Throughout.andThen (h : inv.Throughout evaluation)
    {next : Shell → Int → Int → Evaluation}
    (hnext : ∀ shell last value, inv.state shell → inv.status last → inv.status value →
      inv.Throughout (next shell last value)) : inv.Throughout (evaluation.andThen next) := by
  obtain ⟨⟨after, transcript, ending⟩, last, dispatches⟩ := evaluation
  cases ending with
  | left value => exact h
  | broken breakdown => exact h
  | returned value =>
    have hafter := hnext after last value h.outcome.state h.last (h.outcome.status value rfl)
    refine ⟨hafter.outcome.after h.outcome.attempts, hafter.last, fun dispatch hmem => ?_⟩
    rcases List.mem_append.mp hmem with hmem | hmem
    · exact h.dispatches dispatch hmem
    · exact hafter.dispatches dispatch hmem

namespace Kept

variable (h : inv.Kept)
include h

theorem dispatch (hstate : inv.state shell) (hlast : inv.status last) (words : List String) :
    inv.Throughout (.dispatch shell last words) := by
  have hsettled : inv.state { shell with lastStatus := last } := h.settled hstate hlast
  have houtcome : inv.Holds (Dispatch.outcome ⟨shell, last, words⟩) := h.runCommand hsettled words
  refine ⟨houtcome, ?_, by simpa [Evaluation.dispatch, Dispatch.state] using hsettled⟩
  unfold Evaluation.dispatch
  dsimp only
  split
  · next status hreturned => exact houtcome.status status (by simp [Outcome.status, hreturned])
  · exact hlast

theorem run (tree : AndOr) (hstate : inv.state shell) (hlast : inv.status last) :
    inv.Throughout (tree.run shell last) := by
  induction tree with
  | simple words => exact h.dispatch hstate hlast words
  | and left right ih =>
    refine ih.andThen fun shell last value hstate hlast hvalue => ?_
    split
    · exact h.dispatch hstate hlast right
    · exact throughout_pass hstate hlast hvalue
  | or left right ih =>
    refine ih.andThen fun shell last value hstate hlast hvalue => ?_
    split
    · exact h.dispatch hstate hlast right
    · exact throughout_pass hstate hlast hvalue

theorem runAll (trees : List AndOr) (hstate : inv.state shell) (hlast : inv.status last)
    {value : Int} (hvalue : inv.status value) :
    inv.Throughout (AndOr.runAll shell last value trees) := by
  induction trees generalizing shell last value with
  | nil => exact throughout_pass hstate hlast hvalue
  | cons tree rest ih =>
    exact (h.run tree hstate hlast).andThen fun _ _ _ hafter hlast hvalue => ih hafter hlast hvalue

/-- **An invariant holds before and after each command of a line.** -/
theorem dispatches (hstate : inv.state shell) (line : String) :
    ∀ dispatch ∈ shell.dispatches line, inv.state dispatch.state ∧ inv.Holds dispatch.outcome := by
  intro dispatch hmem
  unfold Shell.dispatches at hmem
  split at hmem
  · cases hmem
  · next commands _ =>
    have hlast := h.lastStatus hstate
    have hnumbered := h.numbered hstate (shell.lineNumber + 1)
    have hall := h.runAll (trees commands) hnumbered hlast hlast
    have hbefore := hall.dispatches dispatch hmem
    exact ⟨hbefore, h.runCommand hbefore dispatch.words⟩

end Kept

end Invariant

end CommandShell
