/-
CommandShell.Proofs.Shell.Reports — every failure is reported once, at the
line on which it happens.

§1 says what there is to report of a command whose words are prepared:
`Shell.failure?` is the one diagnostic of a command that fails inside the
shell, and `Shell.reports` adds the look-ups of an alias that find none. Both
are read off the answers of the builtin, of the search for a program and of
its start, and not off what the shell writes. §2 shows for one command that
these are the diagnostics it writes (`errors_runPrepared`), and what they have
to do with its status. §3 follows the commands of a line through the
evaluation of its trees (`Accounted`): the events of the line are those of the
commands it dispatches, and all of them are reported at the same line number.
-/
import CommandShell.Proofs.Builtin.Standard
import CommandShell.Proofs.Shell.AndOrList
import CommandShell.Proofs.Shell.Rejection
import CommandShell.Proofs.Shell.Session

namespace CommandShell

/-! ## §1 What there is to report -/

/-- The report of a program that was not found. -/
def Diagnostic.notFound (command : String) : Diagnostic where
  reason := "not found"
  status := 127
  command := command

namespace Shell

/-- The report of a command that fails inside the shell: its builtin fails,
foreseen or not, no program is found, or the program cannot be started. -/
def failure? (shell : Shell) : List String → Option Diagnostic
  | [] => none
  | command :: operands =>
    match shell.builtins.lookup command with
    | some entry =>
      match (entry.handler.perform shell command operands).2 with
      | .failed fault => some (.ofFault fault (command :: operands))
      | .crashed message => some (.unforeseen message (command :: operands))
      | .done _ | .leave _ => none
    | none =>
      match (shell.searchPath.resolve shell.environment shell.world command).location with
      | none => some (.notFound command)
      | some location =>
        match (launch shell.world
          ⟨location, command :: operands, shell.environment.lines⟩).2 with
        | .execFailed reason errno =>
          if errno = some .enoent then some (.notFound command)
          else some { reason, status := 126, command := some command }
        | .spawnFailed reason _ => some { reason, status := 1, command := some command }
        | .exited _ | .signalled _ => none

/-- All that there is to report of a command. -/
def reports (shell : Shell) (words : List String) : List Diagnostic :=
  match shell.failure? words, words with
  | some diagnostic, _ => [diagnostic]
  | none, command :: operands =>
    if command = "alias" then
      (shell.aliases.unknown (AliasOperand.ofWords operands)).map .noAlias
    else []
  | none, [] => []

/-- The words name a program that really started, and it ended with this
status. -/
inductive Ran (shell : Shell) : List String → Int → Prop
  | ran {command location : String} {operands : List String} {code : Int} {interrupts : Nat}
      (hbuiltin : shell.builtins.lookup command = none)
      (hlocation : (shell.searchPath.resolve shell.environment shell.world command).location =
        some location)
      (hstart : Attempt.start ⟨location, command :: operands, shell.environment.lines⟩
        shell.world = .running code interrupts) :
      Ran shell (command :: operands) (ChildEnding.ofCode code).status

end Shell

/-! ## §2 One command -/

namespace Transcript

variable (logging : Bool)

@[simp] theorem errors_nil : errors [] logging = "" := rfl

@[simp] theorem errors_cons (event : Event) (rest : Transcript) :
    errors (event :: rest) logging = event.errorText logging ++ rest.errors logging := by
  simp [errors, String.join_cons]

@[simp] theorem errors_append (before after : Transcript) :
    errors (before ++ after) logging = before.errors logging ++ after.errors logging := by
  simp [errors, String.join_append]

end Transcript

theorem SearchPath.errors_refresh (path : SearchPath) (env : Environment) :
    (path.refresh env).2.errors false = "" := by
  unfold refresh
  dsimp only
  split
  · rfl
  · split <;> rfl

theorem SearchPath.errors_resolve (path : SearchPath) (env : Environment) (world : World)
    (command : String) : (path.resolve env world command).transcript.errors false = "" := by
  have hrefresh := errors_refresh path env
  unfold resolve
  split
  · rfl
  · split
    · rfl
    · dsimp only
      split <;> simp [hrefresh, Event.errorText]

theorem errors_launch (world : World) (attempt : Attempt) :
    (launch world attempt).1.errors false = "" := by
  unfold launch
  dsimp only
  split
  · rfl
  · rfl
  · split <;> rfl
  · rfl

/-- However long the wait, the code of the program tells how it ended. -/
theorem await_eq (code : Int) (interrupts : Nat) : await code interrupts = .ofCode code := by
  induction interrupts with
  | zero => rfl
  | succ interrupts ih => exact ih

/-- A program that ended by itself was started. -/
theorem start_of_launch {world : World} {attempt : Attempt} {ending : ChildEnding}
    (h : (launch world attempt).2 = ending)
    (hexec : ∀ reason errno, ending ≠ .execFailed reason errno)
    (hspawn : ∀ reason errno, ending ≠ .spawnFailed reason errno) :
    ∃ code interrupts, attempt.start world = .running code interrupts ∧ ending = .ofCode code := by
  unfold launch at h
  dsimp only at h
  split at h
  · exact absurd h.symm (hexec _ _)
  · exact absurd h.symm (hspawn _ _)
  · split at h
    · exact absurd h.symm (hspawn _ _)
    · exact absurd h.symm (hexec _ _)
  · next code interrupts hstart => exact ⟨code, interrupts, hstart, by rw [← h, await_eq]⟩

namespace Shell

theorem errors_resultEvents (result : CommandResult) :
    Transcript.errors (resultEvents result) false = result.errors := by
  unfold resultEvents
  split <;> split <;> simp_all [Event.errorText]

theorem errors_report (shell : Shell) (diagnostic : Diagnostic) :
    (shell.report diagnostic).transcript.errors false = shell.diagnosticLine diagnostic := by
  simp [report, Event.errorText]

/-- The lines of a report do not change while a command runs. -/
theorem Frame.diagnosticLine {before after : Shell} (h : Frame before after)
    (diagnostic : Diagnostic) :
    after.diagnosticLine diagnostic = before.diagnosticLine diagnostic := by
  unfold Shell.diagnosticLine
  rw [h.programName, h.lineNumber]

theorem reports_of_some {shell : Shell} {words : List String} {diagnostic : Diagnostic}
    (h : shell.failure? words = some diagnostic) : shell.reports words = [diagnostic] := by
  simp [reports, h]

/-- Where nothing fails, only look-ups of aliases are left to report. -/
theorem reports_of_none {shell : Shell} {command : String} {operands : List String}
    (h : shell.failure? (command :: operands) = none) (halias : command ≠ "alias") :
    shell.reports (command :: operands) = [] := by
  simp [reports, h, halias]

/-- What came of a command with these prepared words agrees with what there is
to report of it. -/
structure Reported (shell : Shell) (words : List String) (outcome : Outcome) : Prop where
  errors : outcome.transcript.errors false =
    String.join ((shell.reports words).map shell.diagnosticLine)
  failed : shell.reports words ≠ [] →
    ∃ status, outcome.ending = .returned status ∧ status ≠ 0
  ran : ∀ status, outcome.ending = .returned status → status ≠ 0 →
    shell.reports words = [] → shell.Ran words status

/-- A failure that is reported as there is to report it. -/
theorem Reported.of_failure {shell : Shell} {words : List String} {outcome : Outcome}
    (diagnostic : Diagnostic) (h : shell.failure? words = some diagnostic)
    (herrors : outcome.transcript.errors false = shell.diagnosticLine diagnostic)
    (hending : outcome.ending = .returned diagnostic.status) (hstatus : diagnostic.status ≠ 0) :
    Reported shell words outcome := by
  have hreports := reports_of_some h
  refine ⟨?_, fun _ => ⟨_, hending, hstatus⟩, fun _ _ _ hnone => ?_⟩
  · rw [herrors, hreports]
    simp
  · rw [hreports] at hnone
    cases hnone

/-- Nothing is reported, and nothing is written. -/
theorem Reported.of_silence {shell : Shell} {words : List String} {outcome : Outcome}
    (h : shell.reports words = []) (herrors : outcome.transcript.errors false = "")
    (hran : ∀ status, outcome.ending = .returned status → status ≠ 0 → shell.Ran words status) :
    Reported shell words outcome :=
  ⟨by rw [herrors, h]; rfl, fun hne => absurd h hne, fun status hending hstatus _ =>
    hran status hending hstatus⟩

/-- Events that write nothing to the error stream make no difference. -/
theorem Reported.after {shell : Shell} {words : List String} {outcome : Outcome}
    {events : Transcript} (hevents : events.errors false = "")
    (h : Reported shell words outcome) : Reported shell words (outcome.after events) := by
  refine ⟨?_, h.failed, h.ran⟩
  rw [Outcome.after_transcript, Transcript.errors_append, hevents, String.empty_append, h.errors]

theorem reported_aliases {shell : Shell} {entry : Registry.Entry Action}
    (hlookup : shell.builtins.lookup "alias" = some entry) (hentry : entry.handler = .aliases)
    (operands : List String) :
    Reported shell ("alias" :: operands) (shell.runBuiltin entry "alias" operands) := by
  have hreply := Builtin.perform_aliases hentry shell "alias" operands
  have hfailure : shell.failure? ("alias" :: operands) = none := by
    simp [failure?, hlookup, hreply]
  have hreports : shell.reports ("alias" :: operands) =
      (shell.aliases.unknown (AliasOperand.ofWords operands)).map .noAlias := by
    simp [reports, hfailure]
  have hrun : (shell.runBuiltin entry "alias" operands).ending = .returned
      (if shell.aliases.unknown (AliasOperand.ofWords operands) = [] then 0 else 1) := by
    simp [runBuiltin, hreply]
  refine ⟨?_, fun hne => ⟨_, hrun, ?_⟩, fun status hstatus hne hnone => ?_⟩
  · rw [hreports, List.map_map]
    simp only [runBuiltin, hreply]
    rw [errors_resultEvents]
    rfl
  · have hunknown : shell.aliases.unknown (AliasOperand.ofWords operands) ≠ [] := by
      simpa [hreports] using hne
    rw [if_neg hunknown]
    decide
  · have hunknown : shell.aliases.unknown (AliasOperand.ofWords operands) = [] := by
      simpa [hreports] using hnone
    rw [hrun, if_pos hunknown] at hstatus
    cases hstatus
    exact absurd rfl hne

/-- A standard builtin that runs to its end and is not the one for aliases
writes nothing to the error stream and returns zero. -/
theorem quiet_of_done {shell after : Shell} (h : shell.builtins = Builtin.standard)
    {command : String} {entry : Registry.Entry Action}
    (hlookup : shell.builtins.lookup command = some entry) (halias : command ≠ "alias")
    {operands : List String} {result : CommandResult}
    (hperform : entry.handler.perform shell command operands = (after, .done result)) :
    result.errors = "" ∧ result.status = 0 := by
  rw [h] at hlookup
  by_cases hexit : command = "exit"
  · subst hexit
    rw [Builtin.IsStandard.exit.handler_eq hlookup] at hperform
    exact absurd (congrArg Prod.snd hperform) (Builtin.exit_ne_done shell operands result)
  · have hplain := Builtin.plain_perform hlookup hexit halias shell command operands
    rw [hperform] at hplain
    cases hplain
    exact ⟨rfl, rfl⟩

theorem reported_runBuiltin {shell : Shell} (h : shell.builtins = Builtin.standard)
    {command : String} {entry : Registry.Entry Action}
    (hlookup : shell.builtins.lookup command = some entry) (operands : List String) :
    Reported shell (command :: operands) (shell.runBuiltin entry command operands) := by
  by_cases halias : command = "alias"
  · subst halias
    exact reported_aliases hlookup (Builtin.IsStandard.aliases.handler_eq (h ▸ hlookup)) operands
  · have hframe := frame_perform entry.handler shell command operands
    rcases hperform : entry.handler.perform shell command operands with ⟨after, reply⟩
    rw [hperform] at hframe
    cases reply with
    | failed fault =>
      refine .of_failure (.ofFault fault (command :: operands)) ?_ ?_ ?_ ?_
      · simp [failure?, hlookup, hperform]
      · simp [runBuiltin, hperform, report, Event.errorText, hframe.diagnosticLine]
      · simp [runBuiltin, hperform, report]
      · exact fault.status_ne_zero
    | crashed message =>
      refine .of_failure (.unforeseen message (command :: operands)) ?_ ?_ ?_ ?_
      · simp [failure?, hlookup, hperform]
      · simp [runBuiltin, hperform, report, Event.errorText, hframe.diagnosticLine]
      · simp [runBuiltin, hperform, report]
      · simp [Diagnostic.unforeseen]
    | leave status =>
      refine .of_silence (reports_of_none ?_ halias) ?_ ?_
      · simp [failure?, hlookup, hperform]
      · simp [runBuiltin, hperform]
      · simp [runBuiltin, hperform]
    | done result =>
      have hquiet := quiet_of_done h hlookup halias hperform
      refine .of_silence (reports_of_none ?_ halias) ?_ ?_
      · simp [failure?, hlookup, hperform]
      · simp [runBuiltin, hperform, errors_resultEvents, hquiet]
      · simp [runBuiltin, hperform, hquiet]

/-- A program that ended by itself ran, and its ending gives the status. -/
theorem Ran.of_launch {shell : Shell} {command location : String} {operands : List String}
    {ending : ChildEnding} (hbuiltin : shell.builtins.lookup command = none)
    (hlocation : (shell.searchPath.resolve shell.environment shell.world command).location =
      some location)
    (hending : (launch shell.world
      ⟨location, command :: operands, shell.environment.lines⟩).2 = ending)
    (hexec : ∀ reason errno, ending ≠ .execFailed reason errno)
    (hspawn : ∀ reason errno, ending ≠ .spawnFailed reason errno) :
    Ran shell (command :: operands) ending.status := by
  obtain ⟨code, interrupts, hstart, rfl⟩ := start_of_launch hending hexec hspawn
  exact .ran hbuiltin hlocation hstart

/-- What follows from the ending of a program. The shell that concludes may
differ from the one that started the program in what it keeps of the search. -/
theorem reported_concludeChild {shell after : Shell} {command location : String}
    {operands : List String} (hbuiltin : shell.builtins.lookup command = none)
    (halias : command ≠ "alias")
    (hlocation : (shell.searchPath.resolve shell.environment shell.world command).location =
      some location)
    (hlines : ∀ diagnostic, after.diagnosticLine diagnostic = shell.diagnosticLine diagnostic)
    {ending : ChildEnding} (hending : (launch shell.world
      ⟨location, command :: operands, shell.environment.lines⟩).2 = ending) :
    Reported shell (command :: operands) (after.concludeChild command ending) := by
  cases ending with
  | exited code =>
    have hran := Ran.of_launch hbuiltin hlocation hending (by simp) (by simp)
    refine .of_silence (reports_of_none ?_ halias) rfl ?_
    · simp [failure?, hbuiltin, hlocation, hending]
    · rintro status ⟨⟩ -
      exact hran
  | signalled signal =>
    have hran := Ran.of_launch hbuiltin hlocation hending (by simp) (by simp)
    refine .of_silence (reports_of_none ?_ halias) rfl ?_
    · simp [failure?, hbuiltin, hlocation, hending]
    · rintro status ⟨⟩ -
      exact hran
  | execFailed reason errno =>
    by_cases herrno : errno = some .enoent
    · have hconclude : after.concludeChild command (.execFailed reason errno) =
          after.report (.notFound command) := by
        simp only [concludeChild, if_pos herrno]
        rfl
      rw [hconclude]
      refine .of_failure (.notFound command) ?_ ?_ rfl (by simp [Diagnostic.notFound])
      · simp [failure?, hbuiltin, hlocation, hending, herrno]
      · exact (errors_report after _).trans (hlines _)
    · have hconclude : after.concludeChild command (.execFailed reason errno) =
          after.report ⟨reason, 126, command⟩ := by
        simp only [concludeChild, if_neg herrno]
        rfl
      rw [hconclude]
      refine .of_failure ⟨reason, 126, command⟩ ?_ ?_ rfl (by simp)
      · simp [failure?, hbuiltin, hlocation, hending, herrno]
      · exact (errors_report after _).trans (hlines _)
  | spawnFailed reason errno =>
    refine .of_failure ⟨reason, 1, command⟩ ?_ ?_ rfl (by simp)
    · simp [failure?, hbuiltin, hlocation, hending]
    · exact (errors_report after _).trans (hlines _)

theorem reported_runExternal {shell : Shell} (h : shell.builtins = Builtin.standard)
    {command : String} (hlookup : shell.builtins.lookup command = none) (operands : List String) :
    Reported shell (command :: operands) (shell.runExternal command operands) := by
  have halias : command ≠ "alias" := by
    rintro rfl
    obtain ⟨entry, hentry, -⟩ := Builtin.IsStandard.aliases.exists_lookup
    rw [h, hentry] at hlookup
    cases hlookup
  have hsearched := SearchPath.errors_resolve shell.searchPath shell.environment shell.world command
  unfold runExternal
  dsimp only
  split
  · next hlocation =>
    refine .after hsearched
      (.of_failure (.notFound command) ?_ ?_ rfl (by simp [Diagnostic.notFound]))
    · simp [failure?, hlookup, hlocation]
    · exact errors_report _ _
  · next location hlocation =>
    refine .after ?_ (reported_concludeChild hlookup halias hlocation ?_ rfl)
    · rw [Transcript.errors_append, hsearched, errors_launch]
      rfl
    · exact fun _ => rfl

theorem reported_runPrepared {shell : Shell} (h : shell.builtins = Builtin.standard)
    (words : List String) : Reported shell words (shell.runPrepared words) := by
  unfold runPrepared
  split
  · refine .of_silence rfl rfl ?_
    rintro status ⟨⟩ hne
    exact absurd rfl hne
  · split
    · next hlookup => exact .after rfl (reported_runBuiltin h hlookup _)
    · next hlookup => exact reported_runExternal h hlookup _

theorem reported_runCommand {shell : Shell} (h : shell.builtins = Builtin.standard)
    (words : List String) :
    Reported shell (shell.prepare words) (shell.runCommand words) := by
  obtain ⟨herrors, hfailed, hran⟩ := reported_runPrepared h (shell.prepare words)
  rw [← ending_runCommand] at hfailed hran
  refine ⟨?_, hfailed, hran⟩
  rw [transcript_runCommand, Transcript.errors_cons, herrors]
  exact String.empty_append

end Shell

/-! ## §3 The commands of a line -/

namespace Dispatch

/-- The state in which the command is run. -/
def state (dispatch : Dispatch) : Shell :=
  { dispatch.shell with lastStatus := dispatch.last }

/-- What there is to report of the command. -/
def reports (dispatch : Dispatch) : List Diagnostic :=
  dispatch.state.reports dispatch.prepared

theorem reported (dispatch : Dispatch) (h : dispatch.shell.builtins = Builtin.standard) :
    Shell.Reported dispatch.state dispatch.prepared dispatch.outcome :=
  @Shell.reported_runCommand dispatch.state h dispatch.words

end Dispatch

namespace AndOr

open Shell (Frame)

/-- The events of an evaluation are those of the commands it dispatches, each
of them in the frame that the evaluation began with. -/
structure Accounted (shell : Shell) (evaluation : Evaluation) : Prop where
  transcript : evaluation.outcome.transcript =
    evaluation.dispatches.flatMap fun dispatch => dispatch.outcome.transcript
  frame : Frame shell evaluation.outcome.shell
  dispatched : ∀ dispatch ∈ evaluation.dispatches, Frame shell dispatch.shell

theorem accounted_pass {shell after : Shell} (h : Frame shell after) (last value : Int) :
    Accounted shell (.pass after last value) :=
  ⟨rfl, h, by simp [Evaluation.pass]⟩

theorem accounted_dispatch {shell after : Shell} (h : Frame shell after) (last : Int)
    (words : List String) : Accounted shell (.dispatch after last words) := by
  refine ⟨by simp [Evaluation.dispatch], ?_, by simpa [Evaluation.dispatch] using h⟩
  have hstate : Frame shell { after with lastStatus := last } :=
    h.trans ⟨rfl, rfl, rfl, rfl, rfl⟩
  exact hstate.trans (Shell.frame_runCommand _ words)

theorem Accounted.andThen {shell : Shell} {evaluation : Evaluation}
    (h : Accounted shell evaluation) {next : Shell → Int → Int → Evaluation}
    (hnext : ∀ after last value, Frame shell after → Accounted shell (next after last value)) :
    Accounted shell (evaluation.andThen next) := by
  obtain ⟨⟨after, transcript, ending⟩, last, dispatches⟩ := evaluation
  cases ending with
  | left status => exact h
  | broken breakdown => exact h
  | returned value =>
    have hafter := hnext after last value h.frame
    refine ⟨?_, hafter.frame, fun dispatch hmem => ?_⟩
    · have hbefore : transcript = dispatches.flatMap fun dispatch => dispatch.outcome.transcript :=
        h.transcript
      simp [Evaluation.andThen, hafter.transcript, ← hbefore]
    · rcases List.mem_append.mp hmem with hmem | hmem
      · exact h.dispatched dispatch hmem
      · exact hafter.dispatched dispatch hmem

theorem accounted_run (tree : AndOr) {shell after : Shell} (h : Frame shell after) (last : Int) :
    Accounted shell (tree.run after last) := by
  induction tree with
  | simple words => exact accounted_dispatch h last words
  | and left right ih =>
    refine ih.andThen fun after last value hframe => ?_
    split
    · exact accounted_dispatch hframe last right
    · exact accounted_pass hframe last value
  | or left right ih =>
    refine ih.andThen fun after last value hframe => ?_
    split
    · exact accounted_dispatch hframe last right
    · exact accounted_pass hframe last value

theorem accounted_runAll (trees : List AndOr) {shell after : Shell} (h : Frame shell after)
    (last value : Int) : Accounted shell (runAll after last value trees) := by
  induction trees generalizing after last value with
  | nil => exact accounted_pass h last value
  | cons tree rest ih =>
    exact (accounted_run tree h last).andThen fun after last value hframe => ih hframe last value

end AndOr

/-- Each diagnostic starts with the name of the program and the number of the
line, and ends in a newline. -/
theorem Shell.exists_diagnosticLine (shell : Shell) (diagnostic : Diagnostic) :
    ∃ text, shell.diagnosticLine diagnostic =
      shell.programName ++ ": " ++ toString shell.lineNumber ++ ": " ++ text ++ "\n" := by
  unfold diagnosticLine Diagnostic.render
  cases diagnostic.command with
  | none => exact ⟨diagnostic.reason, rfl⟩
  | some command => exact ⟨command ++ ": " ++ diagnostic.reason, rfl⟩

/-- What commands write to the error stream, one after the other. -/
theorem Transcript.errors_flatMap {dispatches : List Dispatch} {shell : Shell}
    (h : ∀ dispatch ∈ dispatches, dispatch.outcome.transcript.errors false =
      String.join (dispatch.reports.map shell.diagnosticLine)) :
    Transcript.errors (dispatches.flatMap fun dispatch => dispatch.outcome.transcript) false =
      String.join ((dispatches.flatMap Dispatch.reports).map shell.diagnosticLine) := by
  induction dispatches with
  | nil => rfl
  | cons dispatch rest ih =>
    have hfirst := h dispatch List.mem_cons_self
    have hrest := ih fun other hother => h other (List.mem_cons_of_mem dispatch hother)
    rw [List.flatMap_cons, List.flatMap_cons, errors_append, hfirst, hrest, List.map_append,
      String.join_append]

/-- Whatever trees are evaluated, each command dispatched is reported at the
line of the shell that the evaluation began with. -/
theorem AndOr.errors_runAll {shell : Shell} (h : shell.builtins = Builtin.standard)
    (trees : List AndOr) (last value : Int) :
    (∀ dispatch ∈ (runAll shell last value trees).dispatches,
      dispatch.outcome.transcript.errors false =
        String.join (dispatch.reports.map shell.diagnosticLine)) ∧
      (runAll shell last value trees).outcome.transcript.errors false =
        String.join (((runAll shell last value trees).dispatches.flatMap Dispatch.reports).map
          shell.diagnosticLine) := by
  have haccounted := accounted_runAll trees (Shell.Frame.refl shell) last value
  have herrors : ∀ dispatch ∈ (runAll shell last value trees).dispatches,
      dispatch.outcome.transcript.errors false =
        String.join (dispatch.reports.map shell.diagnosticLine) := by
    intro dispatch hmem
    have hframe := haccounted.dispatched dispatch hmem
    have hlines : dispatch.state.diagnosticLine = shell.diagnosticLine :=
      funext fun diagnostic => hframe.diagnosticLine diagnostic
    rw [(dispatch.reported (hframe.builtins.trans h)).errors, hlines]
    rfl
  refine ⟨herrors, ?_⟩
  rw [haccounted.transcript]
  exact Transcript.errors_flatMap herrors

open AndOr (runAll trees)

/-- **Every failure is reported once, at the line on which it happens.** Of a
line that is rejected there is one diagnostic. Of any other line there are the
diagnostics of the commands that it dispatches, in order: one of each that
fails inside the shell, one for each name that an alias is looked up for and
that has none at its turn, and no others. All of them carry the number of the
line, which counts every line of the session. A command that something is
reported of has a status other than zero; and where a command has such a
status and nothing is reported of it, a program really started. -/
theorem reported_once {count : Nat} {shell : Shell} (h : Session count shell) (line : String) :
    let numbered : Shell := { shell with lineNumber := count + 1 }
    let outcome := shell.executeLine line
    (∀ diagnostic, ∃ text, numbered.diagnosticLine diagnostic =
        shell.programName ++ ": " ++ toString (count + 1) ++ ": " ++ text ++ "\n") ∧
      (∀ error, Command.ofLine line = .error error →
        outcome.transcript.errors false =
          numbered.diagnosticLine ⟨error.fault.reason, 2, none⟩) ∧
      ∀ commands, Command.ofLine line = .ok commands →
        let dispatches :=
          (runAll numbered shell.lastStatus shell.lastStatus (trees commands)).dispatches
        outcome.transcript.dispatched = dispatches.map Dispatch.prepared ∧
          outcome.transcript.errors false =
            String.join ((dispatches.flatMap Dispatch.reports).map numbered.diagnosticLine) ∧
          ∀ dispatch ∈ dispatches,
            dispatch.outcome.transcript.errors false =
                String.join (dispatch.reports.map numbered.diagnosticLine) ∧
              (dispatch.reports ≠ [] →
                ∃ status, dispatch.outcome.ending = .returned status ∧ status ≠ 0) ∧
              ∀ status, dispatch.outcome.ending = .returned status → status ≠ 0 →
                dispatch.reports = [] → dispatch.state.Ran dispatch.prepared status := by
  intro numbered outcome
  have hnumbered : numbered = { shell with lineNumber := shell.lineNumber + 1 } := by
    rw [h.lineNumber]
  refine ⟨numbered.exists_diagnosticLine, fun error herror => ?_, fun commands hread => ?_⟩
  · rw [hnumbered]
    simp only [outcome, Shell.executeLine_rejected shell herror]
    simp [Event.errorText]
  · intro dispatches
    have hlisted : Command.Listed commands := (Command.ofTokens_eq_ok_iff.mp hread).1
    have houtcome : outcome =
        (runAll numbered shell.lastStatus shell.lastStatus (trees commands)).outcome := by
      have htrees := AndOr.outcome_runAll_trees hlisted numbered
      rw [hnumbered] at htrees ⊢
      simp only [outcome, Shell.executeLine, hread]
      exact htrees.symm
    have hsound : AndOr.Sound
        (runAll numbered shell.lastStatus shell.lastStatus (trees commands)) :=
      AndOr.sound_runAll (trees commands) rfl
    have haccounted := AndOr.accounted_runAll (trees commands) (Shell.Frame.refl numbered)
      shell.lastStatus shell.lastStatus
    have hstandard : numbered.builtins = Builtin.standard := h.builtins
    obtain ⟨herrors, hall⟩ := AndOr.errors_runAll hstandard (trees commands) shell.lastStatus
      shell.lastStatus
    refine ⟨houtcome ▸ hsound.dispatched, houtcome ▸ hall, fun dispatch hmem => ?_⟩
    have hframe := haccounted.dispatched dispatch hmem
    obtain ⟨-, hfailed, hran⟩ := dispatch.reported (hframe.builtins.trans hstandard)
    exact ⟨herrors dispatch hmem, hfailed, hran⟩

/-- Two unknown names around a definition, a directory that is not there, a
program that is not there, and an operand that is no number, on the second
line of a session; and a line that is rejected. -/
theorem reported_once_second_line :
    let start : Shell :=
      { programName := "minish", processId := 1, environment := .ofPairs [], world := {},
        builtins := Builtin.standard }
    let shell := (start.executeLine "").shell
    Session 1 shell ∧
      (shell.executeLine "alias c a=b a d ; cd /x || nosuch && env ; exit x").transcript.errors
          false =
        "minish: 2: alias: c not found\nminish: 2: alias: d not found\n" ++
          "minish: 2: cd: can't cd to /x\nminish: 2: nosuch: not found\n" ++
          "minish: 2: exit: Illegal number: x\n" ∧
      (shell.executeLine "cd /x && ; env").transcript.errors false =
        "minish: 2: Syntax error: \";\" unexpected\n" := by
  intro start shell
  have hsession : Session 1 shell := (Session.start "minish" 1 [] {}).line ""
  have hread : Command.ofLine "alias c a=b a d ; cd /x || nosuch && env ; exit x" =
      .ok [⟨none, ["alias", "c", "a=b", "a", "d"]⟩, ⟨some .semicolon, ["cd", "/x"]⟩,
        ⟨some .or, ["nosuch"]⟩, ⟨some .and, ["env"]⟩, ⟨some .semicolon, ["exit", "x"]⟩] := by
    decide +kernel
  have herror : Command.ofLine "cd /x && ; env" = .error (.unexpected .semicolon) := by
    decide +kernel
  obtain ⟨-, -, hreported⟩ := reported_once hsession
    "alias c a=b a d ; cd /x || nosuch && env ; exit x"
  obtain ⟨-, herrors, -⟩ := hreported _ hread
  obtain ⟨-, hrejected, -⟩ := reported_once hsession "cd /x && ; env"
  refine ⟨hsession, ?_, ?_⟩
  · rw [herrors]
    decide +kernel
  · rw [hrejected _ herror]
    decide +kernel

end CommandShell
