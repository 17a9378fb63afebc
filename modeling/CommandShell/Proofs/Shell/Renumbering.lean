/-
CommandShell.Proofs.Shell.Renumbering — the line number is for reports only.

Two runs that differ in nothing but the line number they begin with do the
same, but for the number that their reports show. §1 says what this means of
events and outcomes (`Event.Renumbered`, `Outcome.Renumbered`) and that it
passes through one outcome after another. §2 shows it of every builtin: only
the one for aliases looks at the line number itself, for the look-ups that find
none. §3 goes on to commands and to lists of them (`renumbered_runCommands`).
-/
import CommandShell.Proofs.Builtin.Standard
import CommandShell.Proofs.Shell.Frame
import Mathlib.Data.List.Forall2

namespace CommandShell

/-! ## §1 Two runs -/

/-- The lines that report failures at a line number. -/
def Diagnostic.lines (program : String) (number : Nat) (diagnostics : List Diagnostic) : String :=
  String.join (diagnostics.map fun diagnostic => diagnostic.render program number ++ "\n")

/-- The events of two runs are the same, or they report the same failures,
each at the line number of its run. -/
inductive Event.Renumbered (program : String) (number other : Nat) : Event → Event → Prop
  | same (event : Event) : Renumbered program number other event event
  | reported (diagnostics : List Diagnostic) :
      Renumbered program number other (.errors (Diagnostic.lines program number diagnostics))
        (.errors (Diagnostic.lines program other diagnostics))

/-- The shell at another line. -/
def Shell.atLine (shell : Shell) (number : Nat) : Shell :=
  { shell with lineNumber := number }

@[simp] theorem Shell.atLine_environment (shell : Shell) (number : Nat) :
    (shell.atLine number).environment = shell.environment := rfl

@[simp] theorem Shell.atLine_world (shell : Shell) (number : Nat) :
    (shell.atLine number).world = shell.world := rfl

/-- The outcomes of two runs at two line numbers are the same, but for the
number itself and the reports that show it. -/
structure Outcome.Renumbered (program : String) (number other : Nat) (here there : Outcome) :
    Prop where
  programName : here.shell.programName = program
  lineNumber : here.shell.lineNumber = number
  shell : there.shell = here.shell.atLine other
  transcript : List.Forall₂ (Event.Renumbered program number other) here.transcript
    there.transcript
  ending : there.ending = here.ending

theorem Transcript.renumbered_self (program : String) (number other : Nat)
    (transcript : Transcript) :
    List.Forall₂ (Event.Renumbered program number other) transcript transcript :=
  List.forall₂_same.mpr fun event _ => .same event

namespace Outcome.Renumbered

variable {program : String} {number other : Nat} {here there : Outcome}

/-- Nothing that is seen shows the line number. -/
theorem quiet (shell : Shell) (hprogram : shell.programName = program)
    (hnumber : shell.lineNumber = number) (transcript : Transcript) (ending : Ending) :
    Outcome.Renumbered program number other ⟨shell, transcript, ending⟩
      ⟨shell.atLine other, transcript, ending⟩ :=
  ⟨hprogram, hnumber, rfl, Transcript.renumbered_self _ _ _ _, rfl⟩

theorem report (shell : Shell) (hprogram : shell.programName = program)
    (hnumber : shell.lineNumber = number) (diagnostic : Diagnostic) :
    Outcome.Renumbered program number other (shell.report diagnostic)
      ((shell.atLine other).report diagnostic) := by
  subst hprogram hnumber
  refine ⟨rfl, rfl, rfl, .cons ?_ .nil, rfl⟩
  have h := @Event.Renumbered.reported shell.programName shell.lineNumber other [diagnostic]
  simpa [Diagnostic.lines, Shell.diagnosticLine, Shell.atLine] using h

theorem after (h : Outcome.Renumbered program number other here there) (events : Transcript) :
    Outcome.Renumbered program number other (here.after events) (there.after events) where
  programName := h.programName
  lineNumber := h.lineNumber
  shell := h.shell
  transcript := List.rel_append (Transcript.renumbered_self _ _ _ events) h.transcript
  ending := h.ending

/-- Going on from two such outcomes gives two such outcomes if the next step
does not look at the line number. -/
theorem andThen (h : Outcome.Renumbered program number other here there)
    {next : Shell → Int → Outcome}
    (hnext : ∀ shell status, shell.programName = program → shell.lineNumber = number →
      Outcome.Renumbered program number other (next shell status)
        (next (shell.atLine other) status)) :
    Outcome.Renumbered program number other (here.andThen next) (there.andThen next) := by
  by_cases hreturned : ∃ status, here.ending = .returned status
  · obtain ⟨status, hhere⟩ := hreturned
    have hthere : there.ending = .returned status := h.ending.trans hhere
    have hafter := hnext here.shell status h.programName h.lineNumber
    rw [Outcome.andThen_of_returned next hhere, Outcome.andThen_of_returned next hthere, h.shell]
    exact { hafter with transcript := List.rel_append h.transcript hafter.transcript }
  · have hhere : ∀ status, here.ending ≠ .returned status := by simpa using hreturned
    have hthere : ∀ status, there.ending ≠ .returned status := fun status => by
      rw [h.ending]
      exact hhere status
    rwa [Outcome.andThen_of_not_returned next hhere, Outcome.andThen_of_not_returned next hthere]

end Outcome.Renumbered

/-! ## §2 Builtins -/

theorem Shell.edit_atLine (shell : Shell) (number : Nat) (edit : Edit) :
    (shell.atLine number).edit edit = (shell.edit edit).atLine number := by
  cases edit with
  | setVariable name value =>
    dsimp only [Shell.edit, Shell.atLine]
    split <;> rfl
  | unsetVariable name =>
    dsimp only [Shell.edit, Shell.atLine]
    split <;> rfl
  | changeDirectory path =>
    dsimp only [Shell.edit, Shell.atLine]
    split <;> rfl
  | _ => rfl

theorem Shell.editAll_atLine (shell : Shell) (number : Nat) (edits : List Edit) :
    (shell.atLine number).editAll edits = (shell.editAll edits).atLine number := by
  induction edits generalizing shell with
  | nil => rfl
  | cons edit rest ih =>
    unfold Shell.editAll at ih ⊢
    rw [List.foldl_cons, Shell.edit_atLine, ih, List.foldl_cons]

namespace Builtin

theorem setenv_atLine (shell : Shell) (number : Nat) (operands : List String) :
    setenv (shell.atLine number) operands =
      ((setenv shell operands).1.atLine number, (setenv shell operands).2) := by
  unfold setenv
  split
  · dsimp only [Shell.atLine]
    split <;> rfl
  · rfl

theorem unsetenv_atLine (shell : Shell) (number : Nat) (operands : List String) :
    unsetenv (shell.atLine number) operands =
      ((unsetenv shell operands).1.atLine number, (unsetenv shell operands).2) := by
  unfold unsetenv
  split
  · dsimp only [Shell.atLine]
    split <;> rfl
  · rfl

theorem recordChange_atLine (shell : Shell) (number : Nat) (previous new : String) :
    recordChange (shell.atLine number) previous new =
      ((recordChange shell previous new).1.atLine number, (recordChange shell previous new).2) := by
  unfold recordChange
  dsimp only [Shell.atLine]
  split
  · rfl
  · split <;> rfl

theorem cd_atLine (shell : Shell) (number : Nat) (operands : List String) :
    cd (shell.atLine number) operands =
      ((cd shell operands).1.atLine number, (cd shell operands).2) := by
  have hpath : presentPath (shell.atLine number) = presentPath shell := rfl
  unfold cd
  simp only [hpath, Shell.atLine_environment, Shell.atLine_world]
  split
  · rfl
  · split
    · rfl
    · rename_i destination _ _ world _
      split
      · rfl
      · rename_i new _
        have hrecord := recordChange_atLine { shell with world } number (presentPath shell) new
        dsimp only [Shell.atLine] at hrecord ⊢
        simp only [hrecord]
        split <;> rfl

theorem perform_atLine {action : Action} (h : action ≠ .aliases) (shell : Shell) (number : Nat)
    (name : String) (operands : List String) :
    action.perform (shell.atLine number) name operands =
      ((action.perform shell name operands).1.atLine number,
        (action.perform shell name operands).2) := by
  cases action with
  | exit => rfl
  | env => rfl
  | setenv => exact setenv_atLine shell number operands
  | unsetenv => exact unsetenv_atLine shell number operands
  | cd => exact cd_atLine shell number operands
  | aliases => exact absurd rfl h
  | help => rfl
  | foreign act => exact Prod.ext (Shell.editAll_atLine shell number _) rfl

end Builtin

namespace Shell

/-- The texts of a result whose errors are reports. -/
theorem renumbered_resultEvents (program : String) (number other : Nat) (output : String)
    (diagnostics : List Diagnostic) (status : Int) :
    List.Forall₂ (Event.Renumbered program number other)
      (resultEvents { output, errors := Diagnostic.lines program number diagnostics, status })
      (resultEvents { output, errors := Diagnostic.lines program other diagnostics, status }) := by
  cases diagnostics with
  | nil => exact Transcript.renumbered_self _ _ _ _
  | cons diagnostic rest =>
    -- Both texts are written: a report is never empty, whatever its number.
    have hne : ∀ line, Diagnostic.lines program line (diagnostic :: rest) ≠ "" := by
      simp [Diagnostic.lines, String.join_cons]
    unfold resultEvents
    rw [if_neg (hne number), if_neg (hne other)]
    exact List.rel_append (Transcript.renumbered_self _ _ _ _) (.cons (.reported _) .nil)

/-- The look-ups of aliases that find none are reported at the line number. -/
theorem renumbered_aliases (shell : Shell) (number : Nat) {entry : Registry.Entry Action}
    (h : entry.handler = .aliases) (name : String) (operands : List String) :
    Outcome.Renumbered shell.programName shell.lineNumber number
      (shell.runBuiltin entry name operands)
      ((shell.atLine number).runBuiltin entry name operands) := by
  have herrors : ∀ shell : Shell,
      String.join ((shell.aliases.unknown (AliasOperand.ofWords operands)).map fun name =>
        shell.diagnosticLine (.noAlias name)) =
      Diagnostic.lines shell.programName shell.lineNumber
        ((shell.aliases.unknown (AliasOperand.ofWords operands)).map .noAlias) := by
    simp [Diagnostic.lines, diagnosticLine, Function.comp_def]
  unfold runBuiltin
  simp only [Builtin.perform_aliases h, herrors]
  exact ⟨rfl, rfl, rfl, renumbered_resultEvents _ _ _ _ _ _, rfl⟩

theorem renumbered_runBuiltin (shell : Shell) (number : Nat) (entry : Registry.Entry Action)
    (name : String) (operands : List String) :
    Outcome.Renumbered shell.programName shell.lineNumber number
      (shell.runBuiltin entry name operands)
      ((shell.atLine number).runBuiltin entry name operands) := by
  by_cases haliases : entry.handler = .aliases
  · exact renumbered_aliases shell number haliases name operands
  · have hthere := Builtin.perform_atLine haliases shell number name operands
    have hframe := frame_perform entry.handler shell name operands
    rcases hhere : entry.handler.perform shell name operands with ⟨after, reply⟩
    rw [hhere] at hthere hframe
    have hprogram := hframe.programName
    have hnumber := hframe.lineNumber
    cases reply with
    | done result =>
      simp only [runBuiltin, hhere, hthere]
      exact .quiet after hprogram hnumber _ _
    | failed fault =>
      simp only [runBuiltin, hhere, hthere]
      exact .report after hprogram hnumber _
    | crashed message =>
      simp only [runBuiltin, hhere, hthere]
      exact (Outcome.Renumbered.report after hprogram hnumber _).after _
    | leave status =>
      simp only [runBuiltin, hhere, hthere]
      exact .quiet after hprogram hnumber _ _

/-! ## §3 Commands -/

theorem renumbered_concludeChild (shell : Shell) (number : Nat) (command : String)
    (ending : ChildEnding) :
    Outcome.Renumbered shell.programName shell.lineNumber number
      (shell.concludeChild command ending)
      ((shell.atLine number).concludeChild command ending) := by
  cases ending with
  | exited code => exact .quiet _ rfl rfl _ _
  | signalled signal => exact .quiet _ rfl rfl _ _
  | execFailed reason errno =>
    unfold concludeChild
    dsimp only
    split <;> exact .report _ rfl rfl _
  | spawnFailed reason errno => exact .report _ rfl rfl _

theorem renumbered_runExternal (shell : Shell) (number : Nat) (command : String)
    (operands : List String) :
    Outcome.Renumbered shell.programName shell.lineNumber number
      (shell.runExternal command operands)
      ((shell.atLine number).runExternal command operands) := by
  unfold runExternal
  dsimp only [atLine]
  generalize shell.searchPath.resolve shell.environment shell.world command = resolution
  split
  · exact (Outcome.Renumbered.report { shell with searchPath := resolution.searchPath }
      rfl rfl _).after _
  · exact (renumbered_concludeChild { shell with searchPath := resolution.searchPath }
      number _ _).after _

theorem renumbered_runPrepared (shell : Shell) (number : Nat) (words : List String) :
    Outcome.Renumbered shell.programName shell.lineNumber number (shell.runPrepared words)
      ((shell.atLine number).runPrepared words) := by
  cases words with
  | nil => exact .quiet _ rfl rfl _ _
  | cons command operands =>
    unfold runPrepared
    dsimp only [atLine]
    split
    · exact (renumbered_runBuiltin shell number _ _ _).after _
    · exact renumbered_runExternal shell number _ _

theorem renumbered_runCommand (shell : Shell) (number : Nat) (words : List String) :
    Outcome.Renumbered shell.programName shell.lineNumber number (shell.runCommand words)
      ((shell.atLine number).runCommand words) := by
  have hprepared := (renumbered_runPrepared shell number (shell.prepare words)).after
    [.dispatch (shell.prepare words)]
  unfold runCommand
  refine hprepared.andThen fun after status hprogram hnumber => ?_
  exact .quiet { after with lastStatus := status } hprogram hnumber _ _

/-- **Lists of commands run alike at any line.** -/
theorem renumbered_runCommands (number : Nat) (commands : List Command) (shell : Shell)
    (status : Int) :
    Outcome.Renumbered shell.programName shell.lineNumber number
      (shell.runCommands status commands) ((shell.atLine number).runCommands status commands) := by
  induction commands generalizing shell status with
  | nil => exact .quiet _ rfl rfl _ _
  | cons command rest ih =>
    rw [runCommands, runCommands]
    split
    · exact ih shell status
    · refine (renumbered_runCommand shell number command.words).andThen ?_
      intro after status hprogram hnumber
      rw [← hprogram, ← hnumber]
      exact ih after status

end Shell

end CommandShell
