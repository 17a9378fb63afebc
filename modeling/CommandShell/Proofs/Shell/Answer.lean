/-
CommandShell.Proofs.Shell.Answer — what becomes of a builtin's answer.

A builtin answers with a new state and a reply. The state is the one after the
command, but for its last status (`shell_runCommand`, `shell_runBuiltin`), and
the reply alone decides how the command ends and what it shows
(`ending_runBuiltin`, `output_runBuiltin`).
-/
import CommandShell.Proofs.Builtin.Standard
import CommandShell.Proofs.Shell.Dispatch

namespace CommandShell

namespace Reply

/-- How a command ends that is answered so. -/
def ending : Reply → Ending
  | .done result => .returned result.status
  | .failed fault => .returned fault.status
  | .crashed _ => .returned 1
  | .leave status => .left status

/-- What a command shows that is answered so. -/
def output : Reply → String
  | .done result => result.output
  | _ => ""

end Reply

namespace Transcript

theorem output_cons (event : Event) (rest : Transcript) :
    output (event :: rest) = event.outputText ++ rest.output := by
  simp [output, String.join_cons]

theorem output_append (before after : Transcript) :
    Transcript.output (before ++ after) = before.output ++ after.output := by
  simp [output, String.join_append]

end Transcript

namespace Shell

variable {shell : Shell} {entry : Registry.Entry Action} {name : String} {operands : List String}

theorem shell_runBuiltin (shell : Shell) (entry : Registry.Entry Action) (name : String)
    (operands : List String) :
    (shell.runBuiltin entry name operands).shell =
      (entry.handler.perform shell name operands).1 := by
  unfold runBuiltin
  dsimp only
  split <;> rfl

theorem ending_runBuiltin (shell : Shell) (entry : Registry.Entry Action) (name : String)
    (operands : List String) :
    (shell.runBuiltin entry name operands).ending =
      (entry.handler.perform shell name operands).2.ending := by
  unfold runBuiltin
  dsimp only
  split <;> simp_all [report, Reply.ending, Diagnostic.ofFault, Diagnostic.unforeseen]

theorem output_runBuiltin (shell : Shell) (entry : Registry.Entry Action) (name : String)
    (operands : List String) :
    (shell.runBuiltin entry name operands).transcript.output =
      (entry.handler.perform shell name operands).2.output := by
  unfold runBuiltin
  dsimp only
  split
  · next result hreply =>
    unfold resultEvents
    split <;> split <;>
      simp_all [Reply.output, Transcript.output, Event.outputText, String.join_cons]
  · simp_all [report, Reply.output, Transcript.output, Event.outputText]
  · simp_all [report, Reply.output, Transcript.output, Event.outputText]
  · simp_all [Reply.output, Transcript.output]

/-- A command leaves the state that it comes to once its words are prepared,
and sets the last status if it returns one. -/
theorem shell_runCommand (shell : Shell) (words : List String) :
    let prepared := shell.runPrepared (shell.prepare words)
    (shell.runCommand words).shell =
      match prepared.ending with
      | .returned status => { prepared.shell with lastStatus := status }
      | .left _ | .broken _ => prepared.shell := by
  unfold runCommand
  dsimp only
  generalize shell.runPrepared (shell.prepare words) = outcome
  obtain ⟨after, transcript, ending⟩ := outcome
  cases ending <;> rfl

/-- But for the last status. -/
theorem exists_shell_runCommand (shell : Shell) (words : List String) :
    ∃ status, (shell.runCommand words).shell =
      { (shell.runPrepared (shell.prepare words)).shell with lastStatus := status } := by
  rw [shell_runCommand]
  dsimp only
  split
  · exact ⟨_, rfl⟩
  · exact ⟨_, rfl⟩
  · exact ⟨_, rfl⟩

theorem output_runCommand (shell : Shell) (words : List String) :
    (shell.runCommand words).transcript.output =
      (shell.runPrepared (shell.prepare words)).transcript.output := by
  rw [transcript_runCommand, Transcript.output_cons]
  simp [Event.outputText]

/-- The outcome is that of a command with this answer. -/
structure Answered (outcome : Outcome) (answer : Shell × Reply) : Prop where
  shell : ∃ status, outcome.shell = { answer.1 with lastStatus := status }
  ending : outcome.ending = answer.2.ending
  output : outcome.transcript.output = answer.2.output

/-- A command that is prepared to name a builtin is run by it. -/
theorem runPrepared_builtin (hlookup : shell.builtins.lookup name = some entry)
    (operands : List String) :
    shell.runPrepared (name :: operands) =
      (shell.runBuiltin entry name operands).after
        [.log .dispatcher ("builtin " ++ entry.name ++ " " ++ Text.quotedList operands)] := by
  simp [runPrepared, hlookup]

/-- A command that names a builtin is answered by it. -/
theorem answered_runCommand {words : List String} (hlookup : shell.builtins.lookup name = some entry)
    (hprepared : shell.prepare words = name :: operands) :
    Answered (shell.runCommand words) (entry.handler.perform shell name operands) := by
  have hrun := runPrepared_builtin hlookup operands
  rw [← hprepared] at hrun
  refine ⟨?_, ?_, ?_⟩
  · obtain ⟨status, hshell⟩ := exists_shell_runCommand shell words
    rw [hrun, Outcome.after_shell, shell_runBuiltin] at hshell
    exact ⟨status, hshell⟩
  · rw [ending_runCommand, hrun, Outcome.after_ending, ending_runBuiltin]
  · rw [output_runCommand, hrun, Outcome.after_transcript, List.singleton_append,
      Transcript.output_cons, output_runBuiltin]
    simp [Event.outputText]

/-- **A command that names a standard builtin is answered by it.** -/
theorem answered_standard (h : shell.builtins = Builtin.standard) {action : Action}
    (hstandard : Builtin.IsStandard name action) {words : List String}
    (hprepared : shell.prepare words = name :: operands) :
    Answered (shell.runCommand words) (action.perform shell name operands) := by
  obtain ⟨entry, hlookup, rfl⟩ := hstandard.exists_lookup
  exact answered_runCommand (h ▸ hlookup) hprepared

end Shell

end CommandShell
