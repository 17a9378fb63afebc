/-
CommandShell.Proofs.Shell.Frame — what the commands of a line leave alone.

The name of the program, its process id, the builtins, the line number and
the file tree stay as they are through any command (`Frame`). §1 shows it of
every builtin and §2 of every command, by the cases of its dispatch. §3 goes
on to a line: it counts once, whatever is on it (`lineNumber_executeLine`);
it returns or leaves the shell (`regular_executeLine`); it says nothing to a user
at a prompt (`ofConversation_executeLine`); and the newline at its end is not
seen (`executeLine_chomp`).
-/
import CommandShell.Proofs.Shell.Dispatch
import CommandShell.Proofs.Syntax.Pieces
import CommandShell.Proofs.Text.Lines
import CommandShell.Shell.Line

namespace CommandShell

namespace Shell

/-- The two states agree on all that no command changes. -/
structure Frame (before after : Shell) : Prop where
  programName : after.programName = before.programName
  processId : after.processId = before.processId
  builtins : after.builtins = before.builtins
  lineNumber : after.lineNumber = before.lineNumber
  root : after.world.root = before.world.root

theorem Frame.refl (shell : Shell) : Frame shell shell := ⟨rfl, rfl, rfl, rfl, rfl⟩

theorem Frame.trans {first second third : Shell} (h : Frame first second)
    (h' : Frame second third) : Frame first third where
  programName := h'.programName.trans h.programName
  processId := h'.processId.trans h.processId
  builtins := h'.builtins.trans h.builtins
  lineNumber := h'.lineNumber.trans h.lineNumber
  root := h'.root.trans h.root

/-! ## §1 Builtins -/

theorem root_changeDirectory {world after : World} {path : String}
    (h : world.changeDirectory path = .ok after) : after.root = world.root := by
  unfold World.changeDirectory at h
  split at h
  · cases h
  · split at h
    · cases h
      rfl
    · cases h
    · cases h

theorem frame_setenv (shell : Shell) (operands : List String) :
    Frame shell (Builtin.setenv shell operands).1 := by
  unfold Builtin.setenv
  split
  · split
    · exact ⟨rfl, rfl, rfl, rfl, rfl⟩
    · exact Frame.refl shell
  · exact Frame.refl shell

theorem frame_unsetenv (shell : Shell) (operands : List String) :
    Frame shell (Builtin.unsetenv shell operands).1 := by
  unfold Builtin.unsetenv
  split
  · split
    · exact ⟨rfl, rfl, rfl, rfl, rfl⟩
    · exact Frame.refl shell
  · exact Frame.refl shell

theorem frame_recordChange (shell : Shell) (previous new : String) :
    Frame shell (Builtin.recordChange shell previous new).1 := by
  unfold Builtin.recordChange
  split
  · exact Frame.refl shell
  · dsimp only
    split
    · exact ⟨rfl, rfl, rfl, rfl, rfl⟩
    · exact ⟨rfl, rfl, rfl, rfl, rfl⟩

theorem frame_cd (shell : Shell) (operands : List String) :
    Frame shell (Builtin.cd shell operands).1 := by
  unfold Builtin.cd
  split
  · exact Frame.refl shell
  · rename_i destination _
    dsimp only
    split
    · exact Frame.refl shell
    · rename_i world hworld
      have hmoved : Frame shell { shell with world } :=
        ⟨rfl, rfl, rfl, rfl, root_changeDirectory hworld⟩
      split
      · exact hmoved
      · rename_i new _
        have hrecorded := frame_recordChange { shell with world } (Builtin.presentPath shell) new
        split
        · exact hmoved.trans hrecorded
        · exact hmoved.trans hrecorded

theorem frame_aliases (shell : Shell) (operands : List String) :
    Frame shell (Builtin.aliases shell operands).1 := by
  unfold Builtin.aliases
  split
  · exact Frame.refl shell
  · exact ⟨rfl, rfl, rfl, rfl, rfl⟩

theorem frame_edit (shell : Shell) (edit : Edit) : Frame shell (shell.edit edit) := by
  unfold Shell.edit
  split
  · split
    · exact ⟨rfl, rfl, rfl, rfl, rfl⟩
    · exact Frame.refl shell
  · split
    · exact ⟨rfl, rfl, rfl, rfl, rfl⟩
    · exact Frame.refl shell
  · exact ⟨rfl, rfl, rfl, rfl, rfl⟩
  · exact ⟨rfl, rfl, rfl, rfl, rfl⟩
  · exact ⟨rfl, rfl, rfl, rfl, rfl⟩
  · split
    · next world hworld => exact ⟨rfl, rfl, rfl, rfl, root_changeDirectory hworld⟩
    · exact Frame.refl shell

theorem frame_editAll (shell : Shell) (edits : List Edit) : Frame shell (shell.editAll edits) := by
  induction edits generalizing shell with
  | nil => exact Frame.refl shell
  | cons edit rest ih => exact (frame_edit shell edit).trans (ih (shell.edit edit))

theorem frame_perform (action : Action) (shell : Shell) (name : String)
    (operands : List String) : Frame shell (action.perform shell name operands).1 := by
  cases action with
  | exit => exact Frame.refl shell
  | env => exact Frame.refl shell
  | setenv => exact frame_setenv shell operands
  | unsetenv => exact frame_unsetenv shell operands
  | cd => exact frame_cd shell operands
  | aliases => exact frame_aliases shell operands
  | help => exact Frame.refl shell
  | foreign act => exact frame_editAll shell (act shell.view (name :: operands)).1

/-! ## §2 Commands -/

theorem frame_runBuiltin (shell : Shell) (entry : Registry.Entry Action) (name : String)
    (operands : List String) : Frame shell (shell.runBuiltin entry name operands).shell := by
  have h := frame_perform entry.handler shell name operands
  unfold runBuiltin
  dsimp only
  split <;> exact h

theorem shell_concludeChild (shell : Shell) (command : String) (ending : ChildEnding) :
    (shell.concludeChild command ending).shell = shell := by
  unfold concludeChild
  split
  · rfl
  · rfl
  · split <;> rfl
  · rfl

theorem frame_runExternal (shell : Shell) (command : String) (operands : List String) :
    Frame shell (shell.runExternal command operands).shell := by
  unfold runExternal
  dsimp only
  split
  · exact ⟨rfl, rfl, rfl, rfl, rfl⟩
  · rw [Outcome.after_shell, shell_concludeChild]
    exact ⟨rfl, rfl, rfl, rfl, rfl⟩

theorem frame_runPrepared (shell : Shell) (words : List String) :
    Frame shell (shell.runPrepared words).shell := by
  unfold runPrepared
  split
  · exact Frame.refl shell
  · split
    · exact frame_runBuiltin shell _ _ _
    · exact frame_runExternal shell _ _

/-- Going on from an outcome keeps the frame if the next step does. -/
theorem Frame.andThen {shell : Shell} {outcome : Outcome} {next : Shell → Int → Outcome}
    (h : Frame shell outcome.shell)
    (hnext : ∀ shell status, Frame shell (next shell status).shell) :
    Frame shell (outcome.andThen next).shell := by
  obtain ⟨after, transcript, ending⟩ := outcome
  cases ending with
  | returned status => exact h.trans (hnext after status)
  | left status => exact h
  | broken breakdown => exact h

theorem frame_runCommand (shell : Shell) (words : List String) :
    Frame shell (shell.runCommand words).shell := by
  unfold runCommand
  refine Frame.andThen ?_ fun _ _ => ⟨rfl, rfl, rfl, rfl, rfl⟩
  exact frame_runPrepared shell (shell.prepare words)

/-- What holds of an end without commands, and of one command more before
whatever it holds of, holds of all lists of commands. -/
theorem runCommands_induction {motive : Shell → Outcome → Prop}
    (nil : ∀ shell status, motive shell ⟨shell, [], .returned status⟩)
    (cons : ∀ (shell : Shell) words next, (∀ shell status, motive shell (next shell status)) →
      motive shell ((shell.runCommand words).andThen next))
    (shell : Shell) (status : Int) (commands : List Command) :
    motive shell (shell.runCommands status commands) := by
  induction commands generalizing shell status with
  | nil => exact nil shell status
  | cons command rest ih =>
    rw [runCommands]
    split
    · exact ih shell status
    · exact cons shell command.words _ ih

theorem frame_runCommands (shell : Shell) (status : Int) (commands : List Command) :
    Frame shell (shell.runCommands status commands).shell := by
  refine runCommands_induction (motive := fun shell outcome => Frame shell outcome.shell)
    (fun shell _ => Frame.refl shell) ?_ shell status commands
  intro shell words next hnext
  exact (frame_runCommand shell words).andThen hnext

/-! ## §3 Lines -/

/-- The commands of a line are run at the next line number, from the last
status on. -/
theorem executeLine_of_ok {line : String} {commands : List Command}
    (h : Command.ofLine line = .ok commands) (shell : Shell) :
    shell.executeLine line =
      { shell with lineNumber := shell.lineNumber + 1 }.runCommands shell.lastStatus commands := by
  unfold executeLine
  rw [h]

/-- A line is counted, and keeps to the frame otherwise. -/
theorem frame_executeLine (shell : Shell) (line : String) :
    Frame { shell with lineNumber := shell.lineNumber + 1 } (shell.executeLine line).shell := by
  unfold executeLine
  dsimp only
  split
  · exact ⟨rfl, rfl, rfl, rfl, rfl⟩
  · exact frame_runCommands _ _ _

/-- **Every line counts once**, whatever is on it. -/
theorem lineNumber_executeLine (shell : Shell) (line : String) :
    (shell.executeLine line).shell.lineNumber = shell.lineNumber + 1 :=
  (frame_executeLine shell line).lineNumber

theorem regular_runCommands (shell : Shell) (status : Int) (commands : List Command) :
    (shell.runCommands status commands).Regular := by
  refine runCommands_induction (motive := fun _ outcome => outcome.Regular)
    (fun _ status => .inl ⟨status, rfl⟩) ?_ shell status commands
  intro shell words next hnext
  exact (regular_runCommand shell words).andThen hnext

/-- A line returns a status or leaves the shell. -/
theorem regular_executeLine (shell : Shell) (line : String) :
    (shell.executeLine line).Regular := by
  unfold executeLine
  dsimp only
  split
  · exact .inl ⟨_, rfl⟩
  · exact regular_runCommands _ _ _

end Shell

/-- The events of the conversation in which lines are asked for and read. -/
def Event.isConversation : Event → Bool
  | .prompt _ | .read => true
  | .output _ | .errors _ | .log _ _ | .spawn _ | .dispatch _ => false

namespace Transcript

/-- The events of that conversation. -/
def ofConversation (transcript : Transcript) : Transcript :=
  transcript.filter Event.isConversation

theorem ofConversation_append (before after : Transcript) :
    ofConversation (before ++ after) = before.ofConversation ++ after.ofConversation :=
  List.filter_append ..

theorem Effects.ofConversation {transcript : Transcript} (h : transcript.Effects) :
    transcript.ofConversation = [] := by
  refine List.filter_eq_nil_iff.mpr fun event hevent => ?_
  have := h event hevent
  cases event with
  | prompt text => cases this
  | read => cases this
  | _ => simp [Event.isConversation]

end Transcript

namespace Shell

theorem ofConversation_runCommand (shell : Shell) (words : List String) :
    (shell.runCommand words).transcript.ofConversation = [] := by
  rw [transcript_runCommand]
  exact (effects_runPrepared shell (shell.prepare words)).ofConversation

theorem ofConversation_andThen {outcome : Outcome} {next : Shell → Int → Outcome}
    (h : outcome.transcript.ofConversation = [])
    (hnext : ∀ shell status, (next shell status).transcript.ofConversation = []) :
    (outcome.andThen next).transcript.ofConversation = [] := by
  obtain ⟨after, transcript, ending⟩ := outcome
  cases ending with
  | returned status =>
    rw [Outcome.andThen_returned, Outcome.after_transcript, Transcript.ofConversation_append]
    rw [hnext after status, List.append_nil]
    exact h
  | left status => exact h
  | broken breakdown => exact h

theorem ofConversation_runCommands (shell : Shell) (status : Int) (commands : List Command) :
    (shell.runCommands status commands).transcript.ofConversation = [] := by
  refine runCommands_induction (motive := fun _ outcome => outcome.transcript.ofConversation = [])
    (fun _ _ => rfl) ?_ shell status commands
  intro shell words next hnext
  exact ofConversation_andThen (ofConversation_runCommand shell words) hnext

/-- A line that is run says nothing to a user at a prompt and reads nothing. -/
theorem ofConversation_executeLine (shell : Shell) (line : String) :
    (shell.executeLine line).transcript.ofConversation = [] := by
  unfold executeLine
  dsimp only
  split
  · rfl
  · exact ofConversation_runCommands _ _ _

/-- **A line runs alike with and without the newline at its end.** -/
theorem executeLine_chomp (shell : Shell) (line : String) :
    shell.executeLine (Text.chomp line) = shell.executeLine line := by
  have htokens : Token.ofLine (Text.chomp line) = Token.ofLine line := by
    rw [← String.ofList_toList (s := line), Text.chomp_ofList]
    generalize line.toList = chars
    rcases Text.eq_bare_or_eq_append chars with h | h
    · rw [← h]
    · conv => rhs; rw [h]
      exact (Token.ofLine_append_blank (by decide) (Text.bare chars)).symm
  unfold executeLine Command.ofLine
  rw [htokens]

end Shell

end CommandShell
