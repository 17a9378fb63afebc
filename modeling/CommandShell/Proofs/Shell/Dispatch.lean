/-
CommandShell.Proofs.Shell.Dispatch — what running one command can do.

§1 gives the laws of `Outcome.after` and `Outcome.andThen`. §2 says which
events a command can cause once its words are prepared
(`effects_runPrepared`): texts, log messages and started programs,
and nothing of the kinds that mark the beginning of a command or the
conversation with a user. §3 is about a whole command: it is dispatched once,
with its prepared words (`dispatched_runCommand`), it returns or leaves the
shell (`regular_runCommand`), and the status it returns is the last
status after it (`lastStatus_runCommand`).
-/
import CommandShell.Shell.Dispatch

namespace CommandShell

/-! ## §1 Outcomes -/

namespace Outcome

@[simp] theorem after_shell (events : Transcript) (outcome : Outcome) :
    (outcome.after events).shell = outcome.shell := rfl

@[simp] theorem after_transcript (events : Transcript) (outcome : Outcome) :
    (outcome.after events).transcript = events ++ outcome.transcript := rfl

@[simp] theorem after_ending (events : Transcript) (outcome : Outcome) :
    (outcome.after events).ending = outcome.ending := rfl

theorem after_after (events more : Transcript) (outcome : Outcome) :
    (outcome.after more).after events = outcome.after (events ++ more) := by
  simp [after]

theorem andThen_after (events : Transcript) (outcome : Outcome) (next : Shell → Int → Outcome) :
    (outcome.after events).andThen next = (outcome.andThen next).after events := by
  obtain ⟨shell, transcript, ending⟩ := outcome
  cases ending with
  | returned status => simp [after, andThen_returned]
  | left status => rfl
  | broken breakdown => rfl

/-- An outcome that did not return is not gone on from. -/
theorem andThen_of_not_returned {outcome : Outcome} (next : Shell → Int → Outcome)
    (h : ∀ status, outcome.ending ≠ .returned status) : outcome.andThen next = outcome := by
  obtain ⟨shell, transcript, ending⟩ := outcome
  cases ending with
  | returned status => exact absurd rfl (h status)
  | left status => rfl
  | broken breakdown => rfl

theorem andThen_of_returned {outcome : Outcome} {status : Int} (next : Shell → Int → Outcome)
    (h : outcome.ending = .returned status) :
    outcome.andThen next = (next outcome.shell status).after outcome.transcript := by
  obtain ⟨shell, transcript, ending⟩ := outcome
  subst h
  rfl

/-- Going on with nothing but the status changes nothing. -/
theorem andThen_returned_self (outcome : Outcome) :
    (outcome.andThen fun shell status => ⟨shell, [], .returned status⟩) = outcome := by
  obtain ⟨shell, transcript, ending⟩ := outcome
  cases ending <;> simp [andThen]

/-- How one goes on matters only where the outcome returned. -/
theorem andThen_congr {outcome : Outcome} {next other : Shell → Int → Outcome}
    (h : ∀ status, outcome.ending = .returned status →
      next outcome.shell status = other outcome.shell status) :
    outcome.andThen next = outcome.andThen other := by
  by_cases hreturned : ∃ status, outcome.ending = .returned status
  · obtain ⟨status, hstatus⟩ := hreturned
    rw [andThen_of_returned next hstatus, andThen_of_returned other hstatus, h status hstatus]
  · have hreturned : ∀ status, outcome.ending ≠ .returned status := by simpa using hreturned
    rw [andThen_of_not_returned next hreturned, andThen_of_not_returned other hreturned]

/-- An outcome after which the shell goes on or is left, and never one in
which the run breaks off. -/
def Regular (outcome : Outcome) : Prop :=
  (∃ status, outcome.ending = .returned status) ∨ ∃ status, outcome.ending = .left status

theorem Regular.after {outcome : Outcome} (h : outcome.Regular) (events : Transcript) :
    (outcome.after events).Regular := h

theorem Regular.andThen {outcome : Outcome} (h : outcome.Regular) {next : Shell → Int → Outcome}
    (hnext : ∀ shell status, (next shell status).Regular) : (outcome.andThen next).Regular := by
  rcases h with ⟨status, hstatus⟩ | ⟨status, hstatus⟩
  · rw [andThen_of_returned next hstatus]
    exact (hnext outcome.shell status).after outcome.transcript
  · have hleft : ∀ other, outcome.ending ≠ .returned other := by simp [hstatus]
    rw [andThen_of_not_returned next hleft]
    exact .inr ⟨status, hstatus⟩

end Outcome

@[simp] theorem Transcript.dispatched_append (before after : Transcript) :
    Transcript.dispatched (before ++ after) = before.dispatched ++ after.dispatched :=
  List.filterMap_append

/-! ## §2 Events -/

/-- The kinds of events that a command causes once its words are prepared. -/
def Event.isEffect : Event → Bool
  | .output _ | .errors _ | .log _ _ | .spawn _ => true
  | .prompt _ | .dispatch _ | .read => false

/-- All events of a transcript are of these kinds. -/
def Transcript.Effects (transcript : Transcript) : Prop :=
  ∀ event ∈ transcript, event.isEffect = true

theorem Transcript.Effects.append {before after : Transcript} (hb : before.Effects)
    (ha : after.Effects) : Transcript.Effects (before ++ after) := by
  intro event h
  rcases List.mem_append.mp h with h | h
  · exact hb event h
  · exact ha event h

theorem Transcript.Effects.dispatched {transcript : Transcript} (h : transcript.Effects) :
    transcript.dispatched = [] := by
  refine List.filterMap_eq_nil_iff.mpr fun event hevent => ?_
  have := h event hevent
  cases event <;> first | rfl | cases this

theorem SearchPath.effects_refresh (path : SearchPath) (env : Environment) :
    (path.refresh env).2.Effects := by
  unfold refresh
  dsimp only
  split
  · simp [Transcript.Effects, Event.isEffect]
  · split <;> simp [Transcript.Effects, Event.isEffect]

theorem SearchPath.effects_resolve (path : SearchPath) (env : Environment) (world : World)
    (command : String) : (path.resolve env world command).transcript.Effects := by
  have hlog : ∀ message, Transcript.Effects [.log .searchPath message] := by
    simp [Transcript.Effects, Event.isEffect]
  unfold resolve
  split
  · simp [Transcript.Effects]
  · split
    · simp [Transcript.Effects]
    · dsimp only
      split
      · exact (effects_refresh path env).append (hlog _)
      · exact (effects_refresh path env).append (hlog _)

theorem effects_launch (world : World) (attempt : Attempt) :
    (launch world attempt).1.Effects := by
  unfold launch
  dsimp only
  split
  · simp [Transcript.Effects, Event.isEffect]
  · simp [Transcript.Effects, Event.isEffect]
  · split <;> simp [Transcript.Effects, Event.isEffect]
  · simp [Transcript.Effects, Event.isEffect]

namespace Shell

theorem effects_report (shell : Shell) (diagnostic : Diagnostic) :
    (shell.report diagnostic).transcript.Effects := by
  simp [report, Transcript.Effects, Event.isEffect]

theorem effects_resultEvents (result : CommandResult) : (resultEvents result).Effects := by
  unfold resultEvents
  split <;> split <;> simp [Transcript.Effects, Event.isEffect]

theorem effects_runBuiltin (shell : Shell) (entry : Registry.Entry Action) (name : String)
    (operands : List String) : (shell.runBuiltin entry name operands).transcript.Effects := by
  unfold runBuiltin
  dsimp only
  split
  · exact effects_resultEvents _
  · exact effects_report _ _
  · refine Transcript.Effects.append ?_ (effects_report _ _)
    simp [Transcript.Effects, Event.isEffect]
  · simp [Transcript.Effects]

theorem effects_concludeChild (shell : Shell) (command : String) (ending : ChildEnding) :
    (shell.concludeChild command ending).transcript.Effects := by
  unfold concludeChild
  split
  · simp [Transcript.Effects]
  · simp [Transcript.Effects, Event.isEffect]
  · split <;> exact effects_report _ _
  · exact effects_report _ _

theorem effects_runExternal (shell : Shell) (command : String) (operands : List String) :
    (shell.runExternal command operands).transcript.Effects := by
  unfold runExternal
  dsimp only
  split
  · exact (SearchPath.effects_resolve _ _ _ _).append (effects_report _ _)
  · exact ((SearchPath.effects_resolve _ _ _ _).append (effects_launch _ _)).append
      (effects_concludeChild _ _ _)

theorem effects_runPrepared (shell : Shell) (words : List String) :
    (shell.runPrepared words).transcript.Effects := by
  unfold runPrepared
  split
  · simp [Transcript.Effects]
  · split
    · refine Transcript.Effects.append ?_ (effects_runBuiltin _ _ _ _)
      simp [Transcript.Effects, Event.isEffect]
    · exact effects_runExternal _ _ _

/-! ## §3 One command -/

theorem returned_concludeChild (shell : Shell) (command : String) (ending : ChildEnding) :
    ∃ status, (shell.concludeChild command ending).ending = .returned status := by
  unfold concludeChild
  split
  · exact ⟨_, rfl⟩
  · exact ⟨_, rfl⟩
  · split <;> exact ⟨_, rfl⟩
  · exact ⟨_, rfl⟩

/-- A program never leaves the shell, found or not. -/
theorem returned_runExternal (shell : Shell) (command : String) (operands : List String) :
    ∃ status, (shell.runExternal command operands).ending = .returned status := by
  unfold runExternal
  dsimp only
  split
  · exact ⟨_, rfl⟩
  · exact returned_concludeChild _ _ _

theorem regular_runPrepared (shell : Shell) (words : List String) :
    (shell.runPrepared words).Regular := by
  have hbuiltin : ∀ entry name operands, (shell.runBuiltin entry name operands).Regular := by
    intro entry name operands
    unfold runBuiltin
    dsimp only
    split
    · exact .inl ⟨_, rfl⟩
    · exact .inl ⟨_, rfl⟩
    · exact .inl ⟨_, rfl⟩
    · exact .inr ⟨_, rfl⟩
  unfold runPrepared
  split
  · exact .inl ⟨_, rfl⟩
  · split
    · exact (hbuiltin _ _ _).after _
    · exact .inl (returned_runExternal _ _ _)

/-- A command returns a status or leaves the shell. -/
theorem regular_runCommand (shell : Shell) (words : List String) :
    (shell.runCommand words).Regular :=
  ((regular_runPrepared shell _).after _).andThen fun _ _ => .inl ⟨_, rfl⟩

/-- The events of a command: its dispatch, then its effects. -/
theorem transcript_runCommand (shell : Shell) (words : List String) :
    (shell.runCommand words).transcript =
      .dispatch (shell.prepare words) :: (shell.runPrepared (shell.prepare words)).transcript := by
  unfold runCommand
  dsimp only
  rw [Outcome.andThen_after]
  generalize shell.runPrepared (shell.prepare words) = outcome
  obtain ⟨after, transcript, ending⟩ := outcome
  cases ending with
  | returned status => simp [Outcome.andThen_returned, Outcome.after]
  | left status => rfl
  | broken breakdown => rfl

/-- A command ends as it does once its words are prepared. -/
theorem ending_runCommand (shell : Shell) (words : List String) :
    (shell.runCommand words).ending = (shell.runPrepared (shell.prepare words)).ending := by
  unfold runCommand
  dsimp only
  generalize shell.runPrepared (shell.prepare words) = outcome
  obtain ⟨after, transcript, ending⟩ := outcome
  cases ending <;> rfl

/-- A command is dispatched once, with its words as they are prepared. -/
theorem dispatched_runCommand (shell : Shell) (words : List String) :
    (shell.runCommand words).transcript.dispatched = [shell.prepare words] := by
  rw [transcript_runCommand]
  have h := (effects_runPrepared shell (shell.prepare words)).dispatched
  simpa [Transcript.dispatched, Event.dispatched?] using h

/-- The status that a command returns is the last status after it. -/
theorem lastStatus_runCommand {shell : Shell} {words : List String} {status : Int}
    (h : (shell.runCommand words).ending = .returned status) :
    (shell.runCommand words).shell.lastStatus = status := by
  unfold runCommand at h ⊢
  dsimp only at h ⊢
  generalize (shell.runPrepared (shell.prepare words)).after _ = outcome at h ⊢
  obtain ⟨after, transcript, ending⟩ := outcome
  cases ending with
  | returned value => simpa [Outcome.andThen_returned, Outcome.after] using h
  | left value => cases h
  | broken breakdown => cases h

end Shell

end CommandShell
