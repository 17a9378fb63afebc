/-
CommandShell.Proofs.Shell.Launch — which commands ask for a program to be
started.

`Shell.attempt?` is the request of a command whose words are prepared: there is
one if the words name no builtin and a program is found. `attempts_runCommand`
says that a command makes this request and no other.
-/
import CommandShell.Proofs.Shell.Course

namespace CommandShell

/-- Events of the search for a program. None of them requests anything. -/
theorem SearchPath.attempts_resolve (path : SearchPath) (env : Environment) (world : World)
    (command : String) : (path.resolve env world command).transcript.attempts = [] := by
  have hrefresh : (path.refresh env).2.attempts = [] := by
    unfold refresh
    dsimp only
    split
    · rfl
    · split <;> rfl
  unfold resolve
  split
  · rfl
  · split
    · rfl
    · dsimp only
      split
      · rw [Transcript.attempts_append, hrefresh]
        rfl
      · rw [Transcript.attempts_append, hrefresh]
        rfl

/-- A program is requested once, whatever comes of it. -/
theorem attempts_launch (world : World) (attempt : Attempt) :
    (launch world attempt).1.attempts = [attempt] := by
  unfold launch
  dsimp only
  split
  · rfl
  · rfl
  · split <;> rfl
  · rfl

namespace Shell

/-- The request of a command, given its words as they are prepared. -/
def attempt? (shell : Shell) : List String → Option Attempt
  | [] => none
  | command :: operands =>
    match shell.builtins.lookup command with
    | some _ => none
    | none =>
      (shell.searchPath.resolve shell.environment shell.world command).location.map fun location =>
        ⟨location, command :: operands, shell.environment.lines⟩

variable {shell : Shell} {words : List String} {attempt : Attempt}

/-- A program is handed the words of its command and the variables as they
are. -/
theorem of_attempt?_eq_some (h : shell.attempt? words = some attempt) :
    attempt.arguments = words ∧ attempt.environment = shell.environment.lines := by
  cases words with
  | nil => cases h
  | cons command operands =>
    rw [attempt?] at h
    split at h
    · cases h
    · obtain ⟨location, -, rfl⟩ := Option.map_eq_some_iff.mp h
      exact ⟨rfl, rfl⟩

theorem attempts_runBuiltin (shell : Shell) (entry : Registry.Entry Action) (name : String)
    (operands : List String) : (shell.runBuiltin entry name operands).transcript.attempts = [] := by
  unfold runBuiltin
  dsimp only
  split
  · unfold resultEvents
    split <;> split <;> rfl
  · rfl
  · rfl
  · rfl

theorem attempts_concludeChild (shell : Shell) (command : String) (ending : ChildEnding) :
    (shell.concludeChild command ending).transcript.attempts = [] := by
  unfold concludeChild
  split
  · rfl
  · rfl
  · split <;> rfl
  · rfl

theorem attempts_runPrepared (shell : Shell) (words : List String) :
    (shell.runPrepared words).transcript.attempts = (shell.attempt? words).toList := by
  cases words with
  | nil => rfl
  | cons command operands =>
    rw [runPrepared, attempt?]
    cases hlookup : shell.builtins.lookup command with
    | some entry => exact attempts_runBuiltin shell entry command operands
    | none =>
      have hsearched := shell.searchPath.attempts_resolve shell.environment shell.world command
      dsimp only
      unfold runExternal
      dsimp only
      split
      · next hlocation =>
        rw [Outcome.after_transcript, Transcript.attempts_append, hsearched, hlocation]
        rfl
      · next location hlocation =>
        simp [hsearched, hlocation, attempts_launch, attempts_concludeChild]

/-- **A command makes the request of its prepared words, and no other.** -/
theorem attempts_runCommand (shell : Shell) (words : List String) :
    (shell.runCommand words).transcript.attempts = (shell.attempt? (shell.prepare words)).toList := by
  rw [transcript_runCommand, ← attempts_runPrepared]
  rfl

end Shell

end CommandShell
