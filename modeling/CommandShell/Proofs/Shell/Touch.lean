/-
CommandShell.Proofs.Shell.Touch — every command touches only what it is about.

`Touched` says what a command may change, by the name that its words begin with
once they are prepared; `Frame` says what no command changes. The proof goes by
what runs the command. A builtin leaves the state that it answers with
(`Answered.untouched`), so the four that change something come down to what
their answers change (`Answered.updated` for two of them). A program changes
nothing but the search path (`shell_runExternal`).
-/
import CommandShell.Proofs.Builtin.Touch
import CommandShell.Proofs.Shell.Answer
import CommandShell.Proofs.Shell.Leaving

namespace CommandShell

namespace Shell

/-- The variables, the aliases and the world with its working directory are as
they were. -/
structure Untouched (before after : Shell) : Prop where
  environment : after.environment = before.environment
  aliases : after.aliases = before.aliases
  world : after.world = before.world

/-- The outcome is that of a command that made a change to the variables, or
that failed and changed nothing. -/
inductive Updated (shell : Shell) (change : Environment → Prop) (outcome : Outcome) : Prop
  | refused (hending : outcome.ending ≠ .returned 0) (h : Untouched shell outcome.shell)
  | made {environment : Environment} (hending : outcome.ending = .returned 0)
      (hchange : change environment) (h : Untouched { shell with environment } outcome.shell)

/-- The outcome is that of a command that touched only what it is about, given
its words as they are prepared. -/
structure Touched (shell : Shell) (prepared : List String) (outcome : Outcome) : Prop where
  frame : Frame shell outcome.shell
  regular : outcome.Regular
  returned : ∀ status, outcome.ending = .returned status → outcome.shell.lastStatus = status
  left : ∀ status, outcome.ending = .left status → outcome.shell = shell
  /-- No words, a program, or a builtin other than the four below. -/
  other : (∀ name ∈ prepared.head?, name ∉ ["setenv", "unsetenv", "alias", "cd"]) →
    Untouched shell outcome.shell
  setenv : ∀ operands, prepared = "setenv" :: operands →
    Updated shell
      (fun environment => ∃ name value, operands = [name, value] ∧
        Environment.Assigned name value shell.environment environment) outcome
  unsetenv : ∀ operands, prepared = "unsetenv" :: operands →
    Updated shell
      (fun environment => ∃ name, operands = [name] ∧
        Environment.Dropped name shell.environment environment) outcome
  aliases : ∀ operands, prepared = "alias" :: operands →
    ∃ aliases, AliasTable.GrownBy (Builtin.Defines operands) shell.aliases aliases ∧
      Untouched { shell with aliases } outcome.shell
  cd : ∀ operands, prepared = "cd" :: operands →
    ∃ environment world, Environment.SameBut ["PWD", "OLDPWD"] shell.environment environment ∧
      Untouched { shell with environment, world } outcome.shell

variable {shell : Shell} {words operands : List String}

theorem Answered.untouched {outcome : Outcome} {after : Shell} {reply : Reply}
    (h : Answered outcome (after, reply)) : Untouched after outcome.shell := by
  obtain ⟨status, hshell⟩ := h.shell
  rw [hshell]
  exact ⟨rfl, rfl, rfl⟩

theorem Answered.updated {change : Environment → Prop} {outcome : Outcome} {answer : Shell × Reply}
    (h : Answered outcome answer) (hupdate : Builtin.Update shell change answer) :
    Updated shell change outcome := by
  cases hupdate with
  | refused =>
    refine .refused ?_ h.untouched
    rw [h.ending]
    intro hzero
    exact Fault.environmentUpdate.status_ne_zero (Ending.returned.inj hzero)
  | made hchange => exact .made h.ending hchange h.untouched

/-- A program, found or not, leaves what the search for it leaves. -/
theorem shell_runExternal (shell : Shell) (command : String) (operands : List String) :
    (shell.runExternal command operands).shell =
      { shell with
        searchPath :=
          (shell.searchPath.resolve shell.environment shell.world command).searchPath } := by
  unfold runExternal
  dsimp only
  split
  · rfl
  · rw [Outcome.after_shell, shell_concludeChild]

/-- Words that are run touch the variables, the aliases, what is kept of the
search path, and the directory: the variables by requests to set and to unset,
and the directory by changing it. -/
theorem touches_runPrepared (shell : Shell) (words : List String) :
    ∃ environment aliases searchPath world,
      (shell.runPrepared words).shell = { shell with environment, aliases, searchPath, world } ∧
        Environment.Reaches shell.environment environment ∧ shell.world.Moves world := by
  cases words with
  | nil => exact ⟨_, shell.aliases, shell.searchPath, shell.world, rfl, .refl _, .refl⟩
  | cons command operands =>
    cases hlookup : shell.builtins.lookup command with
    | some entry =>
      obtain ⟨environment, aliases, world, hshell, hreaches, hworld⟩ :=
        entry.handler.touches shell command operands
      rw [runPrepared_builtin hlookup, Outcome.after_shell, shell_runBuiltin, hshell]
      exact ⟨environment, aliases, shell.searchPath, world, rfl, hreaches, hworld⟩
    | none =>
      rw [runPrepared]
      simp only [hlookup]
      exact ⟨_, shell.aliases, _, shell.world, shell_runExternal shell command operands, .refl _,
        .refl⟩

theorem untouched_other (h : shell.builtins = Builtin.standard)
    (hother : ∀ name ∈ (shell.prepare words).head?,
      name ∉ ["setenv", "unsetenv", "alias", "cd"]) :
    Untouched shell (shell.runCommand words).shell := by
  -- Only the last status is set after the words have run, whatever runs them.
  suffices hprepared : Untouched shell (shell.runPrepared (shell.prepare words)).shell by
    obtain ⟨status, hshell⟩ := exists_shell_runCommand shell words
    rw [hshell]
    exact ⟨hprepared.environment, hprepared.aliases, hprepared.world⟩
  cases hwords : shell.prepare words with
  | nil => exact ⟨rfl, rfl, rfl⟩
  | cons command operands =>
    have hcommand : command ∉ ["setenv", "unsetenv", "alias", "cd"] :=
      hother command (by simp [hwords])
    cases hlookup : shell.builtins.lookup command with
    | none =>
      rw [runPrepared]
      simp only [hlookup]
      rw [shell_runExternal]
      exact ⟨rfl, rfl, rfl⟩
    | some entry =>
      have hstandard := Builtin.isStandard_of_lookup (h ▸ hlookup)
      rw [runPrepared_builtin hlookup, Outcome.after_shell, shell_runBuiltin]
      generalize entry.handler = action at hstandard
      cases hstandard with
      | exit => exact ⟨rfl, rfl, rfl⟩
      | env => exact ⟨rfl, rfl, rfl⟩
      | help => exact ⟨rfl, rfl, rfl⟩
      | setenv => simp at hcommand
      | unsetenv => simp at hcommand
      | aliases => simp at hcommand
      | cd => simp at hcommand

/-- A command that leaves the shell changes nothing at all. -/
theorem shell_of_left (h : shell.builtins = Builtin.standard) {status : Int}
    (hleft : (shell.runCommand words).ending = .left status) :
    (shell.runCommand words).shell = shell := by
  have hexit := (exists_left_runCommand_iff h words).mp ⟨status, hleft⟩
  obtain ⟨operands, hprepared⟩ := hexit.exists_operands
  obtain ⟨entry, hlookup, hentry⟩ := Builtin.IsStandard.exit.exists_lookup
  have hrun : (shell.runPrepared (shell.prepare words)).shell = shell := by
    rw [hprepared, runPrepared_builtin (h ▸ hlookup), Outcome.after_shell, shell_runBuiltin,
      hentry]
    rfl
  rw [ending_runCommand] at hleft
  rw [shell_runCommand]
  simp only [hleft, hrun]

end Shell

open Shell

/-- **Every command touches only what it is about**, in every state of a session,
whatever the words come to when they are prepared. -/
theorem touches_only_its_own {count : Nat} {shell : Shell} (h : Session count shell)
    (words : List String) : Touched shell (shell.prepare words) (shell.runCommand words) where
  frame := frame_runCommand shell words
  regular := regular_runCommand shell words
  returned _ := lastStatus_runCommand
  left _ := shell_of_left h.builtins
  other := untouched_other h.builtins
  setenv operands hprepared :=
    (answered_standard h.builtins .setenv hprepared).updated (Builtin.update_setenv shell operands)
  unsetenv operands hprepared :=
    (answered_standard h.builtins .unsetenv hprepared).updated
      (Builtin.update_unsetenv shell operands)
  aliases operands hprepared := by
    obtain ⟨aliases, hgrown, hshell⟩ := Builtin.aliases_touches shell "alias" operands
    have hanswered := answered_standard h.builtins .aliases hprepared
    exact ⟨aliases, hgrown, hshell ▸ hanswered.untouched⟩
  cd operands hprepared := by
    obtain ⟨environment, world, hsame, hshell⟩ := Builtin.cd_touches shell operands
    have hanswered := answered_standard h.builtins .cd hprepared
    exact ⟨environment, world, hsame, hshell ▸ hanswered.untouched⟩

/-- An alias names the builtin and the value is a reference; the variable is
given its new value at its place. -/
theorem touches_only_its_own_setenv :
    let start : Shell :=
      { programName := "minish", processId := 1,
        environment := .ofPairs [("A", "1"), ("B", "2"), ("C", "3")], world := {},
        builtins := Builtin.standard }
    let shell := (start.executeLine "alias set='setenv B'").shell
    let outcome := shell.runCommand ["set", "$C"]
    Session 1 shell ∧ Touched shell ["setenv", "B", "3"] outcome ∧ outcome.ending = .returned 0 ∧
      outcome.shell.environment.entries = [("A", "1"), ("B", "3"), ("C", "3")] := by
  intro start shell outcome
  have hsession : Session 1 shell := .line (.start "minish" 1 _ {}) "alias set='setenv B'"
  have hprepared : shell.prepare ["set", "$C"] = ["setenv", "B", "3"] := by decide +kernel
  have htouched := touches_only_its_own hsession ["set", "$C"]
  rw [hprepared] at htouched
  exact ⟨hsession, htouched, by decide +kernel, by decide +kernel⟩

end CommandShell
