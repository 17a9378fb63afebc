/-
CommandShell.Proofs.Builtin.Touch — what the standard builtins change.

Four of them change something: the two that set and unset a variable
(`update_setenv`, `update_unsetenv`), the one for aliases (`aliases_touches`)
and the one that changes the directory (`cd_touches`). Each statement has the
state after it as the state before with some fields replaced, so that nothing
else can have changed. `Action.touches` puts them together with what a builtin
from elsewhere may ask for.
-/
import CommandShell.Proofs.Alias.Table
import CommandShell.Proofs.Builtin.ChangeDirectory
import CommandShell.Proofs.Builtin.Standard

namespace CommandShell

namespace Builtin

/-! ## Variables -/

/-- The answers to a request to change the variables. -/
inductive Update (shell : Shell) (change : Environment → Prop) : Shell × Reply → Prop
  | refused : Update shell change (shell, .failed .environmentUpdate)
  | made {environment : Environment} (h : change environment) :
      Update shell change ({ shell with environment }, .done {})

theorem update_setenv (shell : Shell) (operands : List String) :
    Update shell
      (fun environment => ∃ name value, operands = [name, value] ∧
        Environment.Assigned name value shell.environment environment)
      (setenv shell operands) := by
  unfold setenv
  split
  · next name value =>
    split
    · next environment hset => exact .made ⟨name, value, rfl, .of_set? hset⟩
    · exact .refused
  · exact .refused

theorem update_unsetenv (shell : Shell) (operands : List String) :
    Update shell
      (fun environment => ∃ name, operands = [name] ∧
        Environment.Dropped name shell.environment environment)
      (unsetenv shell operands) := by
  unfold unsetenv
  split
  · next name =>
    split
    · next environment wasSet hunset => exact .made ⟨name, rfl, .of_unset? hunset⟩
    · exact .refused
  · exact .refused

/-! ## Aliases -/

/-- The operands define an alias of this name. -/
def Defines (operands : List String) (name : String) : Prop :=
  ∃ value, AliasOperand.define name value ∈ AliasOperand.ofWords operands

theorem grownBy_afterOperands {defined : String → Prop} {operands : List AliasOperand}
    (h : ∀ name value, .define name value ∈ operands → defined name) (table : AliasTable) :
    AliasTable.GrownBy defined table (table.afterOperands operands) := by
  induction operands generalizing table with
  | nil => exact .refl table
  | cons operand rest ih =>
    have hrest : ∀ name value, .define name value ∈ rest → defined name :=
      fun name value hdefine => h name value (List.mem_cons_of_mem operand hdefine)
    cases operand with
    | define name value =>
      have hfirst := AliasTable.GrownBy.define table (h name value List.mem_cons_self) value
      exact hfirst.trans (ih hrest (table.define name value))
    | lookup name => exact ih hrest table

theorem aliases_touches (shell : Shell) (name : String) (operands : List String) :
    ∃ aliases, AliasTable.GrownBy (Defines operands) shell.aliases aliases ∧
      (Action.aliases.perform shell name operands).1 = { shell with aliases } := by
  rw [perform_aliases rfl]
  exact ⟨_, grownBy_afterOperands (fun _ value hdefine => ⟨value, hdefine⟩) _, rfl⟩

/-! ## The directory -/

/-- The variables change by requests, and the world by changes of directory. -/
theorem cd_moves (shell : Shell) (operands : List String) :
    ∃ environment world, (cd shell operands).1 = { shell with environment, world } ∧
      Environment.SameBut ["PWD", "OLDPWD"] shell.environment environment ∧
      Environment.Reaches shell.environment environment ∧
      shell.world.Moves world := by
  have hchange := change_cd shell operands
  generalize cd shell operands = answer at hchange
  have hrecorded : ∀ {world new after recorded},
      recordChange { shell with world } (presentPath shell) new = (after, recorded) →
        ∃ environment, after = { shell with environment, world } ∧
          Environment.SameBut ["PWD", "OLDPWD"] shell.environment environment ∧
          Environment.Reaches shell.environment environment := by
    intro world new after recorded hrecord
    obtain ⟨environment, hafter, hsame, hreaches⟩ :=
      recordChange_touches { shell with world } (presentPath shell) new
    rw [hrecord] at hafter
    exact ⟨environment, hafter, hsame, hreaches⟩
  cases hchange with
  | nowhere => exact ⟨shell.environment, shell.world, rfl, .refl _ _, .refl _, .refl⟩
  | refused => exact ⟨shell.environment, shell.world, rfl, .refl _ _, .refl _, .refl⟩
  | @pathless aim world message _ hmove =>
    exact ⟨shell.environment, world, rfl, .refl _ _, .refl _, .single ⟨aim.target, hmove⟩⟩
  | @unrecorded aim world _ _ _ hmove _ hrecord =>
    obtain ⟨environment, hafter, hsame, hreaches⟩ := hrecorded hrecord
    exact ⟨environment, world, hafter, hsame, hreaches, .single ⟨aim.target, hmove⟩⟩
  | @changed aim world _ _ _ hmove _ hrecord =>
    obtain ⟨environment, hafter, hsame, hreaches⟩ := hrecorded hrecord
    exact ⟨environment, world, hafter, hsame, hreaches, .single ⟨aim.target, hmove⟩⟩

theorem cd_touches (shell : Shell) (operands : List String) :
    ∃ environment world, Environment.SameBut ["PWD", "OLDPWD"] shell.environment environment ∧
      (cd shell operands).1 = { shell with environment, world } := by
  obtain ⟨environment, world, hshell, hsame, -⟩ := cd_moves shell operands
  exact ⟨environment, world, hsame, hshell⟩

end Builtin

/-! ## All builtins -/

namespace Shell

/-- The state after is the one before, acted on by requests: to set and to unset
variables, to define and to drop aliases, and to change the directory. -/
def ActedOn (before after : Shell) : Prop :=
  ∃ environment aliases world, after = { before with environment, aliases, world } ∧
    Environment.Reaches before.environment environment ∧ before.world.Moves world

namespace ActedOn

theorem refl (shell : Shell) : ActedOn shell shell :=
  ⟨shell.environment, shell.aliases, shell.world, rfl, .refl _, .refl⟩

theorem trans {first second third : Shell} (h : ActedOn first second)
    (h' : ActedOn second third) : ActedOn first third := by
  obtain ⟨_, _, _, rfl, hreaches, hmoves⟩ := h
  obtain ⟨environment, aliases, world, rfl, hreaches', hmoves'⟩ := h'
  exact ⟨environment, aliases, world, rfl, hreaches.trans hreaches', hmoves.trans hmoves'⟩

theorem environment {shell : Shell} {environment : Environment}
    (h : Environment.Reaches shell.environment environment) :
    ActedOn shell { shell with environment } :=
  ⟨environment, shell.aliases, shell.world, rfl, h, .refl⟩

theorem aliases (shell : Shell) (aliases : AliasTable) : ActedOn shell { shell with aliases } :=
  ⟨shell.environment, aliases, shell.world, rfl, .refl _, .refl⟩

theorem world {shell : Shell} {world : World} (h : shell.world.Moves world) :
    ActedOn shell { shell with world } :=
  ⟨shell.environment, shell.aliases, world, rfl, .refl _, h⟩

end ActedOn

theorem actedOn_edit (shell : Shell) (edit : Edit) : ActedOn shell (shell.edit edit) := by
  unfold Shell.edit
  split
  · split
    · next hset => exact .environment (.of_set? hset)
    · exact .refl shell
  · split
    · next hunset => exact .environment (.of_unset? hunset)
    · exact .refl shell
  · exact .aliases shell _
  · exact .aliases shell _
  · exact .aliases shell _
  · next path =>
    split
    · next hmove => exact .world (.single ⟨path, hmove⟩)
    · exact .refl shell

theorem actedOn_editAll (shell : Shell) (edits : List Edit) :
    ActedOn shell (shell.editAll edits) := by
  induction edits generalizing shell with
  | nil => exact .refl shell
  | cons edit rest ih => exact (actedOn_edit shell edit).trans (ih (shell.edit edit))

end Shell

/-- Builtins touch the variables, the aliases and the directory, and nothing
else, and they do so by requests, those from elsewhere like the standard ones. -/
theorem Action.touches (action : Action) (shell : Shell) (name : String)
    (operands : List String) : shell.ActedOn (action.perform shell name operands).1 := by
  cases action with
  | setenv =>
    rw [perform, Builtin.setenv.eq_def]
    split
    · split
      · next hset => exact .environment (.of_set? hset)
      · exact .refl shell
    · exact .refl shell
  | unsetenv =>
    rw [perform, Builtin.unsetenv.eq_def]
    split
    · split
      · next hunset => exact .environment (.of_unset? hunset)
      · exact .refl shell
    · exact .refl shell
  | cd =>
    obtain ⟨environment, world, hshell, -, hreaches, hmoves⟩ := Builtin.cd_moves shell operands
    exact ⟨environment, shell.aliases, world, hshell, hreaches, hmoves⟩
  | aliases =>
    obtain ⟨aliases, -, hshell⟩ := Builtin.aliases_touches shell name operands
    rw [hshell]
    exact .aliases shell aliases
  | foreign act => exact Shell.actedOn_editAll shell (act shell.view (name :: operands)).1
  | _ => exact .refl shell

/-- A builtin from elsewhere that keeps the last status in a variable. Its second
request is refused, since the name is empty. -/
example :
    let keep : Action := .foreign fun view words =>
      ([.setVariable "LAST" (toString view.lastStatus), .setVariable "" "x"],
        .done { output := words.getLastD "" })
    let shell : Shell :=
      { programName := "minish", processId := 1, environment := .ofPairs [("A", "1")],
        world := {}, builtins := [], lastStatus := 7 }
    let answer := keep.perform shell "keep" ["a"]
    answer.1.environment.entries = [("A", "1"), ("LAST", "7")] ∧
      answer.2 = .done { output := "a" } := by
  decide +kernel

end CommandShell
