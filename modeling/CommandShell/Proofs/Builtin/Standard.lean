/-
CommandShell.Proofs.Builtin.Standard — what the standard builtins answer.

§1 says which names the standard builtins have (`isStandard_of_lookup`). §2
gives the answer of the one for aliases in closed form (`perform_aliases`): what
is shown, what is reported and what is defined are each a recursion over the
operands that sees the table as it is at their turn. §3 says that the others
answer plainly (`plain_perform`): what they report they report as failures.
-/
import CommandShell.Builtin.Standard

namespace CommandShell

/-! ## §1 Names -/

namespace Builtin

/-- The seven names, each with what it stands for. -/
inductive IsStandard : String → Action → Prop
  | exit : IsStandard "exit" .exit
  | env : IsStandard "env" .env
  | setenv : IsStandard "setenv" .setenv
  | unsetenv : IsStandard "unsetenv" .unsetenv
  | cd : IsStandard "cd" .cd
  | aliases : IsStandard "alias" .aliases
  | help : IsStandard "help" .help

theorem isStandard_of_lookup {command : String} {entry : Registry.Entry Action}
    (h : standard.lookup command = some entry) : IsStandard command entry.handler := by
  have hname : entry.name = command := by simpa using List.find?_some h
  have hmem : entry ∈ standard := List.mem_of_find?_eq_some h
  subst hname
  simp only [standard, List.mem_cons, List.not_mem_nil, or_false] at hmem
  rcases hmem with rfl | rfl | rfl | rfl | rfl | rfl | rfl <;> constructor

theorem IsStandard.exists_lookup {name : String} {action : Action} (h : IsStandard name action) :
    ∃ entry, standard.lookup name = some entry ∧ entry.handler = action := by
  cases h <;> exact ⟨_, rfl, rfl⟩

theorem IsStandard.handler_eq {name : String} {action : Action} (h : IsStandard name action)
    {entry : Registry.Entry Action} (hlookup : standard.lookup name = some entry) :
    entry.handler = action := by
  obtain ⟨other, hother, hhandler⟩ := h.exists_lookup
  rw [hlookup] at hother
  cases hother
  exact hhandler

end Builtin

/-! ## §2 Aliases -/

/-- The report of a look-up that finds no alias. -/
def Diagnostic.noAlias (name : String) : Diagnostic where
  reason := name ++ " not found"
  status := 1
  command := "alias"

namespace AliasTable

/-- The table when operands have taken effect. -/
def afterOperands (table : AliasTable) : List AliasOperand → AliasTable
  | [] => table
  | .define name value :: rest => (table.define name value).afterOperands rest
  | .lookup _ :: rest => table.afterOperands rest

/-- The definitions that operands show: those of the names looked up that
have an alias at their turn. -/
def shown (table : AliasTable) : List AliasOperand → List String
  | [] => []
  | .define name value :: rest => (table.define name value).shown rest
  | .lookup name :: rest =>
    match table.find? name with
    | some value => aliasDefinition name value :: table.shown rest
    | none => table.shown rest

/-- The names looked up that have no alias at their turn. -/
def unknown (table : AliasTable) : List AliasOperand → List String
  | [] => []
  | .define name value :: rest => (table.define name value).unknown rest
  | .lookup name :: rest =>
    match table.find? name with
    | some _ => table.unknown rest
    | none => name :: table.unknown rest

end AliasTable

namespace Builtin

/-- What operands come to, added to the result so far. -/
theorem aliasSteps_eq (shell : Shell) (operands : List AliasOperand) :
    ∀ (table : AliasTable) (result : CommandResult),
      aliasSteps shell table result operands =
        (table.afterOperands operands,
          { output := result.output ++ String.join ((table.shown operands).map (· ++ "\n"))
            errors := result.errors ++
              String.join ((table.unknown operands).map fun name =>
                shell.diagnosticLine (.noAlias name))
            status := if table.unknown operands = [] then result.status else 1 }) := by
  induction operands with
  | nil => simp [aliasSteps, AliasTable.afterOperands, AliasTable.shown, AliasTable.unknown]
  | cons operand rest ih =>
    intro table result
    rw [aliasSteps]
    cases operand with
    | define name value => exact ih (table.define name value) result
    | lookup name =>
      cases hfind : table.find? name with
      | some value =>
        simp [aliasStep, AliasTable.afterOperands, AliasTable.shown, AliasTable.unknown, hfind, ih,
          String.join_cons, String.append_assoc]
      | none =>
        simp [aliasStep, AliasTable.afterOperands, AliasTable.shown, AliasTable.unknown, hfind, ih,
          String.join_cons, String.append_assoc, Diagnostic.noAlias]

/-- The answer to operands, or to none, with which all aliases are shown. -/
theorem perform_aliases {action : Action} (h : action = .aliases) (shell : Shell) (name : String)
    (words : List String) :
    let operands := AliasOperand.ofWords words
    action.perform shell name words =
      ({ shell with aliases := shell.aliases.afterOperands operands },
        .done
          { output := String.join
              ((if words = [] then shell.aliases.definitions
                else shell.aliases.shown operands).map (· ++ "\n"))
            errors := String.join
              ((shell.aliases.unknown operands).map fun name =>
                shell.diagnosticLine (.noAlias name))
            status := if shell.aliases.unknown operands = [] then 0 else 1 }) := by
  subst h
  cases words with
  | nil => rfl
  | cons word rest => simp [Action.perform, aliases, aliasSteps_eq]

/-! ## §3 The other builtins -/

end Builtin

/-- An answer that writes nothing to the error stream by itself, has the
status zero if it is a result, and does not leave the shell. -/
inductive Reply.Plain : Reply → Prop
  | done (output : String) : Plain (.done { output })
  | failed (fault : Fault) : Plain (.failed fault)
  | crashed (message : String) : Plain (.crashed message)

namespace Builtin

open Reply (Plain)

theorem plain_env (shell : Shell) (operands : List String) : Plain (env shell operands) := by
  unfold env
  split
  · exact .done _
  · exact .failed _

theorem plain_setenv (shell : Shell) (operands : List String) :
    Plain (setenv shell operands).2 := by
  unfold setenv
  split
  · split
    · exact .done _
    · exact .failed _
  · exact .failed _

theorem plain_unsetenv (shell : Shell) (operands : List String) :
    Plain (unsetenv shell operands).2 := by
  unfold unsetenv
  split
  · split
    · exact .done _
    · exact .failed _
  · exact .failed _

theorem plain_cd (shell : Shell) (operands : List String) : Plain (cd shell operands).2 := by
  unfold cd
  split
  · exact .failed _
  · dsimp only
    split
    · exact .failed _
    · split
      · exact .crashed _
      · split
        · exact .done _
        · exact .failed _

theorem plain_help (shell : Shell) (operands : List String) : Plain (help shell operands) := by
  unfold help
  split
  · exact .done _
  · split
    · exact .failed _
    · exact .done _

/-- The standard builtins answer plainly, but for the two that leave the shell
and that deal with aliases. -/
theorem plain_perform {command : String} {entry : Registry.Entry Action}
    (h : standard.lookup command = some entry) (hexit : command ≠ "exit")
    (halias : command ≠ "alias") (shell : Shell) (name : String) (operands : List String) :
    Plain (entry.handler.perform shell name operands).2 := by
  have hstandard := isStandard_of_lookup h
  generalize entry.handler = action at hstandard
  cases hstandard with
  | exit => exact absurd rfl hexit
  | env => exact plain_env shell operands
  | setenv => exact plain_setenv shell operands
  | unsetenv => exact plain_unsetenv shell operands
  | cd => exact plain_cd shell operands
  | aliases => exact absurd rfl halias
  | help => exact plain_help shell operands

/-- Leaving the shell either succeeds or is a failure. -/
theorem exit_ne_done (shell : Shell) (operands : List String) (result : CommandResult) :
    exit shell operands ≠ .done result := by
  unfold exit
  split
  · simp
  · split <;> simp

end Builtin

/-- No fault has the status of a success. -/
theorem Fault.status_ne_zero (fault : Fault) : fault.status ≠ 0 := by
  obtain ⟨cause, command⟩ := fault
  cases cause <;> simp [status, Cause.status]

end CommandShell
