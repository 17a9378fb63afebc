/-
CommandShell.Proofs.Alias.Turns — what each operand sees at its turn.

The recursions over the operands of one command carry the table along. Here is
what they come to without it: a look-up sees the last definition of its name
among the operands to its left, and where there is none the table before the
command (`valueAfter`). §1 takes the operands apart, §2 shows that the table, the
definitions shown and the names not found are those
(`afterOperands_eq`, `shown_eq`, `unknown_eq`). §3 says of which names there are
definitions at all.
-/
import CommandShell.Proofs.Bindings.Order
import CommandShell.Proofs.Builtin.Standard
import Mathlib.Data.List.Infix

namespace CommandShell

/-! ## §1 Definitions and look-ups -/

namespace AliasOperand

/-- The name and the value that an operand defines. -/
def definition? : AliasOperand → Option (String × String)
  | .define name value => some (name, value)
  | .lookup _ => none

/-- The name that an operand looks up. -/
def lookup? : AliasOperand → Option String
  | .define _ _ => none
  | .lookup name => some name

/-- The names that operands define, with their values, in order. -/
def bindings (operands : List AliasOperand) : List (String × String) :=
  operands.filterMap definition?

/-- The names that operands look up, in order, each behind the operands to its
left. -/
def lookups (operands : List AliasOperand) : List (List AliasOperand × String) :=
  (operands.inits.zip operands).filterMap fun turn => turn.2.lookup?.map fun name => (turn.1, name)

theorem lookups_cons (operand : AliasOperand) (rest : List AliasOperand) :
    lookups (operand :: rest) =
      (operand.lookup?.map fun name => ([], name)).toList ++
        (lookups rest).map fun turn => (operand :: turn.1, turn.2) := by
  have hrest : ((rest.inits.map (operand :: ·)).zip rest).filterMap
        (fun turn => turn.2.lookup?.map fun name => (turn.1, name)) =
      (lookups rest).map fun turn => (operand :: turn.1, turn.2) := by
    rw [List.zip_map_left, List.filterMap_map, lookups, List.map_filterMap]
    refine List.filterMap_congr fun turn _ => ?_
    simp [Function.comp_def]
  rw [lookups, List.inits_cons, List.zip_cons_cons, List.filterMap_cons, hrest]
  cases operand <;> rfl

end AliasOperand

open AliasOperand (bindings lookups)

/-! ## §2 Operands in turn -/

namespace AliasTable

/-- Defines aliases one after the other. -/
def defineAll (table : AliasTable) (pairs : List (String × String)) : AliasTable :=
  ⟨pairs.foldl (fun held pair => held.insert pair.1 pair.2) table.entries⟩

/-- The value of a name once operands have had their turn: the one that the last
definition of it gives, or else the one it has in the table. -/
def valueAfter (table : AliasTable) (operands : List AliasOperand) (name : String) :
    Option String :=
  (Bindings.lastValue? (bindings operands) name).or (table.find? name)

theorem defineAll_append (table : AliasTable) (pairs more : List (String × String)) :
    table.defineAll (pairs ++ more) = (table.defineAll pairs).defineAll more := by
  simp [defineAll]

theorem find?_defineAll (table : AliasTable) (pairs : List (String × String)) (name : String) :
    (table.defineAll pairs).find? name =
      (Bindings.lastValue? pairs name).or (table.find? name) :=
  Bindings.find?_foldl_insert pairs table.entries name

/-- Operands leave the table with their definitions in it. -/
theorem afterOperands_eq (table : AliasTable) (operands : List AliasOperand) :
    table.afterOperands operands = table.defineAll (bindings operands) := by
  induction operands generalizing table with
  | nil => rfl
  | cons operand rest ih =>
    cases operand with
    | define name value => exact ih (table.define name value)
    | lookup name => exact ih table

theorem valueAfter_define (table : AliasTable) (name value : String)
    (operands : List AliasOperand) :
    table.valueAfter (.define name value :: operands) =
      (table.define name value).valueAfter operands := by
  funext other
  rw [valueAfter, ← find?_defineAll, valueAfter, ← find?_defineAll]
  rfl

theorem valueAfter_lookup (table : AliasTable) (name : String) (operands : List AliasOperand) :
    table.valueAfter (.lookup name :: operands) = table.valueAfter operands := rfl

/-- What is shown are the definitions of the names that have a value at their
turn. -/
theorem shown_eq (table : AliasTable) (operands : List AliasOperand) :
    table.shown operands =
      (lookups operands).filterMap fun turn =>
        (table.valueAfter turn.1 turn.2).map (aliasDefinition turn.2) := by
  induction operands generalizing table with
  | nil => rfl
  | cons operand rest ih =>
    rw [AliasOperand.lookups_cons, List.filterMap_append, List.filterMap_map]
    cases operand with
    | define name value =>
      simp only [Function.comp_def, valueAfter_define]
      exact ih (table.define name value)
    | lookup name =>
      simp only [Function.comp_def, valueAfter_lookup]
      rw [← ih, shown]
      have hnow : table.valueAfter [] name = table.find? name := rfl
      cases hfind : table.find? name <;> simp [AliasOperand.lookup?, hnow, hfind]

/-- What is not found are the names that have no value at their turn. -/
theorem unknown_eq (table : AliasTable) (operands : List AliasOperand) :
    table.unknown operands =
      ((lookups operands).filter fun turn => (table.valueAfter turn.1 turn.2).isNone).map (·.2) := by
  induction operands generalizing table with
  | nil => rfl
  | cons operand rest ih =>
    rw [AliasOperand.lookups_cons, List.filter_append, List.map_append, List.filter_map,
      List.map_map]
    cases operand with
    | define name value =>
      simp only [Function.comp_def, valueAfter_define]
      exact ih (table.define name value)
    | lookup name =>
      simp only [Function.comp_def, valueAfter_lookup]
      rw [← ih, unknown]
      have hnow : table.valueAfter [] name = table.find? name := rfl
      cases hfind : table.find? name <;> simp [AliasOperand.lookup?, hnow, hfind]

end AliasTable

/-! ## §3 The names of definitions -/

namespace AliasOperand

/-- A text that can be the name of a definition. -/
def IsName (name : String) : Prop :=
  name ≠ "" ∧ '=' ∉ name.toList

/-- What stands in front of the equals sign of a word, if anything does, is a
name. -/
theorem isName_of_cutAt {word before after : List Char}
    (h : Text.cutAt '=' word = some (before, after)) (hne : before ≠ []) :
    IsName (String.ofList before) :=
  ⟨by simpa using hne, by simpa using (Text.cutAt_eq_some h).2⟩

/-- What a word asks for or begins to ask for: if it is a definition, it is one
of a name. -/
inductive Named : AliasOperand ⊕ Open → Prop
  | lookup (name : String) : Named (.inl (.lookup name))
  | define {name : String} (h : IsName name) (value : String) : Named (.inl (.define name value))
  | pending {pending : Open} (h : IsName pending.name) : Named (.inr pending)

theorem named_begin (word : String) : Named (begin word) := by
  unfold begin
  cases hcut : Text.cutAt '=' word.toList with
  | none => exact .lookup word
  | some parts =>
    obtain ⟨before, after⟩ := parts
    cases before with
    | nil => exact .lookup word
    | cons c before =>
      have hname := isName_of_cutAt hcut (by simp)
      cases after with
      | nil => exact .define hname _
      | cons quote after =>
        dsimp only
        split
        · split
          · exact .define hname _
          · exact .pending hname
        · exact .define hname _

theorem isName_of_mem_ofWordsFrom {pending : Option Open} {words : List String}
    (hpending : ∀ held ∈ pending, IsName held.name) {name value : String}
    (h : .define name value ∈ ofWordsFrom pending words) : IsName name := by
  fun_induction ofWordsFrom pending words with
  | case1 => cases h
  | case2 held =>
    obtain ⟨rfl, -⟩ : name = held.name ∧ _ := by simpa using h
    exact hpending held rfl
  | case3 word rest operand hbegin ih =>
    have hnamed := named_begin word
    rw [hbegin] at hnamed
    rcases List.mem_cons.mp h with rfl | hrest
    · cases hnamed with
      | define hname => exact hname
    · exact ih (by simp) hrest
  | case4 word rest next hbegin ih =>
    have hnamed := named_begin word
    rw [hbegin] at hnamed
    cases hnamed with
    | pending hname => exact ih (by simpa using hname) h
  | case5 held word rest text hcloses ih =>
    have hheld := hpending held rfl
    rcases List.mem_cons.mp h with heq | hrest
    · obtain ⟨rfl, -⟩ : name = held.name ∧ _ := by simpa using heq
      exact hheld
    · exact ih (by simp) hrest
  | case6 held word rest text hopen ih =>
    have hheld := hpending held rfl
    exact ih (by simpa using hheld) h

/-- Words define names only. -/
theorem isName_of_mem_bindings {words : List String} {pair : String × String}
    (h : pair ∈ bindings (ofWords words)) : IsName pair.1 := by
  obtain ⟨operand, hmem, hpair⟩ := List.mem_filterMap.mp h
  cases operand with
  | lookup name => cases hpair
  | define name value =>
    cases hpair
    exact isName_of_mem_ofWordsFrom (by simp) hmem

end AliasOperand

end CommandShell
