/-
CommandShell.Proofs.Shell.AliasUse — an alias stands for the words of its
value.

§1 says what a line of words does (`executeLine_words`): it runs one command,
and two commands that come to the same prepared words run alike
(`runCommand_congr`). §2 runs the line that defines an alias
(`executeLine_define`): all it leaves is the alias. The main statement puts a
line that begins with the name next to one that begins with the words of the
value.
-/
import CommandShell.Proofs.Alias.Definition
import CommandShell.Proofs.Alias.Table
import CommandShell.Proofs.Builtin.Standard
import CommandShell.Proofs.Shell.Session
import CommandShell.Proofs.Syntax.RoundTrip

namespace CommandShell

open Token (IsWord)

/-! ## §1 Lines of words -/

namespace Scope

/-- A text without a dollar sign holds no reference. -/
theorem expandChars_of_plain (scope : Scope) {text : List Char} (h : '$' ∉ text) :
    scope.expandChars text = text := by
  induction text with
  | nil => simp [expandChars]
  | cons c rest ih =>
    obtain ⟨hc, hrest⟩ := not_or.mp (List.mem_cons.not.mp h)
    rw [expandChars, if_neg (Ne.symm hc), ih hrest]

theorem expand_of_plain (scope : Scope) {words : List String}
    (h : ∀ word ∈ words, '$' ∉ word.toList) : scope.expand words = words := by
  have hword : ∀ word ∈ words, scope.expandWord word = word := fun word hword => by
    rw [expandWord, expandChars_of_plain scope (h word hword), String.ofList_toList]
  rw [expand, List.map_congr_left hword, List.map_id']

end Scope

namespace AliasTable

/-- A command that names no alias is left as it is. -/
theorem expand_of_none {table : AliasTable} {command : String}
    (h : table.find? command = none) (operands : List String) :
    table.expand (command :: operands) = command :: operands := by
  simp [expand, h]

/-- The name of an alias gives way to the words of the value it was given. -/
theorem expand_define (table : AliasTable) (name : String) {words : List String}
    (h : ∀ word ∈ words, IsWord word) (operands : List String) :
    (table.define name (" ".intercalate words)).expand (name :: operands) = words ++ operands := by
  have hwords : Text.wordsOf (" ".intercalate words) = words :=
    Text.wordsOf_intercalate fun word hword => ⟨(h word hword).ne_empty, (h word hword).no_blank⟩
  simp [expand, find?_define, hwords]

end AliasTable

namespace Shell

/-- Words with single spaces between them are run as one command. -/
theorem executeLine_words (shell : Shell) {words : List String} (hne : words ≠ [])
    (h : ∀ word ∈ words, IsWord word) :
    shell.executeLine (" ".intercalate words) =
      { shell with lineNumber := shell.lineNumber + 1 }.runCommand words := by
  rw [executeLine_of_ok (Command.ofLine_words hne h)]
  exact Outcome.andThen_returned_self _

/-- A command is run by its words as they are prepared. -/
theorem runCommand_congr {shell : Shell} {words others : List String}
    (h : shell.prepare words = shell.prepare others) :
    shell.runCommand words = shell.runCommand others := by
  unfold runCommand
  rw [h]

/-! ## §2 The line that defines an alias -/

theorem runBuiltin_define {shell : Shell} {entry : Registry.Entry Action}
    (hentry : entry.handler = .aliases) {words : List String} {name value : String}
    (hne : words ≠ []) (h : AliasOperand.ofWords words = [.define name value]) :
    shell.runBuiltin entry "alias" words =
      ⟨{ shell with aliases := shell.aliases.define name value }, [], .returned 0⟩ := by
  have hreply := Builtin.perform_aliases hentry shell "alias" words
  simp [runBuiltin, hreply, h, hne, AliasTable.afterOperands, AliasTable.shown, AliasTable.unknown,
    resultEvents]

/-- The line that defines an alias defines it and does nothing else. -/
theorem executeLine_define {shell : Shell} (hbuiltins : shell.builtins = Builtin.standard)
    (halias : shell.aliases.find? "alias" = none) {name first : String} {more : List String}
    (hname : IsWord name) (hequals : '=' ∉ name.toList) (hdollar : '$' ∉ name.toList)
    (hwords : ∀ word ∈ first :: more, IsWord word ∧ '$' ∉ word.toList)
    (hquote : ∀ word ∈ (first :: more).dropLast, word.toList.getLast? ≠ some '\'') :
    let value := " ".intercalate (first :: more)
    ∃ message, shell.executeLine ("alias " ++ aliasDefinition name value) =
      ⟨{ shell with
          lineNumber := shell.lineNumber + 1
          aliases := shell.aliases.define name value
          lastStatus := 0 },
        [.dispatch ("alias" :: definitionWords name first more), .log .dispatcher message],
        .returned 0⟩ := by
  intro value
  have hne : definitionWords name first more ≠ [] := closedWords_ne_nil _ _
  have hline : "alias " ++ aliasDefinition name value =
      " ".intercalate ("alias" :: definitionWords name first more) := by
    rw [String.intercalate_cons_of_ne_nil hne, intercalate_definitionWords]
    rfl
  have hstanding : ∀ word ∈ "alias" :: definitionWords name first more, IsWord word := by
    have hdefinition := isWord_definitionWords hname fun word hword => (hwords word hword).1
    simpa using ⟨by decide, hdefinition⟩
  have hplain : ∀ word ∈ "alias" :: definitionWords name first more, '$' ∉ word.toList := by
    have hdefinition := dollar_not_mem_definitionWords hdollar fun word hword =>
      (hwords word hword).2
    simpa using hdefinition
  have hprepared : { shell with lineNumber := shell.lineNumber + 1 }.prepare
      ("alias" :: definitionWords name first more) =
        "alias" :: definitionWords name first more := by
    rw [prepare, AliasTable.expand_of_none halias, Scope.expand_of_plain _ hplain]
  obtain ⟨entry, hlookup, hentry⟩ := Builtin.IsStandard.aliases.exists_lookup
  rw [← hbuiltins] at hlookup
  have hoperand := AliasOperand.ofWords_definitionWords hname.ne_empty hequals hquote
  refine ⟨"builtin " ++ entry.name ++ " " ++
    Text.quotedList (definitionWords name first more), ?_⟩
  rw [hline, executeLine_words shell (by simp) hstanding, runCommand, hprepared, runPrepared]
  simp only [hlookup]
  rw [runBuiltin_define hentry hne hoperand]
  rfl

/-- Where the first word of the value is no alias, the name of the alias and
the words of its value prepare the same command. -/
theorem prepare_define {shell : Shell} {table : AliasTable} {name first : String}
    {more : List String}
    (haliases : shell.aliases = table.define name (" ".intercalate (first :: more)))
    (hwords : ∀ word ∈ first :: more, IsWord word) (hfirst : first ≠ name)
    (hunknown : table.find? first = none) (rest : List String) :
    shell.prepare (name :: rest) = shell.prepare (first :: more ++ rest) := by
  have hnone : (table.define name (" ".intercalate (first :: more))).find? first = none := by
    rw [AliasTable.find?_define, if_neg (Ne.symm hfirst), hunknown]
  rw [prepare, prepare, haliases, AliasTable.expand_define _ _ hwords, List.cons_append,
    AliasTable.expand_of_none hnone]

end Shell

/-- **An alias stands for the words of its value.** In every state of a session
in which the name of the builtin is not an alias itself, a line that defines an
alias with words that hold no reference returns zero and writes and starts
nothing. In the state that it leaves, the name of the alias and the words of
its value begin two lines that run alike, in all that is seen of them and in
all that they leave, whatever words follow. None of the words but the last may
end in the quote that the value stands in, and the first may not be an alias:
aliases are looked up once. -/
theorem alias_means_value {count : Nat} {shell : Shell} (h : Session count shell)
    (halias : shell.aliases.find? "alias" = none) {name first : String} {more : List String}
    (hname : IsWord name) (hequals : '=' ∉ name.toList) (hdollar : '$' ∉ name.toList)
    (hwords : ∀ word ∈ first :: more, IsWord word ∧ '$' ∉ word.toList)
    (hquote : ∀ word ∈ (first :: more).dropLast, word.toList.getLast? ≠ some '\'')
    (hfirst : first ≠ name) (hunknown : shell.aliases.find? first = none)
    {rest : List String} (hrest : ∀ word ∈ rest, IsWord word) :
    let defining :=
      shell.executeLine ("alias " ++ name ++ "='" ++ " ".intercalate (first :: more) ++ "'")
    (defining.ending = .returned 0 ∧ defining.transcript.output = "" ∧
      defining.transcript.errors false = "" ∧ defining.transcript.attempts = []) ∧
    defining.shell.executeLine (" ".intercalate (name :: rest)) =
      defining.shell.executeLine (" ".intercalate (first :: more ++ rest)) := by
  intro defining
  have hvalue : ∀ word ∈ first :: more, IsWord word := fun word hword => (hwords word hword).1
  obtain ⟨message, hdefine⟩ :=
    Shell.executeLine_define h.builtins halias hname hequals hdollar hwords hquote
  have hline : "alias " ++ name ++ "='" ++ " ".intercalate (first :: more) ++ "'" =
      "alias " ++ aliasDefinition name (" ".intercalate (first :: more)) := by
    simp only [aliasDefinition, String.append_assoc]
  have hdefining : defining = _ := hline ▸ hdefine
  have hshort : ∀ word ∈ name :: rest, IsWord word := by simpa using ⟨hname, hrest⟩
  have hlong : ∀ word ∈ first :: more ++ rest, IsWord word := fun word hword =>
    (List.mem_append.mp hword).elim (hvalue word) (hrest word)
  refine ⟨?_, ?_⟩
  · rw [hdefining]
    exact ⟨rfl, rfl, rfl, rfl⟩
  · rw [Shell.executeLine_words _ (by simp) hshort, Shell.executeLine_words _ (by simp) hlong]
    refine Shell.runCommand_congr (Shell.prepare_define ?_ hvalue hfirst hunknown rest)
    rw [hdefining]

/-- An alias for a builtin, with the name of another: its value defines an
alias in turn, and holds quotes, a single ampersand and a single bar. -/
theorem alias_means_value_nested :
    let shell : Shell :=
      { programName := "minish", processId := 1, environment := .ofPairs [], world := {},
        builtins := Builtin.standard }
    let defining := shell.executeLine "alias help='alias x='a& b'c |d''"
    Session 0 shell ∧ defining.ending = .returned 0 ∧
      defining.shell.executeLine "help y $?" =
        defining.shell.executeLine "alias x='a& b'c |d' y $?" ∧
      (defining.shell.executeLine "help y $?").shell.aliases.find? "x" = some "a& b'c |d" ∧
      (defining.shell.executeLine "help y $?").transcript.errors false =
        "minish: 2: alias: y not found\nminish: 2: alias: 0 not found\n" := by
  intro shell defining
  have hsession : Session 0 shell := .start "minish" 1 [] {}
  have hmeans := @alias_means_value 0 shell hsession rfl "help" "alias" ["x='a&", "b'c", "|d'"]
    (by decide) (by decide) (by decide) (by decide) (by decide) (by decide) rfl ["y", "$?"]
    (by decide)
  have hline : "alias " ++ "help" ++ "='" ++
      " ".intercalate ["alias", "x='a&", "b'c", "|d'"] ++ "'" =
        "alias help='alias x='a& b'c |d''" := by
    decide +kernel
  rw [hline] at hmeans
  exact ⟨hsession, hmeans.1.1, hmeans.2, by decide +kernel, by decide +kernel⟩

end CommandShell
