/-
CommandShell.Proofs.Shell.AliasCommands — what a command for aliases shows and
defines, and what a session has defined.

§1 puts the turns of the operands together for one command (`InTurn`). For a
whole session, all that counts is which definitions its commands made, one after
the other. They are read off the words with which the commands are on record
(`Event.definitions`). §2 says of one command, and by way of `Compositional` of
everything that can be run, that the table after it is the one before it with
these definitions made (`Defining`). §3 takes this along a session. Where it
began without aliases, the table has each name once, at the place of its first
definition and with the value of its last (`Recalls`).
-/
import CommandShell.Proofs.Alias.Turns
import CommandShell.Proofs.Shell.Requests

namespace CommandShell

open AliasOperand (bindings lookups)

/-! ## §1 One command -/

theorem Text.join_eq_empty_iff {texts : List String} :
    String.join texts = "" ↔ ∀ text ∈ texts, text = "" := by
  induction texts with
  | nil => simp
  | cons text rest ih => simp [String.join_cons, ih]

namespace Shell

theorem diagnosticLine_ne_empty (shell : Shell) (diagnostic : Diagnostic) :
    shell.diagnosticLine diagnostic ≠ "" := by
  intro h
  have hends := congrArg String.toList h
  simp [diagnosticLine] at hends

/-- The outcome is that of operands that have their turns from left to right. A
look-up goes by the definitions to its left and then by the table before the
command. -/
structure InTurn (shell : Shell) (operands : List AliasOperand) (outcome : Outcome) : Prop where
  output : outcome.transcript.output =
    String.join ((lookups operands).filterMap fun turn =>
      (shell.aliases.valueAfter turn.1 turn.2).map fun value =>
        aliasDefinition turn.2 value ++ "\n")
  errors : outcome.transcript.errors false =
    String.join (((lookups operands).filter fun turn =>
      (shell.aliases.valueAfter turn.1 turn.2).isNone).map fun turn =>
        shell.diagnosticLine (.noAlias turn.2))
  ending : outcome.ending = .returned (if outcome.transcript.errors false = "" then 0 else 1)
  values : ∀ name, outcome.shell.aliases.find? name = shell.aliases.valueAfter operands name
  names : outcome.shell.aliases.entries.keys =
    shell.aliases.entries.keys ++
      ((Bindings.keys (bindings operands)).filter fun name =>
        name ∉ shell.aliases.entries.keys).eraseDups
  others : outcome.shell = { shell with aliases := outcome.shell.aliases }

variable {shell : Shell}

/-- What becomes of a command for aliases, with operands or with none. -/
theorem runPrepared_alias (h : shell.builtins = Builtin.standard) (words : List String) :
    let operands := AliasOperand.ofWords words
    let outcome := shell.runPrepared ("alias" :: words)
    outcome.shell = { shell with aliases := shell.aliases.defineAll (bindings operands) } ∧
      outcome.transcript.output =
        String.join ((if words = [] then shell.aliases.definitions
          else shell.aliases.shown operands).map (· ++ "\n")) ∧
      outcome.transcript.errors false =
        String.join ((shell.aliases.unknown operands).map fun name =>
          shell.diagnosticLine (.noAlias name)) ∧
      outcome.ending = .returned (if shell.aliases.unknown operands = [] then 0 else 1) := by
  intro operands outcome
  obtain ⟨entry, hlookup, hentry⟩ := Builtin.IsStandard.aliases.exists_lookup
  have hanswer := Builtin.perform_aliases hentry shell "alias" words
  have hrun : outcome = _ := runPrepared_builtin (h ▸ hlookup) words
  refine ⟨?_, ?_, ?_, ?_⟩
  · rw [← AliasTable.afterOperands_eq, hrun, Outcome.after_shell, shell_runBuiltin, hanswer]
  · rw [hrun, Outcome.after_transcript, List.singleton_append, Transcript.output_cons,
      output_runBuiltin, hanswer]
    exact String.empty_append
  · rw [hrun, Outcome.after_transcript, Transcript.errors_append]
    simp [runBuiltin, hanswer, errors_resultEvents, Event.errorText, operands]
  · rw [hrun, Outcome.after_ending, ending_runBuiltin, hanswer]
    rfl

theorem inTurn_runPrepared (h : shell.builtins = Builtin.standard) {words : List String}
    (hwords : words ≠ []) :
    InTurn shell (AliasOperand.ofWords words) (shell.runPrepared ("alias" :: words)) := by
  obtain ⟨hshell, houtput, herrors, hending⟩ := runPrepared_alias h words
  generalize AliasOperand.ofWords words = operands at hshell houtput herrors hending ⊢
  generalize shell.runPrepared ("alias" :: words) = outcome at hshell houtput herrors hending ⊢
  -- No report is empty, so nothing is written exactly if every name is found.
  have hsilent : outcome.transcript.errors false = "" ↔ shell.aliases.unknown operands = [] := by
    rw [herrors, Text.join_eq_empty_iff, List.eq_nil_iff_forall_not_mem]
    simp [shell.diagnosticLine_ne_empty]
  exact {
    output := by
      rw [houtput, if_neg hwords, AliasTable.shown_eq, List.map_filterMap]
      simp [Function.comp_def]
    errors := by
      rw [herrors, AliasTable.unknown_eq, List.map_map]
      rfl
    ending := by
      rw [hending]
      simp only [hsilent]
    values name := by rw [hshell, AliasTable.find?_defineAll, AliasTable.valueAfter]
    names := by
      rw [hshell]
      exact Bindings.keys_foldl_insert (bindings operands) shell.aliases.entries
    others := by rw [hshell] }

end Shell

/-! ## §2 Commands and runs -/

/-- The definitions that a command makes, given its words as they are prepared. -/
def definitionsOf : List String → List (String × String)
  | [] => []
  | name :: operands => if name = "alias" then bindings (AliasOperand.ofWords operands) else []

/-- The definitions that are made by the command that an event begins. -/
def Event.definitions : Event → List (String × String)
  | .dispatch words => definitionsOf words
  | _ => []

/-- The definitions that are made by all commands that begin, in order. -/
def Transcript.definitions (transcript : Transcript) : List (String × String) :=
  transcript.flatMap Event.definitions

namespace Transcript

theorem definitions_append (before after : Transcript) :
    definitions (before ++ after) = before.definitions ++ after.definitions :=
  List.flatMap_append

theorem definitions_of_dispatched_eq_nil {transcript : Transcript}
    (h : transcript.dispatched = []) : transcript.definitions = [] := by
  refine List.flatMap_eq_nil_iff.mpr fun event hevent => ?_
  have hdispatched := List.filterMap_eq_nil_iff.mp h event hevent
  cases event with
  | dispatch words => cases hdispatched
  | _ => rfl

end Transcript

namespace Builtin

theorem Update.aliases_eq {shell : Shell} {change : Environment → Prop} {answer : Shell × Reply}
    (h : Update shell change answer) : answer.1.aliases = shell.aliases := by
  cases h <;> rfl

theorem aliases_cd (shell : Shell) (operands : List String) :
    (cd shell operands).1.aliases = shell.aliases := by
  obtain ⟨environment, world, -, hshell⟩ := cd_touches shell operands
  rw [hshell]

end Builtin

/-- The table is the one before with the definitions made of the commands that
an outcome shows. -/
structure Defining (shell : Shell) (outcome : Outcome) : Prop where
  builtins : outcome.shell.builtins = Builtin.standard
  aliases : outcome.shell.aliases = shell.aliases.defineAll outcome.transcript.definitions

namespace Shell

variable {shell : Shell}

theorem aliases_runPrepared (h : shell.builtins = Builtin.standard) (words : List String) :
    (shell.runPrepared words).shell.aliases = shell.aliases.defineAll (definitionsOf words) := by
  cases words with
  | nil => rfl
  | cons command operands =>
    cases hlookup : shell.builtins.lookup command with
    | none =>
      have hname : command ≠ "alias" := fun heq =>
        not_isStandard_of_lookup h hlookup .aliases (heq ▸ .aliases)
      rw [runPrepared]
      simp only [hlookup]
      rw [shell_runExternal, definitionsOf, if_neg hname]
      rfl
    | some entry =>
      have hstandard := Builtin.isStandard_of_lookup (h ▸ hlookup)
      rw [runPrepared_builtin hlookup, Outcome.after_shell, shell_runBuiltin]
      generalize entry.handler = action at hstandard
      cases hstandard with
      | exit => rfl
      | env => rfl
      | help => rfl
      | setenv => exact (Builtin.update_setenv shell operands).aliases_eq
      | unsetenv => exact (Builtin.update_unsetenv shell operands).aliases_eq
      | cd => exact Builtin.aliases_cd shell operands
      | aliases =>
        rw [Builtin.perform_aliases rfl]
        exact AliasTable.afterOperands_eq shell.aliases (AliasOperand.ofWords operands)

theorem defining_runCommand (h : shell.builtins = Builtin.standard) (words : List String) :
    Defining shell (shell.runCommand words) := by
  have hquiet := Transcript.definitions_of_dispatched_eq_nil
    (effects_runPrepared shell (shell.prepare words)).dispatched
  obtain ⟨status, hshell⟩ := exists_shell_runCommand shell words
  refine ⟨(frame_runCommand shell words).builtins.trans h, ?_⟩
  rw [hshell, transcript_runCommand, ← List.singleton_append, Transcript.definitions_append, hquiet,
    List.append_nil]
  simpa [Transcript.definitions, Event.definitions] using aliases_runPrepared h (shell.prepare words)

end Shell

namespace Defining

variable {shell : Shell} {outcome : Outcome}

theorem quiet (h : shell.builtins = Builtin.standard) (ending : Ending) :
    Defining shell ⟨shell, [], ending⟩ :=
  ⟨h, rfl⟩

theorem after (h : Defining shell outcome) {events : Transcript} (hevents : events.dispatched = []) :
    Defining shell (outcome.after events) := by
  refine ⟨h.builtins, ?_⟩
  rw [Outcome.after_transcript, Transcript.definitions_append,
    Transcript.definitions_of_dispatched_eq_nil hevents]
  exact h.aliases

theorem andThen (h : Defining shell outcome) {next : Shell → Int → Outcome}
    (hnext : ∀ shell status, shell.builtins = Builtin.standard → Defining shell (next shell status)) :
    Defining shell (outcome.andThen next) := by
  by_cases hreturned : ∃ status, outcome.ending = .returned status
  · obtain ⟨status, hstatus⟩ := hreturned
    have hafter := hnext outcome.shell status h.builtins
    rw [Outcome.andThen_of_returned next hstatus]
    refine ⟨hafter.builtins, ?_⟩
    rw [Outcome.after_transcript, Transcript.definitions_append, AliasTable.defineAll_append,
      ← h.aliases]
    exact hafter.aliases
  · rw [Outcome.andThen_of_not_returned next (by simpa using hreturned)]
    exact h

end Defining

/-- Definitions are made one after the other as commands are run. -/
theorem compositional_defining :
    Compositional (fun shell => shell.builtins = Builtin.standard) (fun _ => True) Defining where
  returned hbuiltins _ := .quiet hbuiltins _
  broken hbuiltins _ := .quiet hbuiltins _
  command hbuiltins words := Shell.defining_runCommand hbuiltins words
  andThen hdefining hnext := hdefining.andThen fun shell status hbuiltins =>
    hnext shell status hbuiltins trivial
  after hdefining _ _ hdispatched := hdefining.after hdispatched
  start hdefining := ⟨hdefining.builtins, hdefining.aliases⟩
  fault _ := trivial
  lastStatus _ := trivial
  settled hbuiltins _ := hbuiltins
  numbered hbuiltins _ := hbuiltins

/-! ## §3 Sessions on record -/

/-- The definitions that are made by the commands on record, in order. -/
def Entry.definitions : Entry → List (String × String)
  | .event seen => seen.definitions
  | .world _ => []

/-- The entries of a table that began empty: each name that is defined stands at
the place of its first definition and has the value of its last. -/
structure AliasTable.Recalls (pairs : List (String × String)) (entries : Bindings String) :
    Prop where
  names : entries.keys = (Bindings.keys pairs).eraseDups
  values : ∀ entry ∈ entries, Bindings.lastValue? pairs entry.1 = some entry.2

theorem AliasTable.recalls_defineAll (pairs : List (String × String)) :
    Recalls pairs (({} : AliasTable).defineAll pairs).entries where
  names := by
    have hkeys := Bindings.keys_foldl_insert pairs ([] : Bindings String)
    simpa [Bindings.keys, AliasTable.defineAll] using hkeys
  values entry hentry := by
    have hempty : (Bindings.keys ([] : Bindings String)).Nodup := List.nodup_nil
    have hfind := Bindings.find?_of_mem (Bindings.keys_nodup_foldl_insert pairs hempty) hentry
    rw [Bindings.find?_foldl_insert] at hfind
    simpa using hfind

/-- A session that goes on from any table has made the definitions on record. -/
theorem Recorded.defines {start shell : Shell} {record : List Entry}
    (h : Recorded start record shell) (hbuiltins : start.builtins = Builtin.standard) :
    shell.builtins = Builtin.standard ∧
      shell.aliases = start.aliases.defineAll (record.flatMap Entry.definitions) := by
  induction h with
  | start => exact ⟨hbuiltins, rfl⟩
  | run _ hrun ih =>
    -- What the runs before have defined is in the table from which this one starts.
    have hdefining := compositional_defining.runs ih.1 hrun
    refine ⟨hdefining.builtins, ?_⟩
    rw [List.flatMap_append, AliasTable.defineAll_append, ← ih.2, List.flatMap_map]
    exact hdefining.aliases
  | world _ world ih =>
    refine ⟨ih.1, ?_⟩
    rw [List.flatMap_append, List.flatMap_singleton]
    simpa [Entry.definitions] using ih.2

theorem isName_of_mem_definitions {record : List Entry} {pair : String × String}
    (h : pair ∈ record.flatMap Entry.definitions) : AliasOperand.IsName pair.1 := by
  obtain ⟨entry, -, hpair⟩ := List.mem_flatMap.mp h
  cases entry with
  | world world => cases hpair
  | event event =>
    cases event with
    | dispatch words =>
      cases words with
      | nil => cases hpair
      | cons command operands =>
        simp only [Entry.definitions, Event.definitions, definitionsOf] at hpair
        split at hpair
        · exact AliasOperand.isName_of_mem_bindings hpair
        · cases hpair
    | _ => cases hpair

/-- **Operands have their turns from left to right, and what they define
stays.** In any session, whatever aliases it began with, the operands of a
command for aliases are handled one after the other: what is shown, what is not
found, the status and the table after it are as `InTurn` has them. If the
session began without aliases, the same command without operands shows one line
for each name that a command has defined since, in the order of first
definition, each with the value that was defined last; and these are all names
that are not empty and hold no equals sign. -/
theorem alias_operands_in_turn {start shell : Shell} {record : List Entry}
    (hbuiltins : start.builtins = Builtin.standard) (h : Recorded start record shell) :
    (∀ words ≠ [],
      shell.InTurn (AliasOperand.ofWords words) (shell.runPrepared ("alias" :: words))) ∧
    (start.aliases = {} →
      let outcome := shell.runPrepared ["alias"]
      ∃ entries, AliasTable.Recalls (record.flatMap Entry.definitions) entries ∧
        (∀ entry ∈ entries, AliasOperand.IsName entry.1) ∧
        outcome.transcript.output =
          String.join (entries.map fun entry => aliasDefinition entry.1 entry.2 ++ "\n") ∧
        outcome.transcript.errors false = "" ∧
        outcome.ending = .returned 0 ∧
        outcome.shell = shell) := by
  obtain ⟨hstandard, haliases⟩ := h.defines hbuiltins
  refine ⟨fun words hwords => Shell.inTurn_runPrepared hstandard hwords, fun hempty => ?_⟩
  obtain ⟨hshell, houtput, herrors, hending⟩ := Shell.runPrepared_alias hstandard []
  rw [hempty] at haliases
  have hrecalls := AliasTable.recalls_defineAll (record.flatMap Entry.definitions)
  rw [← haliases] at hrecalls
  refine ⟨shell.aliases.entries, hrecalls, fun entry hentry => ?_, ?_, herrors, hending, hshell⟩
  · have hdefined := Bindings.mem_of_lastValue? (hrecalls.values entry hentry)
    exact isName_of_mem_definitions hdefined
  · rw [houtput, if_pos rfl, AliasTable.definitions, List.map_map]
    rfl

/-- A look-up before and one after the definition of its name, and a name whose
new value comes from a variable and stands at the old place. -/
theorem alias_operands_in_turn_redefined :
    let start : Shell :=
      { programName := "minish", processId := 1, environment := {}, world := {},
        builtins := Builtin.standard }
    let first := start.runText "alias a=1 b='x  y'\nsetenv A a=2\nalias $A"
    let words := ["c", "c=3", "a", "c", "a=4"]
    let defined := first.shell.runPrepared ("alias" :: words)
    let listed := first.shell.runPrepared ["alias"]
    first.transcript.definitions = [("a", "1"), ("b", "x y"), ("a", "2")] ∧
      first.shell.InTurn (AliasOperand.ofWords words) defined ∧
      defined.transcript.output = "a='2'\nc='3'\n" ∧
      defined.transcript.errors false = "minish: 3: alias: c not found\n" ∧
      listed.transcript.output = "a='2'\nb='x y'\n" ∧
      ∃ entries,
        AliasTable.Recalls ((first.transcript.map Entry.event).flatMap Entry.definitions) entries ∧
          listed.transcript.output =
            String.join (entries.map fun entry => aliasDefinition entry.1 entry.2 ++ "\n") := by
  intro start first words defined listed
  have hrecord : Recorded start (first.transcript.map Entry.event) first.shell :=
    .run .start (.text _)
  obtain ⟨hturns, hlisting⟩ := alias_operands_in_turn rfl hrecord
  obtain ⟨entries, hrecalls, -, houtput, -⟩ := hlisting rfl
  exact ⟨by decide +kernel, hturns words (by decide), by decide +kernel, by decide +kernel,
    by decide +kernel, entries, hrecalls, houtput⟩

end CommandShell
