/-
CommandShell.Proofs.CommandLine.Sources — commands of the command line are not
mixed with standard input.

§1 looks at the ways to run commands. The lines of a text and those of a script
take no part in the conversation with whoever is at standard input; the two
loops over standard input read from it at least once, whatever is there.
§2 therefore decides for any command line whether the run depends on standard
input (`ignoresInput_iff`): it does just if the options were understood, the log
could be set up, and there is neither a command text nor a script. The script is
taken by its truth value, and so the empty operand counts as none.
§3 reads the two kinds of command lines that bring their own commands.
-/
import CommandShell.CommandLine.Run
import CommandShell.Proofs.Shell.Loops
import CommandShell.Proofs.Shell.Scripts

namespace CommandShell

/-! ## §1 What the ways to run commands read -/

namespace Shell

theorem ofConversation_runLines (shell : Shell) (lines : List String) :
    (shell.runLines lines).transcript.ofConversation = [] := by
  induction lines generalizing shell with
  | nil => rfl
  | cons line rest ih =>
    exact ofConversation_andThen (ofConversation_executeLine shell line) fun shell _ => ih shell

theorem ofConversation_runScript (shell : Shell) (path : String) :
    (shell.runScript path).transcript.ofConversation = [] := by
  unfold runScript
  split
  · rfl
  · rw [rejectScript_eq]
    rfl
  · rw [Outcome.after_transcript, Transcript.ofConversation_append, ofConversation_runLines]
    rfl

/-- The end of the input has to be read, too. -/
theorem read_mem_runInput (shell : Shell) (input : List Read) :
    .read ∈ (shell.runInput input).transcript := by
  cases input with
  | nil => exact List.mem_cons_self
  | cons item rest =>
    cases item with
    | interrupt => exact List.mem_cons_self
    | line text =>
      unfold runInput
      split <;> exact List.mem_cons_self

theorem read_mem_runPrompted (shell : Shell) (input : List Read) :
    .read ∈ (shell.runPrompted input).transcript := by
  cases input with
  | nil => exact List.mem_cons_of_mem _ List.mem_cons_self
  | cons item rest =>
    cases item with
    | interrupt => exact List.mem_cons_of_mem _ List.mem_cons_self
    | line text =>
      unfold runPrompted
      split <;> exact List.mem_cons_of_mem _ List.mem_cons_self

end Shell

/-! ## §2 Runs that do not look at standard input -/

open CommandLine (run runShell initialShell showsDebugging defaultLevel)

/-- A run does not look at standard input: it is the same one whatever is there,
at a terminal or not, and it neither prompts nor reads. -/
structure Invocation.IgnoresInput (invocation : Invocation) : Prop where
  same : ∀ terminal input, run { invocation with terminal, input } = run invocation
  silent : (run invocation).transcript.ofConversation = []

/-- The options bring a command text, or the name of a script. -/
def Options.BringCommands (options : Options) : Prop :=
  options.command.isSome ∨ ∃ path, path ≠ "" ∧ options.script = some path

/-- What a run comes to whose commands have the given outcome. There are none if
the log cannot be set up. -/
def Invocation.completion (invocation : Invocation) (level : Setting) (outcome : Outcome) :
    Completion :=
  match showsDebugging level with
  | .error breakdown => { status := .error breakdown, world := invocation.world }
  | .ok logging =>
    { status := outcome.status
      transcript := outcome.transcript
      logging
      world := outcome.shell.world }

namespace CommandLine

variable {invocation : Invocation} {options : Options}

/-- What the arguments ask for. -/
def request (invocation : Invocation) : Request :=
  Options.ofArguments (defaultLevel invocation.environment) invocation.arguments

theorem run_of_options (h : request invocation = .run options) :
    run invocation = invocation.completion options.logLevel (runShell invocation options) := by
  rw [request] at h
  rw [run, h]
  rfl

theorem runShell_of_text {text : String} (h : options.command = some (.text text)) :
    runShell invocation options = (initialShell invocation).runText text := by
  simp only [runShell, h]

theorem runShell_of_script {path : String} (hcommand : options.command = none)
    (hpath : path ≠ "") (hscript : options.script = some path) :
    runShell invocation options = (initialShell invocation).runScript path := by
  simp [runShell, hcommand, hscript, hpath, Option.filter]

/-- Commands that the options bring are all that is run. -/
theorem runShell_of_bringCommands (h : options.BringCommands) (terminal : Bool)
    (input : List Read) :
    runShell { invocation with terminal, input } options = runShell invocation options ∧
      (runShell invocation options).transcript.ofConversation = [] := by
  cases hcommand : options.command with
  | some setting =>
    cases setting with
    | text text =>
      rw [runShell_of_text hcommand, runShell_of_text hcommand]
      exact ⟨rfl, Shell.ofConversation_runLines _ _⟩
    | void =>
      simp only [runShell, hcommand]
      exact ⟨rfl, rfl⟩
  | none =>
    rcases h with hsome | ⟨path, hpath, hscript⟩
    · rw [hcommand] at hsome
      cases hsome
    · rw [runShell_of_script hcommand hpath hscript, runShell_of_script hcommand hpath hscript]
      exact ⟨rfl, Shell.ofConversation_runScript _ _⟩

/-- Without them standard input is read. -/
theorem read_mem_runShell (h : ¬options.BringCommands) :
    .read ∈ (runShell invocation options).transcript := by
  simp only [Options.BringCommands, not_or, not_exists, not_and] at h
  obtain ⟨hcommand, hscript⟩ := h
  have hnone : options.command = none := by simpa using hcommand
  have hfilter : options.script.filter (· ≠ "") = none := by
    refine Option.filter_eq_none_iff.mpr fun path hpath => ?_
    by_contra hne
    exact hscript path (by simpa using hne) hpath
  simp only [runShell, hnone, hfilter]
  split
  · exact Shell.read_mem_runPrompted _ _
  · exact Shell.read_mem_runInput _ _

end CommandLine

open CommandLine (request)

variable {invocation : Invocation} {options : Options}

namespace Invocation.IgnoresInput

/-- It is enough to know the run for every standard input. -/
theorem of_forall {completion : Completion}
    (h : ∀ terminal input, run { invocation with terminal, input } = completion)
    (hsilent : completion.transcript.ofConversation = []) : invocation.IgnoresInput := by
  have hself : run invocation = completion := h invocation.terminal invocation.input
  exact ⟨fun terminal input => (h terminal input).trans hself.symm, hself ▸ hsilent⟩

/-- Standard input does not matter to options that bring their commands. -/
theorem of_bringCommands (hrequest : request invocation = .run options)
    (h : options.BringCommands) : invocation.IgnoresInput := by
  have hrun : ∀ terminal input, run { invocation with terminal, input } =
      invocation.completion options.logLevel (runShell invocation options) := by
    intro terminal input
    have hother : request { invocation with terminal, input } = .run options := hrequest
    rw [CommandLine.run_of_options hother,
      (CommandLine.runShell_of_bringCommands h terminal input).1]
    rfl
  refine of_forall hrun ?_
  rw [completion]
  split
  · rfl
  · exact (CommandLine.runShell_of_bringCommands h false []).2

/-- Where the log cannot be set up no commands are run. -/
theorem of_unlogged {breakdown : Breakdown} (hrequest : request invocation = .run options)
    (h : showsDebugging options.logLevel = .error breakdown) : invocation.IgnoresInput := by
  have hrun : ∀ terminal input, run { invocation with terminal, input } =
      { status := .error breakdown, world := invocation.world } := by
    intro terminal input
    have hother : request { invocation with terminal, input } = .run options := hrequest
    rw [CommandLine.run_of_options hother, completion, h]
  exact of_forall hrun rfl

theorem of_help (hrequest : request invocation = .help) : invocation.IgnoresInput := by
  rw [request] at hrequest
  have hrun : ∀ terminal input, run { invocation with terminal, input } =
      { status := .ok 0, transcript := [.output CommandLine.helpText],
        world := invocation.world } :=
    fun _ _ => by simp only [run, hrequest]
  exact of_forall hrun rfl

theorem of_misuse {message : String} (hrequest : request invocation = .misuse message) :
    invocation.IgnoresInput := by
  rw [request] at hrequest
  have hrun : ∀ terminal input, run { invocation with terminal, input } =
      { status := .ok 2, transcript := [.errors (CommandLine.misuseText message)],
        world := invocation.world } :=
    fun _ _ => by simp only [run, hrequest]
  exact of_forall hrun rfl

end Invocation.IgnoresInput

/-- **Which runs look at standard input**, for any command line: those whose
options bring no commands, if the log can be set up. -/
theorem Invocation.ignoresInput_iff (invocation : Invocation) :
    invocation.IgnoresInput ↔ ∀ options logging, request invocation = .run options →
      showsDebugging options.logLevel = .ok logging → options.BringCommands := by
  refine ⟨fun h options logging hrequest hlogging => ?_, fun h => ?_⟩
  · by_contra hbring
    have hread : Event.read ∈ (run invocation).transcript := by
      rw [CommandLine.run_of_options hrequest, completion, hlogging]
      exact CommandLine.read_mem_runShell hbring
    have : Event.read ∈ (run invocation).transcript.ofConversation :=
      List.mem_filter.mpr ⟨hread, rfl⟩
    rw [h.silent] at this
    cases this
  · cases hrequest : request invocation with
    | help => exact .of_help hrequest
    | misuse message => exact .of_misuse hrequest
    | run options =>
      cases hlogging : showsDebugging options.logLevel with
      | ok logging => exact .of_bringCommands hrequest (h options logging hrequest hlogging)
      | error breakdown => exact .of_unlogged hrequest hlogging

/-! ## §3 Command lines that bring commands -/

namespace Argument

/-- What has no dash in front is an operand. -/
theorem ofText_operand {text : String} (h : text.toList.head? ≠ some '-') :
    ofText text = .ok (.operand text) := by
  unfold ofText
  split
  · next hchars => simp [hchars] at h
  · next hchars => simp [hchars] at h
  · next hchars => simp [hchars] at h
  · rfl

theorem ofTexts_operand {text : String} (h : text.toList.head? ≠ some '-') (rest : List String) :
    ofTexts (text :: rest) = (ofTexts rest).map (.operand text :: ·) := by
  rw [ofTexts, ofText_operand h]

theorem ofTexts_command (rest : List String) :
    ofTexts ("-c" :: rest) = (ofTexts rest).map (.options (.ok { last := .command }) :: ·) := by
  rw [ofTexts]
  rfl

end Argument

namespace Options

/-- A lone operand is the script. -/
theorem ofArguments_script (level : String) {script : String}
    (h : script.toList.head? ≠ some '-') :
    ofArguments level [script] = .run { logLevel := .text level, script := some script } := by
  rw [ofArguments, Argument.ofTexts_operand h]
  rfl

/-- What has no dash in front is taken as the command text. -/
theorem ofArguments_text (level : String) {text : String} (h : text.toList.head? ≠ some '-') :
    ofArguments level ["-c", text] =
      .run { logLevel := .text level, command := some (.text text) } := by
  have hvalue : Setting.ofValue text = .text text := by
    refine if_neg fun htext => h ?_
    rw [htext]
    rfl
  rw [ofArguments, Argument.ofTexts_command, Argument.ofTexts_operand h]
  show Request.run { logLevel := .text level, command := some (Setting.ofValue text) } = _
  rw [hvalue]

/-- The command option takes its value from the next argument, or it is
misused. -/
theorem command_of_ofArguments {level text : String} {options : Options}
    (h : ofArguments level ["-c", text] = .run options) : options.command.isSome := by
  rw [ofArguments, Argument.ofTexts_command, Argument.ofTexts] at h
  cases hargument : Argument.ofText text with
  | error message =>
    rw [hargument] at h
    cases h
  | ok argument =>
    rw [hargument] at h
    cases argument with
    | operand value =>
      cases h
      rfl
    | terminator => cases h
    | options group => cases h
    | unknown other => cases h

end Options

/-- **The command line is not mixed with standard input.** With a command text
the run is the same one whatever standard input is, and reads nothing from it,
and so it is with a script. What is run is the text or the script, just as it is
without a command line around it. The empty operand is the exception: it is
taken for no script at all, and the commands are those of standard input. -/
theorem commands_apart_from_input (invocation : Invocation) :
    let level : Setting := .text (defaultLevel invocation.environment)
    let shell := initialShell invocation
    (∀ text, { invocation with arguments := ["-c", text] }.IgnoresInput) ∧
    (∀ text, text.toList.head? ≠ some '-' →
      run { invocation with arguments := ["-c", text] } =
        invocation.completion level (shell.runText text)) ∧
    (∀ script, script.toList.head? ≠ some '-' → script ≠ "" →
      { invocation with arguments := [script] }.IgnoresInput ∧
        run { invocation with arguments := [script] } =
          invocation.completion level (shell.runScript script)) ∧
    run { invocation with arguments := [""] } = run { invocation with arguments := [] } ∧
    ∀ logging, showsDebugging level = .ok logging →
      ¬{ invocation with arguments := [""] }.IgnoresInput := by
  intro level shell
  have hscript : ∀ script : String, script.toList.head? ≠ some '-' →
      request { invocation with arguments := [script] } =
        .run { logLevel := level, script := some script } :=
    fun script h => Options.ofArguments_script _ h
  have hempty : request { invocation with arguments := [""] } =
      .run { logLevel := level, script := some "" } := hscript "" (by decide)
  have hnothing : request { invocation with arguments := [] } = .run { logLevel := level } := rfl
  refine ⟨fun text => ?_, fun text h => ?_, fun script h hne => ⟨?_, ?_⟩, ?_, fun logging h => ?_⟩
  · exact (Invocation.ignoresInput_iff _).mpr fun options _ hrequest _ =>
      .inl (Options.command_of_ofArguments hrequest)
  · have hrequest : request { invocation with arguments := ["-c", text] } =
        .run { logLevel := level, command := some (.text text) } := Options.ofArguments_text _ h
    rw [CommandLine.run_of_options hrequest, CommandLine.runShell_of_text rfl]
    rfl
  · exact .of_bringCommands (hscript script h) (.inr ⟨script, hne, rfl⟩)
  · rw [CommandLine.run_of_options (hscript script h), CommandLine.runShell_of_script rfl hne rfl]
    rfl
  · rw [CommandLine.run_of_options hempty, CommandLine.run_of_options hnothing]
    rfl
  · intro hignores
    have hbring := (Invocation.ignoresInput_iff _).mp hignores _ logging hempty h
    simp [Options.BringCommands] at hbring

/-- Commands from each of the sources leave with a status of their own. -/
theorem commands_apart_from_input_sources :
    let invocation : Invocation :=
      { arguments := [], processId := 1, world := .withScripts, input := [.line "exit 9\n"] }
    (∀ terminal input,
      (run { invocation with arguments := ["-c", "exit 3"], terminal, input }).status = .ok 3) ∧
      (∀ terminal input,
        (run { invocation with arguments := ["s"], terminal, input }).status = .ok 4) ∧
      (run { invocation with arguments := [""] }).status = .ok 9 ∧
      ¬{ invocation with arguments := [""] }.IgnoresInput := by
  intro invocation
  obtain ⟨htext, hrun, hscript, hempty, hreads⟩ := commands_apart_from_input invocation
  refine ⟨fun terminal input => ?_, fun terminal input => ?_, ?_, ?_⟩
  · rw [(htext "exit 3").same terminal input, hrun "exit 3" (by decide)]
    decide +kernel
  · obtain ⟨hignores, hruns⟩ := hscript "s" (by decide) (by decide)
    rw [hignores.same terminal input, hruns]
    decide +kernel
  · rw [hempty]
    decide +kernel
  · exact hreads false (by decide +kernel)

/-- The empty operand has no dash in front, and yet two inputs make two runs. -/
theorem empty_script_reads_input :
    let invocation : Invocation := { arguments := [""], processId := 1 }
    (String.toList "").head? ≠ some '-' ∧
      (run { invocation with input := [.line "exit 3\n"] }).status = .ok 3 ∧
      (run { invocation with input := [] }).status = .ok 0 ∧
      .read ∈ (run invocation).transcript := by
  decide +kernel

end CommandShell
