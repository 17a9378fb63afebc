/-
CommandShell.Proofs.Shell.Loops — the command loops agree.

§1 says what it is to execute lines one after the other (`Executes`), with
given events before each line and at the end of the input. §2 says which
equations make a function a loop over lines (`IsLoop`). The loops over the
lines of a text or a stream, over standard input and over what a user types
all satisfy them, so each executes some of its first lines in that way. Two
executions of the same lines differ in the events around the lines and in
nothing else (§3). The four loops therefore agree on every text whose lines
they cut at the same places (`loops_agree`, §4).
-/
import CommandShell.Proofs.Shell.Frame
import CommandShell.Shell.Loop

namespace CommandShell

/-! ## §1 Executing lines -/

/-- Whether the shell goes on. -/
def Ending.isReturned : Ending → Bool
  | .returned _ => true
  | .left _ | .broken _ => false

/-- The lines are executed in order, all of them and no others. The events
`asked` come before each line. Either the last line leaves the shell, or the
input is at its end after it, which the events `last` show. -/
inductive Executes (asked last : Transcript) : Shell → List String → Outcome → Prop
  | finish (shell : Shell) : Executes asked last shell [] (shell.finish.after last)
  | leave {shell : Shell} {line : String} {status : Int}
      (hleft : (shell.executeLine line).ending = .left status) :
      Executes asked last shell [line] ((shell.executeLine line).after asked)
  | next {shell : Shell} {line : String} {status : Int} {rest : List String} {outcome : Outcome}
      (hreturned : (shell.executeLine line).ending = .returned status)
      (hrest : Executes asked last (shell.executeLine line).shell rest outcome) :
      Executes asked last shell (line :: rest)
        (outcome.after (asked ++ (shell.executeLine line).transcript))

namespace Executes

variable {asked last : Transcript} {shell : Shell} {lines : List String} {outcome : Outcome}

/-- The newlines at the ends of lines do not matter. -/
theorem map_chomp (h : Executes asked last shell lines outcome) :
    Executes asked last shell (lines.map Text.chomp) outcome := by
  induction h with
  | finish shell => exact .finish shell
  | leave hleft =>
    rw [← Shell.executeLine_chomp] at hleft ⊢
    exact .leave hleft
  | next hreturned _ ih =>
    rw [← Shell.executeLine_chomp] at hreturned ih ⊢
    exact .next hreturned ih

theorem lineNumber (h : Executes asked last shell lines outcome) :
    outcome.shell.lineNumber = shell.lineNumber + lines.length := by
  induction h with
  | finish shell => rfl
  | leave hleft => exact Shell.lineNumber_executeLine _ _
  | next hreturned _ ih =>
    rw [Outcome.after_shell, ih, Shell.lineNumber_executeLine, List.length_cons]
    omega

/-- A loop ends with the last status, or with the one that it is left with. -/
theorem ending (h : Executes asked last shell lines outcome) :
    outcome.ending = .returned outcome.shell.lastStatus ∨
      ∃ status, outcome.ending = .left status := by
  induction h with
  | finish shell => exact .inl rfl
  | leave hleft => exact .inr ⟨_, hleft⟩
  | next hreturned _ ih => exact ih

end Executes

/-! ## §2 Loops -/

/-- The function runs lines until there are no more or the shell is left.
No line is the empty text, which stands for the end. -/
structure IsLoop (asked last : Transcript) (loop : Shell → List String → Outcome) : Prop where
  finish : ∀ shell, loop shell [] = shell.finish.after last
  next : ∀ shell line rest, line ≠ "" → loop shell (line :: rest) =
    ((shell.executeLine line).andThen fun shell _ => loop shell rest).after asked

namespace Shell

theorem runLines_map_chomp (shell : Shell) (lines : List String) :
    shell.runLines (lines.map Text.chomp) = shell.runLines lines := by
  induction lines generalizing shell with
  | nil => rfl
  | cons line rest ih =>
    rw [List.map_cons, runLines, runLines, executeLine_chomp]
    exact Outcome.andThen_congr fun _ _ => ih _

theorem isLoop_runLines : IsLoop [] [] runLines := ⟨fun _ => rfl, fun _ _ _ _ => rfl⟩

theorem isLoop_runInput :
    IsLoop [.read] [.read] fun shell lines => shell.runInput (lines.map .line) where
  finish _ := rfl
  next shell line rest hline := by
    rw [List.map_cons, runInput, if_neg hline]

theorem isLoop_runPrompted :
    IsLoop [.prompt promptText, .read] [.prompt promptText, .read, .prompt "\n"]
      fun shell lines => shell.runPrompted (lines.map .line) where
  finish _ := rfl
  next shell line rest hline := by
    rw [List.map_cons, runPrompted, if_neg hline, executeLine_chomp]

end Shell

namespace IsLoop

variable {asked last : Transcript} {loop : Shell → List String → Outcome}

/-- A loop goes on after a line that returns. -/
theorem eq_of_returned (hloop : IsLoop asked last loop) {shell : Shell} {line : String}
    {status : Int} (hline : line ≠ "") (h : (shell.executeLine line).ending = .returned status)
    (rest : List String) :
    loop shell (line :: rest) = (loop (shell.executeLine line).shell rest).after
      (asked ++ (shell.executeLine line).transcript) := by
  rw [hloop.next shell line rest hline, Outcome.andThen_of_returned _ h, Outcome.after_after]

/-- A loop stops at a line that leaves the shell. -/
theorem eq_of_left (hloop : IsLoop asked last loop) {shell : Shell} {line : String}
    {status : Int} (hline : line ≠ "") (h : (shell.executeLine line).ending = .left status)
    (rest : List String) : loop shell (line :: rest) = (shell.executeLine line).after asked := by
  have hnot : ∀ value, (shell.executeLine line).ending ≠ .returned value := by simp [h]
  rw [hloop.next shell line rest hline, Outcome.andThen_of_not_returned _ hnot]

/-- A loop executes some first lines, and all of them unless it is left. -/
theorem exists_executes (hloop : IsLoop asked last loop) (shell : Shell) {lines : List String}
    (hlines : ∀ line ∈ lines, line ≠ "") :
    ∃ count ≤ lines.length, Executes asked last shell (lines.take count) (loop shell lines) ∧
      ((loop shell lines).ending.isReturned → count = lines.length) := by
  induction lines generalizing shell with
  | nil =>
    refine ⟨0, Nat.le_refl 0, ?_, fun _ => rfl⟩
    rw [hloop.finish shell]
    exact .finish shell
  | cons line rest ih =>
    have hline : line ≠ "" := hlines line List.mem_cons_self
    rcases Shell.regular_executeLine shell line with ⟨status, hreturned⟩ | ⟨status, hleft⟩
    · obtain ⟨count, hcount, hexecutes, hall⟩ := ih (shell.executeLine line).shell
        fun other hother => hlines other (List.mem_cons_of_mem line hother)
      rw [hloop.eq_of_returned hline hreturned rest]
      refine ⟨count + 1, ?_, ?_, ?_⟩
      · rw [List.length_cons]
        omega
      · rw [List.take_succ_cons]
        exact .next hreturned hexecutes
      · intro h
        rw [List.length_cons, hall h]
    · rw [hloop.eq_of_left hline hleft rest]
      refine ⟨1, ?_, .leave hleft, ?_⟩
      · rw [List.length_cons]
        omega
      · simp [hleft, Ending.isReturned]

/-- Where one loop stops, any other one does. -/
theorem executes (hloop : IsLoop asked last loop) {asked' last' : Transcript} {shell : Shell}
    {lines rest : List String} {outcome : Outcome} (h : Executes asked' last' shell lines outcome)
    (hlines : ∀ line ∈ lines, line ≠ "") (hrest : outcome.ending.isReturned → rest = []) :
    Executes asked last shell lines (loop shell (lines ++ rest)) := by
  induction h with
  | finish shell =>
    rw [hrest rfl, List.append_nil, hloop.finish shell]
    exact .finish shell
  | @leave shell line status hleft =>
    rw [List.singleton_append, hloop.eq_of_left (hlines line List.mem_cons_self) hleft rest]
    exact .leave hleft
  | @next shell line status others outcome hreturned _ ih =>
    have hothers : ∀ other ∈ others, other ≠ "" :=
      fun other hother => hlines other (List.mem_cons_of_mem line hother)
    rw [List.cons_append,
      hloop.eq_of_returned (hlines line List.mem_cons_self) hreturned (others ++ rest)]
    exact .next hreturned (ih hothers hrest)

end IsLoop

/-! ## §3 Agreement -/

namespace Transcript

/-- The events that lines cause when they are run. -/
def ofLines (transcript : Transcript) : Transcript :=
  transcript.filter (!·.isConversation)

theorem ofLines_append (before after : Transcript) :
    ofLines (before ++ after) = before.ofLines ++ after.ofLines :=
  List.filter_append ..

/-- The conversation is not seen on the error stream. -/
theorem errors_ofLines (transcript : Transcript) (logging : Bool) :
    transcript.ofLines.errors logging = transcript.errors logging := by
  induction transcript with
  | nil => rfl
  | cons event rest ih =>
    unfold errors ofLines at ih ⊢
    cases event with
    | prompt text => simpa [Event.isConversation, Event.errorText] using ih
    | read => simpa [Event.isConversation, Event.errorText] using ih
    | _ => simpa [Event.isConversation] using ih

/-- The conversation starts no program. -/
theorem attempts_ofLines (transcript : Transcript) :
    transcript.ofLines.attempts = transcript.attempts := by
  unfold attempts ofLines
  rw [List.filterMap_filter]
  refine List.filterMap_congr fun event _ => ?_
  cases event <;> rfl

end Transcript

/-- The two runs end alike, and differ in the conversation at most. -/
structure Outcome.Agrees (outcome other : Outcome) : Prop where
  shell : other.shell = outcome.shell
  ending : other.ending = outcome.ending
  transcript : other.transcript.ofLines = outcome.transcript.ofLines

namespace Outcome.Agrees

variable {outcome other : Outcome}

theorem errors (h : outcome.Agrees other) (logging : Bool) :
    other.transcript.errors logging = outcome.transcript.errors logging := by
  rw [← Transcript.errors_ofLines, h.transcript, Transcript.errors_ofLines]

theorem attempts (h : outcome.Agrees other) :
    other.transcript.attempts = outcome.transcript.attempts := by
  rw [← Transcript.attempts_ofLines, h.transcript, Transcript.attempts_ofLines]

end Outcome.Agrees

namespace Executes

variable {asked last asked' last' : Transcript} {shell : Shell} {lines : List String}
variable {outcome other : Outcome}

/-- **Two executions of the same lines agree**, whatever conversation there is
around the lines. -/
theorem agrees (h : Executes asked last shell lines outcome)
    (h' : Executes asked' last' shell lines other)
    (hasked : asked.ofLines = asked'.ofLines) (hlast : last.ofLines = last'.ofLines) :
    outcome.Agrees other := by
  induction h generalizing other with
  | finish shell =>
    cases h'
    refine ⟨rfl, rfl, ?_⟩
    rw [Outcome.after_transcript, Outcome.after_transcript, Transcript.ofLines_append,
      Transcript.ofLines_append, hlast]
  | leave hleft =>
    cases h' with
    | leave =>
      refine ⟨rfl, rfl, ?_⟩
      rw [Outcome.after_transcript, Outcome.after_transcript, Transcript.ofLines_append,
        Transcript.ofLines_append, hasked]
    | next hreturned =>
      rw [hleft] at hreturned
      cases hreturned
  | next hreturned _ ih =>
    cases h' with
    | leave hleft =>
      rw [hleft] at hreturned
      cases hreturned
    | next _ hrest =>
      obtain ⟨hshell, hending, htranscript⟩ := ih hrest
      refine ⟨hshell, hending, ?_⟩
      rw [Outcome.after_transcript, Outcome.after_transcript]
      simp only [Transcript.ofLines_append, hasked, htranscript]

/-- The conversation is `asked` for each line, and `last` at the end of the
input if the execution comes there. -/
theorem ofConversation (h : Executes asked last shell lines outcome)
    (hasked : asked.ofConversation = asked) (hlast : last.ofConversation = last) :
    outcome.transcript.ofConversation =
      (List.replicate lines.length asked).flatten ++
        if outcome.ending.isReturned then last else [] := by
  induction h with
  | finish shell => simpa [Shell.finish, Ending.isReturned] using hlast
  | @leave shell line status hleft =>
    rw [Outcome.after_transcript, Transcript.ofConversation_append, hasked,
      Shell.ofConversation_executeLine shell line]
    simp [hleft, Ending.isReturned]
  | @next shell line status rest outcome hreturned _ ih =>
    rw [Outcome.after_transcript, Outcome.after_ending, Transcript.ofConversation_append,
      Transcript.ofConversation_append, hasked, ih,
      Shell.ofConversation_executeLine shell line]
    rw [List.length_cons, List.replicate_succ, List.flatten_cons, List.append_nil,
      List.append_assoc]

end Executes

/-! ## §4 The four loops -/

/-- The loops over lines, over standard input and over what a user types stop
at the same line. -/
theorem Shell.exists_executes_loops (shell : Shell) {lines : List String}
    (hlines : ∀ line ∈ lines, line ≠ "") :
    ∃ count ≤ lines.length,
      Executes [] [] shell (lines.take count) (shell.runLines lines) ∧
      Executes [.read] [.read] shell (lines.take count) (shell.runInput (lines.map .line)) ∧
      Executes [.prompt promptText, .read] [.prompt promptText, .read, .prompt "\n"] shell
        (lines.take count) (shell.runPrompted (lines.map .line)) ∧
      ((shell.runLines lines).ending.isReturned → count = lines.length) := by
  obtain ⟨count, hcount, hexecutes, hall⟩ := isLoop_runLines.exists_executes shell hlines
  have htaken : ∀ line ∈ lines.take count, line ≠ "" :=
    fun line hline => hlines line (List.mem_of_mem_take hline)
  have hrest : (shell.runLines lines).ending.isReturned → lines.drop count = [] := by
    intro hreturned
    rw [hall hreturned, List.drop_length]
  have hfed := isLoop_runInput.executes hexecutes htaken hrest
  have hprompted := isLoop_runPrompted.executes hexecutes htaken hrest
  rw [List.take_append_drop] at hfed hprompted
  exact ⟨count, hcount, hexecutes, hfed, hprompted, hall⟩

/-- **The command loops agree** on every text whose lines they cut at the same
places. Each executes the same first lines, with or without their newlines,
and all of them unless one leaves the shell. Each ends in the same way and
leaves the same shell, in which every line was counted once. A script logs
that it is run; a loop that reads asks for each line and once more at the end
of the input; and nothing else is seen of one loop and not of the others. -/
theorem loops_agree (shell : Shell) {text : String}
    (h : ∀ c ∈ text.toList, c ∉ Text.otherBreaks) :
    let bare := Text.linesOfText text
    let lines := Text.linesOfRawStream text
    let whole := shell.runText text
    let streamed := shell.runStream (String.ofList (Text.unifyNewlines text.toList))
    let fed := shell.runInput (lines.map .line)
    let prompted := shell.runPrompted (lines.map .line)
    bare = lines.map Text.chomp ∧
      streamed = whole ∧
      (∀ path bytes, shell.world.read path = .ok bytes → Text.Utf8.decode bytes = text →
        shell.runScript path = whole.after [.log .dispatcher ("running script " ++ path)] ∧
          (shell.runScript path).transcript.errors false = whole.transcript.errors false) ∧
      whole.transcript.ofConversation = [] ∧
      whole.Agrees fed ∧ whole.Agrees prompted ∧
      (∀ logging, prompted.transcript.errors logging = whole.transcript.errors logging) ∧
      prompted.transcript.attempts = whole.transcript.attempts ∧
      ∃ count ≤ lines.length,
        Executes [] [] shell (bare.take count) whole ∧
        Executes [] [] shell (lines.take count) streamed ∧
        Executes [.read] [.read] shell (lines.take count) fed ∧
        Executes [.prompt Shell.promptText, .read] [.prompt Shell.promptText, .read, .prompt "\n"]
          shell (bare.take count) prompted ∧
        whole.shell.lineNumber = shell.lineNumber + count ∧
        (whole.ending = .returned whole.shell.lastStatus ∧ count = lines.length ∨
          ∃ status, whole.ending = .left status) ∧
        prompted.transcript.ofConversation =
          (List.replicate count [.prompt Shell.promptText, .read]).flatten ++
            if whole.ending.isReturned then [.prompt Shell.promptText, .read, .prompt "\n"]
            else [] := by
  intro bare lines whole streamed fed prompted
  have hbare : bare = lines.map Text.chomp := Text.linesOfText_eq_map_chomp h
  have hstreamed : streamed = shell.runLines lines :=
    congrArg shell.runLines (Text.linesOfStream_unifyNewlines text)
  have hwhole : whole = shell.runLines lines := by
    have := Shell.runLines_map_chomp shell lines
    rwa [← hbare] at this
  have hlines : ∀ line ∈ lines, line ≠ "" := fun _ => Text.ne_empty_of_mem_linesOfRawStream
  obtain ⟨count, hcount, hexecutes, hfed, hprompted, hall⟩ := shell.exists_executes_loops hlines
  rw [← hwhole] at hexecutes hall
  have hagrees : whole.Agrees prompted := hexecutes.agrees hprompted rfl rfl
  have hbareTake : bare.take count = (lines.take count).map Text.chomp := by
    rw [hbare, List.map_take]
  have hlength : (lines.take count).length = count := List.length_take_of_le hcount
  refine ⟨hbare, hstreamed.trans hwhole.symm, ?_, ?_, hexecutes.agrees hfed rfl rfl,
    hagrees, hagrees.errors, hagrees.attempts, count, hcount, ?_, ?_, hfed, ?_, ?_, ?_, ?_⟩
  · intro path bytes hread hdecode
    have hscript : shell.runScript path =
        whole.after [.log .dispatcher ("running script " ++ path)] := by
      simp only [Shell.runScript, hread, hdecode]
      rw [hwhole]
    refine ⟨hscript, ?_⟩
    rw [hscript]
    simp [Transcript.errors, Event.errorText, String.join_cons]
  · rw [hexecutes.ofConversation rfl rfl]
    simp
  · rw [hbareTake]
    exact hexecutes.map_chomp
  · rw [hstreamed, ← hwhole]
    exact hexecutes
  · rw [hbareTake]
    exact hprompted.map_chomp
  · rw [hexecutes.lineNumber, hlength]
  · rcases hexecutes.ending with hreturned | hleft
    · refine .inl ⟨hreturned, hall ?_⟩
      rw [hreturned]
      rfl
    · exact .inr hleft
  · rw [hprompted.ofConversation rfl rfl, hlength, hagrees.ending]

/-- All kinds of line ends, a comment, a blank line, a line that is rejected,
and one after the exit that no loop comes to. -/
theorem loops_agree_exit :
    let text := "setenv A 1\r\n# note\r \n; x\nexit 3\nenv"
    let bytes := text.toList.map fun c => c.toNat.toUInt8
    let shell : Shell :=
      { programName := "minish", processId := 1, environment := {}, builtins := Builtin.standard,
        world := { root := .directory true [("s", .file { content := bytes })] } }
    let prompted := shell.runPrompted ((Text.linesOfRawStream text).map .line)
    (shell.runScript "/s").ending = .left 3 ∧
      (shell.runScript "/s").shell.lineNumber = 5 ∧
      (shell.runScript "/s").transcript.errors false =
        "minish: 4: Syntax error: \";\" unexpected\n" ∧
      prompted.ending = .left 3 ∧
      prompted.shell.environment.lines = ["A=1"] ∧
      prompted.transcript.ofConversation.output = "$ $ $ $ $ " := by
  intro text bytes shell prompted
  have hall : (text.toList.all fun c => !Text.otherBreaks.contains c) = true := by decide +kernel
  have htext : ∀ c ∈ text.toList, c ∉ Text.otherBreaks := by simpa using hall
  have hread : shell.world.read "/s" = .ok bytes := by decide +kernel
  have hdecode : Text.Utf8.decode bytes = text := by decide +kernel
  have hending : (shell.runText text).ending = .left 3 := by decide +kernel
  have hnumber : (shell.runText text).shell.lineNumber = 5 := by decide +kernel
  obtain ⟨-, -, hscript, -, -, hagrees, -, -, count, -, -, -, -, -, hcount, -, hconversation⟩ :=
    loops_agree shell htext
  obtain ⟨hsame, herrors⟩ := hscript "/s" bytes hread hdecode
  have hfive : count = 5 := by
    have hzero : shell.lineNumber = 0 := rfl
    rw [hnumber, hzero] at hcount
    omega
  refine ⟨?_, ?_, ?_, ?_, ?_, ?_⟩
  · rw [hsame, Outcome.after_ending]
    exact hending
  · rw [hsame, Outcome.after_shell]
    exact hnumber
  · rw [herrors]
    decide +kernel
  · rw [hagrees.ending]
    exact hending
  · rw [hagrees.shell]
    decide +kernel
  · rw [hconversation, hending, hfive]
    decide +kernel

end CommandShell
