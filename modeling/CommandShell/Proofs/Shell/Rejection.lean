/-
CommandShell.Proofs.Shell.Rejection — which lines are rejected, what is said
of them, and that nothing else comes of them.

The faults of syntax errors are told apart by their wording
(`SyntaxError.fault_injective`), so the statements of
`CommandShell.Proofs.Syntax.Grammar` carry over to the texts that are shown.
`executeLine_rejected` says all that a rejected line does. The main statement
puts both together.
-/
import CommandShell.Proofs.Syntax.Grammar
import CommandShell.Shell.Line

namespace CommandShell

/-! ## §1 The wording of syntax errors -/

theorem Operator.text_injective {operator other : Operator} (h : operator.text = other.text) :
    operator = other := by
  have := Operator.ofText?_text operator
  rw [h, Operator.ofText?_text] at this
  exact (Option.some.inj this).symm

theorem Operator.text_ne_doubled (operator : Operator) : operator.text ≠ ";;" := by
  cases operator <;> decide

namespace SyntaxError

/-- The token that is shown of a misplaced operator. -/
def shown (before : List Token) (operator : Operator) : String :=
  if operator = .semicolon ∧ before.getLast? = some (.op .semicolon) then ";;" else operator.text

theorem fault_blame (before : List Token) (operator : Operator) :
    (blame before operator).fault = ⟨.unexpected (shown before operator) true, none⟩ := by
  unfold blame shown
  split <;> rfl

theorem fault_injective {error other : SyntaxError} (h : error.fault = other.fault) :
    error = other := by
  cases error with
  | unexpected operator =>
    cases other with
    | unexpected other =>
      have htext : operator.text = other.text := by simpa [fault] using h
      rw [Operator.text_injective htext]
    | doubleSemicolon => exact absurd (by simpa [fault] using h) operator.text_ne_doubled
    | endOfFile => simp [fault] at h
  | doubleSemicolon =>
    cases other with
    | unexpected other => exact absurd (by simpa [fault] using h.symm) other.text_ne_doubled
    | doubleSemicolon => rfl
    | endOfFile => simp [fault] at h
  | endOfFile =>
    cases other with
    | unexpected other => simp [fault] at h
    | doubleSemicolon => simp [fault] at h
    | endOfFile => rfl

/-- A syntax error is reported as no failure of any command. -/
theorem ofFault_fault (error : SyntaxError) :
    Diagnostic.ofFault error.fault [] = ⟨error.fault.reason, 2, none⟩ := by
  cases error <;>
    simp [Diagnostic.ofFault, fault, Fault.status, Fault.Cause.status, Fault.Cause.isContextless]

end SyntaxError

/-! ## §2 Rejected lines -/

namespace Shell

/-- A rejected line is counted and reported, its status is the last status,
and the shell is otherwise as it was. -/
theorem executeLine_rejected (shell : Shell) {line : String} {error : SyntaxError}
    (h : Command.ofLine line = .error error) :
    shell.executeLine line =
      ⟨{ shell with lineNumber := shell.lineNumber + 1, lastStatus := 2 },
        [.errors ({ shell with lineNumber := shell.lineNumber + 1 }.diagnosticLine
          ⟨error.fault.reason, 2, none⟩)],
        .returned 2⟩ := by
  unfold executeLine
  simp only [h]
  unfold rejectLine
  rw [SyntaxError.ofFault_fault]
  rfl

end Shell

open Token (Sentence WellPlaced FirstMisplaced)

/-- **Sentences are read and all else is rejected.** Tokens are read exactly
when they are a sentence: when the first is no operator, no two operators
stand side by side, and the last is neither `&&` nor `||`. The commands read
have the tokens of the sentence. What is not read is put down to its first
misplaced operator, which is shown in quotes, or, if no operator is misplaced,
to the end of the file, which is not. A line that is rejected runs nothing: it
adds one to the line number, writes one diagnostic, and has status 2. -/
theorem sentence_or_rejected :
    (∀ tokens : List Token,
      ((∃ commands, Command.ofTokens tokens = .ok commands) ↔ Sentence tokens) ∧
      (Sentence tokens ↔ WellPlaced tokens ∧ tokens.getLast? ≠ some (.op .and) ∧
        tokens.getLast? ≠ some (.op .or)) ∧
      (∀ commands, Command.ofTokens tokens = .ok commands →
        commands.flatMap Command.tokens = Token.withoutClosing tokens) ∧
      ∀ error, Command.ofTokens tokens = .error error ↔
        (∃ before operator, FirstMisplaced tokens before operator ∧
          error.fault = ⟨.unexpected (SyntaxError.shown before operator) true, none⟩) ∨
        WellPlaced tokens ∧
          (tokens.getLast? = some (.op .and) ∨ tokens.getLast? = some (.op .or)) ∧
          error.fault = ⟨.unexpected "end of file" false, none⟩) ∧
    ∀ (shell : Shell) (line : String) (error : SyntaxError),
      Command.ofLine line = .error error →
        shell.executeLine line =
          ⟨{ shell with lineNumber := shell.lineNumber + 1, lastStatus := 2 },
            [.errors ({ shell with lineNumber := shell.lineNumber + 1 }.diagnosticLine
              ⟨error.fault.reason, 2, none⟩)],
            .returned 2⟩ := by
  refine ⟨fun tokens => ⟨Command.ofTokens_ok_iff_sentence, Token.sentence_iff,
    fun commands => Command.flatMap_tokens_of_ok, fun error => ?_⟩,
    fun shell line error => shell.executeLine_rejected⟩
  rw [Command.ofTokens_eq_error_iff]
  constructor
  · rintro (⟨before, operator, hmis, rfl⟩ | ⟨hplaced, hlast, rfl⟩)
    · exact .inl ⟨before, operator, hmis, SyntaxError.fault_blame before operator⟩
    · exact .inr ⟨hplaced, hlast, rfl⟩
  · rintro (⟨before, operator, hmis, hfault⟩ | ⟨hplaced, hlast, hfault⟩)
    · rw [← SyntaxError.fault_blame] at hfault
      exact .inl ⟨before, operator, hmis, SyntaxError.fault_injective hfault⟩
    · have hend : error.fault = SyntaxError.endOfFile.fault := hfault
      exact .inr ⟨hplaced, hlast, SyntaxError.fault_injective hend⟩

/-- Of two misplaced operators the first is shown, with the semicolon before
it; nothing of the line has run. -/
theorem sentence_or_rejected_doubled :
    let shell : Shell :=
      { programName := "minish", processId := 1, environment := {}, world := {}, builtins := [] }
    Command.ofTokens [.word "a", .op .semicolon, .op .semicolon, .op .and] =
        .error .doubleSemicolon ∧
      shell.executeLine "a ;; && b" =
        ⟨{ shell with lineNumber := 1, lastStatus := 2 },
          [.errors "minish: 1: Syntax error: \";;\" unexpected\n"], .returned 2⟩ := by
  intro shell
  have herror : Command.ofLine "a ;; && b" = .error .doubleSemicolon := by decide +kernel
  obtain ⟨htokens, hline⟩ := sentence_or_rejected
  constructor
  · have hplaced : WellPlaced [.word "a", .op .semicolon] :=
      ⟨by simp [Token.isOperator], by simp [Token.isOperator]⟩
    have hmis : FirstMisplaced [.word "a", .op .semicolon, .op .semicolon, .op .and]
        [.word "a", .op .semicolon] .semicolon :=
      ⟨⟨[.op .and], rfl⟩, hplaced, .inr ⟨.semicolon, rfl⟩⟩
    exact ((htokens _).2.2.2 .doubleSemicolon).mpr (.inl ⟨_, _, hmis, rfl⟩)
  · rw [hline shell _ _ herror]
    have htext : ({ shell with lineNumber := shell.lineNumber + 1 }.diagnosticLine
        ⟨SyntaxError.doubleSemicolon.fault.reason, 2, none⟩) =
          "minish: 1: Syntax error: \";;\" unexpected\n" := by
      decide +kernel
    rw [htext]

end CommandShell
