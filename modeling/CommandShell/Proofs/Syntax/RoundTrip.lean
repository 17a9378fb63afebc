/-
CommandShell.Proofs.Syntax.RoundTrip — reading a list of commands back from
its written form.

`Command.render` writes the words and connectors of commands with single
spaces between them. `ofLine_render` says that reading this line gives the
commands again whenever they are `WellFormed`, and `WellFormed.of_ofLine`
that reading never gives any others; `render_reads_back` states both.

The words need no quoting because every text that `Token.IsWord` describes
is one piece of a line wherever it stands between spaces, a lone ampersand
or bar as well as a word with a number sign inside it.
-/
import CommandShell.Proofs.Syntax.Grammar
import CommandShell.Proofs.Syntax.Pieces

namespace CommandShell.Command

/-- Commands that a line can write: they are listed as a line lists them, and
all their words are words of a line. -/
structure WellFormed (commands : List Command) : Prop where
  listed : Listed commands
  words : ∀ command ∈ commands, ∀ word ∈ command.words, Token.IsWord word

instance (commands : List Command) : Decidable (WellFormed commands) :=
  decidable_of_iff
    (Listed commands ∧ ∀ command ∈ commands, ∀ word ∈ command.words, Token.IsWord word)
    ⟨fun ⟨h₁, h₂⟩ => ⟨h₁, h₂⟩, fun ⟨h₁, h₂⟩ => ⟨h₁, h₂⟩⟩

theorem mem_tokens {command : Command} {token : Token} :
    token ∈ command.tokens ↔
      (∃ operator, command.connector = some operator ∧ token = .op operator) ∨
        ∃ word ∈ command.words, token = .word word := by
  obtain ⟨connector, words⟩ := command
  cases connector <;> simp [tokens, eq_comm]

/-- Every token of well-formed commands can stand in a line. -/
theorem WellFormed.standing {commands : List Command} (h : WellFormed commands) :
    ∀ token ∈ commands.flatMap tokens, token.Standing := by
  intro token htoken
  obtain ⟨command, hcommand, htoken⟩ := List.mem_flatMap.mp htoken
  rcases mem_tokens.mp htoken with ⟨operator, -, rfl⟩ | ⟨word, hword, rfl⟩
  · trivial
  · exact h.words command hcommand word hword

/-- Well-formed commands are read back from their written form. -/
theorem ofLine_render {commands : List Command} (h : WellFormed commands) :
    ofLine (render commands) = .ok commands := by
  rw [ofLine, render, Token.ofLine_intercalate h.standing, ofTokens_listed h.listed]

/-- Words with single spaces between them are one command. -/
theorem ofLine_words {words : List String} (hne : words ≠ [])
    (h : ∀ word ∈ words, Token.IsWord word) :
    ofLine (" ".intercalate words) = .ok [⟨none, words⟩] := by
  have hwell : WellFormed [⟨none, words⟩] :=
    ⟨⟨by simpa using hne, by simp, by simp⟩, by simpa using h⟩
  have hrender : render [⟨none, words⟩] = " ".intercalate words := by
    simp [render, Function.comp_def, Token.text]
  rw [← hrender, ofLine_render hwell]

/-- Whatever line is read, the commands of it are well-formed. -/
theorem WellFormed.of_ofLine {line : String} {commands : List Command}
    (h : ofLine line = .ok commands) : WellFormed commands := by
  obtain ⟨hlisted, htokens⟩ := ofTokens_eq_ok_iff.mp h
  refine ⟨hlisted, fun command hcommand word hword => ?_⟩
  have hmem : Token.word word ∈ commands.flatMap tokens :=
    List.mem_flatMap.mpr ⟨command, hcommand, mem_tokens.mpr (.inr ⟨word, hword, rfl⟩)⟩
  have hline : Token.word word ∈ Token.ofLine line := by
    rcases htokens with htokens | ⟨-, htokens⟩
    · exact htokens ▸ hmem
    · exact htokens ▸ List.mem_append_left _ hmem
  exact Token.isWord_of_mem_ofLine hline

/-- **Writing commands out and reading them back.** Well-formed commands are
read back as they are; a line that is read gives well-formed commands, so
writing these out and reading them gives them again. -/
theorem render_reads_back :
    (∀ commands, WellFormed commands → ofLine (render commands) = .ok commands) ∧
      ∀ line commands, ofLine line = .ok commands →
        WellFormed commands ∧ ofLine (render commands) = .ok commands := by
  refine ⟨fun commands h => ofLine_render h, fun line commands h => ?_⟩
  have hwell := WellFormed.of_ofLine h
  exact ⟨hwell, ofLine_render hwell⟩

/-- Single ampersands, single bars and number signs inside words, next to
operators on all sides. -/
theorem render_reads_back_ampersands :
    WellFormed [⟨none, ["a&", "x#y"]⟩, ⟨some .or, ["|b", "&"]⟩, ⟨some .semicolon, ["|"]⟩] ∧
      render [⟨none, ["a&", "x#y"]⟩, ⟨some .or, ["|b", "&"]⟩, ⟨some .semicolon, ["|"]⟩] =
        "a& x#y || |b & ; |" ∧
      ofLine "a& x#y || |b & ; |" =
        .ok [⟨none, ["a&", "x#y"]⟩, ⟨some .or, ["|b", "&"]⟩, ⟨some .semicolon, ["|"]⟩] ∧
      ofLine "a& x#y|||b & ;| ;# |" =
        .ok [⟨none, ["a&", "x#y"]⟩, ⟨some .or, ["|b", "&"]⟩, ⟨some .semicolon, ["|"]⟩] := by
  have hline : ofLine "a& x#y|||b & ;| ;# |" =
      .ok [⟨none, ["a&", "x#y"]⟩, ⟨some .or, ["|b", "&"]⟩, ⟨some .semicolon, ["|"]⟩] := by
    decide +kernel
  have hrender :
      render [⟨none, ["a&", "x#y"]⟩, ⟨some .or, ["|b", "&"]⟩, ⟨some .semicolon, ["|"]⟩] =
        "a& x#y || |b & ; |" := by
    decide +kernel
  obtain ⟨hwell, -⟩ := render_reads_back.2 _ _ hline
  have hback := render_reads_back.1 _ hwell
  exact ⟨hwell, hrender, hrender ▸ hback, hline⟩

end CommandShell.Command
