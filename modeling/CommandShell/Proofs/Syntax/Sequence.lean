/-
CommandShell.Proofs.Syntax.Sequence — two lines written as one.

A semicolon between blanks keeps two lines apart: the tokens of both are read
as they are without each other (`Token.ofLine_sequence`), unless a comment
hides the second. Grouping then starts afresh behind the semicolon. It gives
the commands of the second line but for one thing: the first of them is joined
by the semicolon, where on a line of its own nothing joins it
(`Command.ofLine_sequence`).
-/
import CommandShell.Proofs.Syntax.Grammar
import CommandShell.Proofs.Syntax.Pieces

namespace CommandShell

open Text (words)

/-! ## §1 Tokens -/

namespace Token

/-- No word of a line starts a comment, so that none hides what comes behind. -/
def Commentless (line : String) : Prop :=
  ∀ piece ∈ words (setApart line.toList), opensComment piece = false

instance (line : String) : Decidable (Commentless line) :=
  inferInstanceAs (Decidable (∀ piece ∈ words (setApart line.toList), opensComment piece = false))

/-- The words of two lines, with the semicolon between them. -/
theorem words_setApart_sequence (first second : List Char) :
    words (setApart (first ++ ' ' :: ';' :: ' ' :: second)) =
      words (setApart first) ++ [';'] :: words (setApart second) := by
  have hop : words (setApart [';']) = [[';']] := words_setApart_operator .semicolon
  have hrest := words_setApart_append_blank (c := ' ') (by decide) [';'] second
  rw [words_setApart_append_blank (by decide), ← List.singleton_append, hrest, hop,
    List.singleton_append]

/-- Behind a line without a comment a second one is read on its own. -/
theorem ofLine_sequence {first : String} (h : Commentless first) (second : String) :
    ofLine (first ++ " ; " ++ second) = ofLine first ++ .op .semicolon :: ofLine second := by
  have hline : (first ++ " ; " ++ second).toList =
      first.toList ++ ' ' :: ';' :: ' ' :: second.toList := by simp
  have hfirst : ∀ piece ∈ words (setApart first.toList), (!opensComment piece) = true :=
    fun piece hpiece => by rw [h piece hpiece]; rfl
  have hpieces : pieces (first ++ " ; " ++ second).toList =
      pieces first.toList ++ [';'] :: pieces second.toList := by
    rw [pieces, hline, words_setApart_sequence, List.takeWhile_append_of_pos hfirst,
      List.takeWhile_cons_of_pos (by decide), pieces, List.takeWhile_eq_self_iff.mpr hfirst]
    rfl
  have hop : ofText (String.ofList [';']) = .op .semicolon := ofText_operator .semicolon
  rw [ofLine, hpieces, List.map_append, List.map_cons, hop]
  rfl

end Token

/-! ## §2 Commands -/

namespace Command

/-- Commands as they go on behind a semicolon. -/
def resume : List Command → List Command
  | [] => []
  | first :: rest => { first with connector := some .semicolon } :: rest

/-- Behind a semicolon commands are grouped as they are at the start of a line. -/
theorem group_resume {tokens : List Token} {commands : List Command} (words : List String)
    (h : group none words tokens = .ok commands) :
    group (some .semicolon) words tokens = .ok (resume commands) := by
  induction tokens generalizing words with
  | nil =>
    by_cases hw : words = []
    · obtain rfl : [] = commands := by simpa [group, hw] using h
      simp [group, hw, resume]
    · obtain rfl : [⟨none, words⟩] = commands := by simpa [group, hw] using h
      simp [group, hw, resume]
  | cons token rest ih =>
    cases token with
    | word word => exact ih (words ++ [word]) h
    | op operator =>
      -- Without words the operator is misplaced, and the two would blame it differently.
      by_cases hw : words = []
      · simp [group, hw] at h
      · rw [group_operator _ hw] at h ⊢
        cases hrest : group (some operator) [] rest with
        | error error => simp [hrest, Except.map] at h
        | ok others =>
          simp only [hrest, Except.map] at h ⊢
          cases h
          rfl

/-- Tokens with a semicolon between them are grouped apart, where the first of
them end in a command. -/
theorem ofTokens_sequence {before after : List Token} {commands more : List Command}
    (hbefore : ofTokens before = .ok commands) (hafter : ofTokens after = .ok more)
    (hne : before ≠ []) (hlast : before.getLast? ≠ some (.op .semicolon)) :
    ofTokens (before ++ .op .semicolon :: after) = .ok (commands ++ resume more) := by
  obtain ⟨hlisted, rfl | ⟨-, rfl⟩⟩ := ofTokens_eq_ok_iff.mp hbefore
  · have hcommands : commands ≠ [] := by
      rintro rfl
      simp at hne
    rw [ofTokens, group_listed hcommands hlisted, group_resume [] hafter]
    rfl
  · simp at hlast

/-- **Two lines with a semicolon between them are the commands of both.** -/
theorem ofLine_sequence {first second : String} {commands more : List Command}
    (hfirst : ofLine first = .ok commands) (hsecond : ofLine second = .ok more)
    (hne : Token.ofLine first ≠ []) (hcomment : Token.Commentless first)
    (hlast : (Token.ofLine first).getLast? ≠ some (.op .semicolon)) :
    ofLine (first ++ " ; " ++ second) = .ok (commands ++ resume more) := by
  rw [ofLine, Token.ofLine_sequence hcomment]
  exact ofTokens_sequence hfirst hsecond hne hlast

end Command

end CommandShell
