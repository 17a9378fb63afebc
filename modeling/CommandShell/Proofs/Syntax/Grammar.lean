/-
CommandShell.Proofs.Syntax.Grammar — which tokens write a list of commands,
and what is wrong with those that do not.

§1 gives the grammar: `Sentence` is nothing, or commands with operators
between them and perhaps a semicolon at the end. §2 says which commands
stand for such tokens: `Command.Listed` lists them and `joined_iff` ties
them to the grammar. §3 runs `Command.group` over the commands of a sentence
(`group_listed`). §4 shows that tokens either are placed well, and then are a
sentence with at most one operator too many at the end (`wellPlaced_iff`), or
have a first misplaced operator (`wellPlaced_or_misplaced`). §5 puts this
together: `ofTokens_eq_ok_iff` and `ofTokens_eq_error_iff` say in full what
`Command.ofTokens` answers.
-/
import CommandShell.Syntax.Command
import Mathlib.Data.List.Induction
import Mathlib.Data.List.Chain

namespace CommandShell

/-! ## §1 The grammar -/

namespace Token

/-- One command or more, with an operator between each two. -/
inductive Joined : List Token → Prop
  | command {words : List String} (h : words ≠ []) : Joined (words.map Token.word)
  | join {tokens : List Token} {words : List String} (operator : Operator)
      (before : Joined tokens) (h : words ≠ []) :
      Joined (tokens ++ .op operator :: words.map Token.word)

/-- What writes a list of commands: nothing, or joined commands, which a
semicolon may close. -/
inductive Sentence : List Token → Prop
  | empty : Sentence []
  | joined {tokens : List Token} (h : Joined tokens) : Sentence tokens
  | closed {tokens : List Token} (h : Joined tokens) : Sentence (tokens ++ [.op .semicolon])

/-- Whether a token is an operator. -/
def isOperator : Token → Bool
  | .word _ => false
  | .op _ => true

/-- The first token is no operator, and no operator stands right after
another. -/
structure WellPlaced (tokens : List Token) : Prop where
  head : ∀ token ∈ tokens.head?, token.isOperator = false
  apart : tokens.IsChain fun token next => ¬ (token.isOperator = true ∧ next.isOperator = true)

/-- After these tokens a command has to begin. -/
def CommandDue (before : List Token) : Prop :=
  before = [] ∨ ∃ operator, before.getLast? = some (.op operator)

/-- The first operator of `tokens` that stands where a command has to begin,
with the tokens before it. -/
structure FirstMisplaced (tokens before : List Token) (operator : Operator) : Prop where
  split : ∃ after, tokens = before ++ .op operator :: after
  wellPlaced : WellPlaced before
  due : CommandDue before

/-- Tokens without a semicolon at their end. -/
def withoutClosing (tokens : List Token) : List Token :=
  if tokens.getLast? = some (.op .semicolon) then tokens.dropLast else tokens

end Token

open Token (Joined Sentence WellPlaced CommandDue FirstMisplaced)

/-! ## §2 The commands of a sentence -/

namespace Command

/-- Commands as a line lists them: each has words, the first has no
connector, and every other one has one. -/
structure Listed (commands : List Command) : Prop where
  words : ∀ command ∈ commands, command.words ≠ []
  first : ∀ command ∈ commands.head?, command.connector = none
  others : ∀ command ∈ commands.tail, command.connector ≠ none

instance (commands : List Command) : Decidable (Listed commands) :=
  decidable_of_iff
    ((∀ command ∈ commands, command.words ≠ []) ∧
      (∀ command ∈ commands.head?, command.connector = none) ∧
      ∀ command ∈ commands.tail, command.connector ≠ none)
    ⟨fun ⟨h₁, h₂, h₃⟩ => ⟨h₁, h₂, h₃⟩, fun ⟨h₁, h₂, h₃⟩ => ⟨h₁, h₂, h₃⟩⟩

theorem listed_nil : Listed [] := ⟨by simp, by simp, by simp⟩

theorem Listed.snoc {commands : List Command} (h : Listed commands) (hne : commands ≠ [])
    (operator : Operator) {words : List String} (hw : words ≠ []) :
    Listed (commands ++ [⟨some operator, words⟩]) := by
  obtain ⟨first, rest, rfl⟩ := List.exists_cons_of_ne_nil hne
  refine ⟨fun command hmem => ?_, h.first, fun command hmem => ?_⟩
  · rcases List.mem_append.mp hmem with hmem | hmem
    · exact h.words command hmem
    · obtain rfl := List.mem_singleton.mp hmem
      exact hw
  · rw [List.cons_append, List.tail_cons] at hmem
    rcases List.mem_append.mp hmem with hmem | hmem
    · exact h.others command hmem
    · obtain rfl := List.mem_singleton.mp hmem
      simp

theorem Listed.of_snoc {commands : List Command} {command : Command}
    (h : Listed (commands ++ [command])) :
    Listed commands ∧ command.words ≠ [] ∧
      (commands = [] ∧ command.connector = none ∨
        commands ≠ [] ∧ ∃ operator, command.connector = some operator) := by
  cases commands with
  | nil =>
    exact ⟨listed_nil, h.words command (by simp), .inl ⟨rfl, h.first command (by simp)⟩⟩
  | cons first rest =>
    have hlisted : Listed (first :: rest) :=
      ⟨fun c hc => h.words c (List.mem_append_left _ hc), h.first,
        fun c hc => h.others c (by simpa using .inl hc)⟩
    refine ⟨hlisted, h.words command (by simp), .inr ⟨by simp, ?_⟩⟩
    exact Option.ne_none_iff_exists'.mp (h.others command (by simp))

@[simp] theorem tokens_none (words : List String) :
    tokens ⟨none, words⟩ = words.map Token.word := by
  simp [tokens]

@[simp] theorem tokens_some (operator : Operator) (words : List String) :
    tokens ⟨some operator, words⟩ = .op operator :: words.map Token.word := by
  simp [tokens]

end Command

/-- Joined commands are what lists of commands are written as. -/
theorem Token.joined_iff {tokens : List Token} :
    Joined tokens ↔
      ∃ commands, commands ≠ [] ∧ Command.Listed commands ∧
        commands.flatMap Command.tokens = tokens := by
  constructor
  · intro h
    induction h with
    | @command words hw =>
      refine ⟨[⟨none, words⟩], by simp, ⟨?_, by simp, by simp⟩, by simp⟩
      simpa using hw
    | @join before words operator _ hw ih =>
      obtain ⟨commands, hne, hlisted, rfl⟩ := ih
      exact ⟨commands ++ [⟨some operator, words⟩], by simp, hlisted.snoc hne operator hw, by simp⟩
  · rintro ⟨commands, hne, hlisted, rfl⟩
    induction commands using List.reverseRecOn with
    | nil => exact absurd rfl hne
    | append_singleton commands command ih =>
      obtain ⟨connector, words⟩ := command
      obtain ⟨hbefore, hw, ⟨rfl, rfl⟩ | ⟨hcommands, operator, rfl⟩⟩ := hlisted.of_snoc
      · simpa using Joined.command hw
      · simpa using (ih hcommands hbefore).join operator hw

/-! ## §3 Grouping -/

namespace Command

/-- Words are added to the command under way. -/
theorem group_words (connector : Option Operator) (words more : List String)
    (rest : List Token) :
    group connector words (more.map Token.word ++ rest) = group connector (words ++ more) rest := by
  induction more generalizing words with
  | nil => simp
  | cons word more ih =>
    rw [List.map_cons, List.cons_append, group, ih]
    simp

/-- An operator ends a command that has words. -/
theorem group_operator (connector : Option Operator) {words : List String} (h : words ≠ [])
    (operator : Operator) (rest : List Token) :
    group connector words (.op operator :: rest) =
      (group (some operator) [] rest).map (⟨connector, words⟩ :: ·) := by
  rw [group, if_neg h]

/-- The commands of a list come out one by one, and grouping goes on behind
the operator that follows them. -/
theorem group_listed {commands : List Command} (hne : commands ≠ []) (h : Listed commands)
    (operator : Operator) (rest : List Token) :
    group none [] (commands.flatMap tokens ++ .op operator :: rest) =
      (group (some operator) [] rest).map (commands ++ ·) := by
  induction commands using List.reverseRecOn generalizing operator rest with
  | nil => exact absurd rfl hne
  | append_singleton commands command ih =>
    obtain ⟨connector, words⟩ := command
    obtain ⟨hbefore, hw, ⟨rfl, rfl⟩ | ⟨hcommands, other, rfl⟩⟩ := h.of_snoc
    · simp only [List.nil_append, List.flatMap_singleton, tokens_none]
      rw [group_words, List.nil_append, group_operator _ hw]
      rfl
    · rw [List.flatMap_append, List.flatMap_singleton, tokens_some, List.append_assoc,
        List.cons_append, ih hcommands hbefore, group_words, List.nil_append, group_operator _ hw]
      cases group (some operator) [] rest <;> simp [Except.map]

/-- Commands that nothing follows come out as they are. -/
theorem ofTokens_listed {commands : List Command} (h : Listed commands) :
    ofTokens (commands.flatMap tokens) = .ok commands := by
  induction commands using List.reverseRecOn with
  | nil => rfl
  | append_singleton commands command _ =>
    obtain ⟨connector, words⟩ := command
    obtain ⟨hbefore, hw, ⟨rfl, rfl⟩ | ⟨hcommands, operator, rfl⟩⟩ := h.of_snoc
    · have hwords := group_words none [] words []
      simp only [List.append_nil, List.nil_append] at hwords
      simp [ofTokens, hwords, group, hw]
    · have hwords := group_words (some operator) [] words []
      simp only [List.append_nil, List.nil_append] at hwords
      rw [List.flatMap_append, List.flatMap_singleton, tokens_some, ofTokens,
        group_listed hcommands hbefore, hwords, group, if_pos hw]
      rfl

/-- A semicolon after the last command changes nothing. -/
theorem ofTokens_closed {commands : List Command} (hne : commands ≠ []) (h : Listed commands) :
    ofTokens (commands.flatMap tokens ++ [.op .semicolon]) = .ok commands := by
  rw [ofTokens, group_listed hne h]
  simp [group, Except.map]

/-- Any other operator at the end misses a command. -/
theorem ofTokens_open {commands : List Command} (hne : commands ≠ []) (h : Listed commands)
    {operator : Operator} (hop : operator = .and ∨ operator = .or) :
    ofTokens (commands.flatMap tokens ++ [.op operator]) = .error .endOfFile := by
  rw [ofTokens, group_listed hne h]
  simp [group, hop, Except.map]

/-- An operator at the start of a line has no command before it. -/
theorem ofTokens_operator (operator : Operator) (rest : List Token) :
    ofTokens (.op operator :: rest) = .error (.unexpected operator) := by
  simp [ofTokens, group, misplaced]

/-- An operator right after another has no command before it either. -/
theorem ofTokens_operators {commands : List Command} (hne : commands ≠ []) (h : Listed commands)
    (previous operator : Operator) (rest : List Token) :
    ofTokens (commands.flatMap tokens ++ .op previous :: .op operator :: rest) =
      .error (misplaced (some previous) operator) := by
  rw [ofTokens, group_listed hne h]
  simp [group, Except.map]

end Command

/-! ## §4 Where operators may stand -/

namespace Token

theorem wellPlaced_nil : WellPlaced [] := ⟨by simp, List.isChain_nil⟩

theorem wellPlaced_snoc {tokens : List Token} {token : Token} :
    WellPlaced (tokens ++ [token]) ↔
      WellPlaced tokens ∧ (CommandDue tokens → token.isOperator = false) := by
  rcases List.eq_nil_or_concat tokens with rfl | ⟨before, last, rfl⟩
  · constructor
    · exact fun h => ⟨wellPlaced_nil, fun _ => h.head token (by simp)⟩
    · rintro ⟨-, h⟩
      exact ⟨by simpa using h (.inl rfl), List.isChain_singleton token⟩
  · rw [List.concat_eq_append]
    have hhead : ((before ++ [last]) ++ [token]).head? = (before ++ [last]).head? := by
      rw [List.head?_append_of_ne_nil _ (by simp)]
    constructor
    · intro h
      obtain ⟨hbefore, -, hnext⟩ := List.isChain_append.mp h.apart
      refine ⟨⟨hhead ▸ h.head, hbefore⟩, ?_⟩
      rintro (hnil | ⟨operator, hlast⟩)
      · simp at hnil
      · have := hnext (.op operator) (by simpa using hlast) token (by simp)
        simpa [isOperator] using this
    · rintro ⟨h, hdue⟩
      refine ⟨hhead ▸ h.head, List.isChain_append.mpr
        ⟨h.apart, List.isChain_singleton token, fun other hother next hnext => ?_⟩⟩
      obtain rfl : token = next := by simpa using hnext
      rintro ⟨hop, htoken⟩
      cases other with
      | word _ => cases hop
      | op operator =>
        rw [hdue (.inr ⟨operator, hother⟩)] at htoken
        cases htoken

/-- Joined commands end in a word. -/
theorem Joined.not_due {tokens : List Token} (h : Joined tokens) : ¬ CommandDue tokens := by
  have hword : ∀ words : List String, words ≠ [] →
      ∃ word, (words.map Token.word).getLast? = some (.word word) := fun words hw =>
    ⟨words.getLast hw, by rw [List.getLast?_map, List.getLast?_eq_getLast_of_ne_nil hw]; rfl⟩
  have hlast : ∃ word, tokens.getLast? = some (.word word) := by
    cases h with
    | command hw => exact hword _ hw
    | @join before words operator _ hw =>
      obtain ⟨word, hlast⟩ := hword words hw
      exact ⟨word, by
        rw [List.getLast?_append, List.getLast?_cons, hlast]
        simp⟩
  obtain ⟨word, hlast⟩ := hlast
  rintro (rfl | ⟨operator, hop⟩)
  · simp at hlast
  · simp [hlast] at hop

/-- One word more belongs to the last command. -/
theorem Joined.append_word {tokens : List Token} (h : Joined tokens) (word : String) :
    Joined (tokens ++ [.word word]) := by
  cases h with
  | @command words hw =>
    have hmore : words ++ [word] ≠ [] := by simp
    simpa using Joined.command hmore
  | @join before words operator hbefore hw =>
    have hmore : words ++ [word] ≠ [] := by simp
    simpa using hbefore.join operator hmore

/-- Words may stand anywhere. -/
theorem WellPlaced.append_words {tokens : List Token} (h : WellPlaced tokens)
    (words : List String) : WellPlaced (tokens ++ words.map Token.word) := by
  induction words generalizing tokens with
  | nil => simpa using h
  | cons word words ih =>
    have hword : WellPlaced (tokens ++ [.word word]) := wellPlaced_snoc.mpr ⟨h, fun _ => rfl⟩
    simpa using ih hword

theorem Joined.wellPlaced {tokens : List Token} (h : Joined tokens) : WellPlaced tokens := by
  induction h with
  | command _ => exact wellPlaced_nil.append_words _
  | @join before words operator hbefore _ ih =>
    have hop : WellPlaced (before ++ [.op operator]) :=
      wellPlaced_snoc.mpr ⟨ih, fun hd => absurd hd hbefore.not_due⟩
    simpa using hop.append_words words

/-- Tokens are placed well when they are joined commands, with nothing or one
operator after them. -/
theorem wellPlaced_iff {tokens : List Token} :
    WellPlaced tokens ↔
      tokens = [] ∨ Joined tokens ∨
        ∃ before operator, Joined before ∧ tokens = before ++ [.op operator] := by
  constructor
  · intro h
    induction tokens using List.reverseRecOn with
    | nil => exact .inl rfl
    | append_singleton tokens token ih =>
      obtain ⟨hplaced, hdue⟩ := wellPlaced_snoc.mp h
      right
      cases token with
      | word word =>
        left
        have hword : [word] ≠ [] := by simp
        rcases ih hplaced with rfl | hjoined | ⟨before, operator, hjoined, rfl⟩
        · exact Joined.command hword
        · exact hjoined.append_word word
        · simpa using hjoined.join operator hword
      | op operator =>
        have hfree : ¬ CommandDue tokens := fun hd => by simpa [isOperator] using hdue hd
        right
        rcases ih hplaced with rfl | hjoined | ⟨before, previous, _, rfl⟩
        · exact absurd (.inl rfl) hfree
        · exact ⟨tokens, operator, hjoined, rfl⟩
        · exact absurd (.inr ⟨previous, by simp⟩) hfree
  · rintro (rfl | h | ⟨before, operator, h, rfl⟩)
    · exact wellPlaced_nil
    · exact h.wellPlaced
    · exact wellPlaced_snoc.mpr ⟨h.wellPlaced, fun hd => absurd hd h.not_due⟩

/-- Tokens that are not placed well have a first misplaced operator. -/
theorem wellPlaced_or_misplaced (tokens : List Token) :
    WellPlaced tokens ∨ ∃ before operator, FirstMisplaced tokens before operator := by
  induction tokens using List.reverseRecOn with
  | nil => exact .inl wellPlaced_nil
  | append_singleton tokens token ih =>
    rcases ih with hplaced | ⟨before, operator, ⟨after, rfl⟩, hplaced, hdue⟩
    · by_cases hdue : CommandDue tokens
      · cases token with
        | word word => exact .inl (wellPlaced_snoc.mpr ⟨hplaced, fun _ => rfl⟩)
        | op operator => exact .inr ⟨tokens, operator, ⟨[], rfl⟩, hplaced, hdue⟩
      · exact .inl (wellPlaced_snoc.mpr ⟨hplaced, fun hd => absurd hd hdue⟩)
    · exact .inr ⟨before, operator, ⟨after ++ [token], by simp⟩, hplaced, hdue⟩

/-- A sentence is placed well and does not end in an operator that needs a
command on its right. -/
theorem sentence_iff {tokens : List Token} :
    Sentence tokens ↔ WellPlaced tokens ∧ tokens.getLast? ≠ some (.op .and) ∧
      tokens.getLast? ≠ some (.op .or) := by
  constructor
  · intro h
    cases h with
    | empty => exact ⟨wellPlaced_nil, by simp, by simp⟩
    | joined h =>
      have hlast : ∀ operator, tokens.getLast? ≠ some (.op operator) :=
        fun operator hop => h.not_due (.inr ⟨operator, hop⟩)
      exact ⟨h.wellPlaced, hlast .and, hlast .or⟩
    | closed h => exact ⟨wellPlaced_iff.mpr (.inr (.inr ⟨_, _, h, rfl⟩)), by simp, by simp⟩
  · rintro ⟨hplaced, hand, hor⟩
    rcases wellPlaced_iff.mp hplaced with rfl | h | ⟨before, operator, h, rfl⟩
    · exact .empty
    · exact .joined h
    · cases operator with
      | semicolon => exact .closed h
      | and => simp at hand
      | or => simp at hor

end Token

/-! ## §5 What grouping answers -/

/-- The error for an operator that stands where a command has to begin: two
semicolons in a row are shown as one token. -/
def SyntaxError.blame (before : List Token) (operator : Operator) : SyntaxError :=
  if operator = .semicolon ∧ before.getLast? = some (.op .semicolon) then .doubleSemicolon
  else .unexpected operator

namespace Command

/-- The first misplaced operator is the one that is blamed. -/
theorem ofTokens_misplaced {tokens before : List Token} {operator : Operator}
    (h : FirstMisplaced tokens before operator) :
    ofTokens tokens = .error (.blame before operator) := by
  obtain ⟨⟨after, rfl⟩, hplaced, hdue⟩ := h
  rcases Token.wellPlaced_iff.mp hplaced with rfl | hjoined | ⟨earlier, previous, hjoined, rfl⟩
  · rw [List.nil_append, ofTokens_operator]
    simp [SyntaxError.blame]
  · exact absurd hdue hjoined.not_due
  · obtain ⟨commands, hne, hlisted, rfl⟩ := Token.joined_iff.mp hjoined
    rw [List.append_assoc, List.singleton_append, ofTokens_operators hne hlisted]
    simp [misplaced, SyntaxError.blame]

/-- Tokens that are placed well are grouped unless an operator at their end
misses a command. -/
theorem ofTokens_wellPlaced {tokens : List Token} (h : WellPlaced tokens) :
    (∃ commands, ofTokens tokens = .ok commands ∧ Listed commands ∧
        (commands.flatMap Command.tokens = tokens ∨
          commands ≠ [] ∧ commands.flatMap Command.tokens ++ [.op .semicolon] = tokens)) ∨
      ofTokens tokens = .error .endOfFile ∧
        (tokens.getLast? = some (.op .and) ∨ tokens.getLast? = some (.op .or)) := by
  rcases Token.wellPlaced_iff.mp h with rfl | hjoined | ⟨before, operator, hjoined, rfl⟩
  · exact .inl ⟨[], rfl, listed_nil, .inl rfl⟩
  · obtain ⟨commands, -, hlisted, rfl⟩ := Token.joined_iff.mp hjoined
    exact .inl ⟨commands, ofTokens_listed hlisted, hlisted, .inl rfl⟩
  · obtain ⟨commands, hne, hlisted, rfl⟩ := Token.joined_iff.mp hjoined
    cases operator with
    | semicolon =>
      exact .inl ⟨commands, ofTokens_closed hne hlisted, hlisted, .inr ⟨hne, rfl⟩⟩
    | and => exact .inr ⟨ofTokens_open hne hlisted (.inl rfl), .inl (by simp)⟩
    | or => exact .inr ⟨ofTokens_open hne hlisted (.inr rfl), .inr (by simp)⟩

/-- Tokens write a list of commands when they are the tokens of these
commands, up to a semicolon at the end. -/
theorem ofTokens_eq_ok_iff {tokens : List Token} {commands : List Command} :
    ofTokens tokens = .ok commands ↔
      Listed commands ∧
        (commands.flatMap Command.tokens = tokens ∨
          commands ≠ [] ∧ commands.flatMap Command.tokens ++ [.op .semicolon] = tokens) := by
  constructor
  · intro hok
    rcases Token.wellPlaced_or_misplaced tokens with hplaced | ⟨before, operator, hmis⟩
    · rcases ofTokens_wellPlaced hplaced with ⟨others, hothers, h⟩ | ⟨herror, -⟩
      · rw [hok] at hothers
        cases hothers
        exact h
      · rw [hok] at herror
        cases herror
    · rw [ofTokens_misplaced hmis] at hok
      cases hok
  · rintro ⟨hlisted, rfl | ⟨hne, rfl⟩⟩
    · exact ofTokens_listed hlisted
    · exact ofTokens_closed hne hlisted

/-- The sentences are what is grouped. -/
theorem ofTokens_ok_iff_sentence {tokens : List Token} :
    (∃ commands, ofTokens tokens = .ok commands) ↔ Sentence tokens := by
  constructor
  · rintro ⟨commands, hok⟩
    obtain ⟨hlisted, h⟩ := ofTokens_eq_ok_iff.mp hok
    by_cases hne : commands = []
    · subst hne
      rcases h with rfl | ⟨hne, -⟩
      · exact .empty
      · exact absurd rfl hne
    · have hjoined : Joined (commands.flatMap Command.tokens) :=
        Token.joined_iff.mpr ⟨commands, hne, hlisted, rfl⟩
      rcases h with rfl | ⟨-, rfl⟩
      · exact .joined hjoined
      · exact .closed hjoined
  · intro h
    cases h with
    | empty => exact ⟨[], rfl⟩
    | joined h =>
      obtain ⟨commands, -, hlisted, rfl⟩ := Token.joined_iff.mp h
      exact ⟨commands, ofTokens_listed hlisted⟩
    | closed h =>
      obtain ⟨commands, hne, hlisted, rfl⟩ := Token.joined_iff.mp h
      exact ⟨commands, ofTokens_closed hne hlisted⟩

/-- Tokens are refused for their first misplaced operator, or, where all are
placed well, for an operator at the end that misses a command. -/
theorem ofTokens_eq_error_iff {tokens : List Token} {error : SyntaxError} :
    ofTokens tokens = .error error ↔
      (∃ before operator, FirstMisplaced tokens before operator ∧
          error = .blame before operator) ∨
        WellPlaced tokens ∧
          (tokens.getLast? = some (.op .and) ∨ tokens.getLast? = some (.op .or)) ∧
          error = .endOfFile := by
  constructor
  · intro herror
    rcases Token.wellPlaced_or_misplaced tokens with hplaced | ⟨before, operator, hmis⟩
    · rcases ofTokens_wellPlaced hplaced with ⟨commands, hok, -⟩ | ⟨hend, hlast⟩
      · rw [herror] at hok
        cases hok
      · rw [herror] at hend
        cases hend
        exact .inr ⟨hplaced, hlast, rfl⟩
    · rw [ofTokens_misplaced hmis] at herror
      cases herror
      exact .inl ⟨before, operator, hmis, rfl⟩
  · rintro (⟨before, operator, hmis, rfl⟩ | ⟨hplaced, hlast, rfl⟩)
    · exact ofTokens_misplaced hmis
    · rcases ofTokens_wellPlaced hplaced with ⟨commands, hok, -⟩ | ⟨hend, -⟩
      · obtain ⟨-, hand, hor⟩ :=
          Token.sentence_iff.mp (ofTokens_ok_iff_sentence.mp ⟨commands, hok⟩)
        rcases hlast with hlast | hlast
        · exact absurd hlast hand
        · exact absurd hlast hor
      · exact hend

/-- The tokens of the commands are those that were read, but for a semicolon
that closes them. -/
theorem flatMap_tokens_of_ok {tokens : List Token} {commands : List Command}
    (h : ofTokens tokens = .ok commands) :
    commands.flatMap Command.tokens = Token.withoutClosing tokens := by
  obtain ⟨hlisted, rfl | ⟨-, rfl⟩⟩ := ofTokens_eq_ok_iff.mp h
  · have hlast : (commands.flatMap Command.tokens).getLast? ≠ some (.op .semicolon) := by
      by_cases hne : commands = []
      · simp [hne]
      · have hjoined := Token.joined_iff.mpr ⟨commands, hne, hlisted, rfl⟩
        exact fun hlast => hjoined.not_due (.inr ⟨.semicolon, hlast⟩)
    rw [Token.withoutClosing, if_neg hlast]
  · simp [Token.withoutClosing]

end Command

end CommandShell
