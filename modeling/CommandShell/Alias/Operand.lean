/-
CommandShell.Alias.Operand — the operands of the command that defines and
shows aliases.

A word with an equals sign after its first character defines an alias. A
value that begins with a quote goes on over the following words, a space
between each two, until the text ends in that same quote.
-/
import CommandShell.Text.Field

namespace CommandShell

/-- What one operand asks for. -/
inductive AliasOperand
  | lookup (name : String)
  | define (name value : String)
  deriving Repr, DecidableEq

namespace AliasOperand

/-- A quoted value that the words so far have begun: its text starts with
the quote. -/
structure Open where
  name : String
  quote : Char
  text : List Char
  deriving Repr, DecidableEq

/-- Whether a text that starts with a quote also ends with it. -/
def closes (quote : Char) (text : List Char) : Bool :=
  2 ≤ text.length && text.getLast? == some quote

/-- The value of a quoted text: without the quote it starts with, and
without the one it ends with if there is one. -/
def unquote (quote : Char) (text : List Char) : String :=
  String.ofList (if closes quote text then text.tail.dropLast else text.tail)

/-- What a word asks for where no quoted value is under way. -/
def begin (word : String) : AliasOperand ⊕ Open :=
  match Text.cutAt '=' word.toList with
  | none | some ([], _) => .inl (.lookup word)
  | some (name, value) =>
    match value with
    | [] => .inl (.define (String.ofList name) "")
    | quote :: _ =>
      if (quote = '\'' ∨ quote = '"') then
        if closes quote value then .inl (.define (String.ofList name) (unquote quote value))
        else .inr ⟨String.ofList name, quote, value⟩
      else .inl (.define (String.ofList name) (String.ofList value))

/-- The operands that words write, given the quoted value under way. -/
def ofWordsFrom : Option Open → List String → List AliasOperand
  | none, [] => []
  | some pending, [] => [.define pending.name (unquote pending.quote pending.text)]
  | none, word :: rest =>
    match begin word with
    | .inl operand => operand :: ofWordsFrom none rest
    | .inr pending => ofWordsFrom (some pending) rest
  | some pending, word :: rest =>
    let text := pending.text ++ ' ' :: word.toList
    if closes pending.quote text then
      .define pending.name (unquote pending.quote text) :: ofWordsFrom none rest
    else ofWordsFrom (some { pending with text := text }) rest

/-- The operands that words write. -/
def ofWords (words : List String) : List AliasOperand :=
  ofWordsFrom none words

end AliasOperand

end CommandShell
