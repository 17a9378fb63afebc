/-
CommandShell.Proofs.Alias.Definition — how the definition of an alias is
written on a line and read back.

The value of a definition stands in quotes and holds spaces, so a line cuts
it into several words: the name and the opening quote are glued to the first
word of the value, and the closing quote to the last. §1 says that these are
words as a line can hold them, and that with single spaces between them they
are the definition as it is shown (`intercalate_definitionWords`). §2 puts the
words together again: as long as no word but the last ends in a quote, they
write the one operand that defines the alias (`ofWords_definitionWords`).
-/
import CommandShell.Alias.Operand
import CommandShell.Alias.Table
import CommandShell.Proofs.Syntax.Pieces
import CommandShell.Proofs.Text.Fields

namespace CommandShell

open Token (IsWord OperatorFree)

/-! ## §1 The words of a definition -/

/-- Words with a closing quote at the end of the last one. -/
def closedWords (word : String) : List String → List String
  | [] => [word ++ "'"]
  | next :: rest => word :: closedWords next rest

/-- The words of the definition of an alias, given the first word of its value
and the others. -/
def definitionWords (name first : String) (more : List String) : List String :=
  closedWords (name ++ "='" ++ first) more

theorem closedWords_ne_nil (word : String) (rest : List String) : closedWords word rest ≠ [] := by
  cases rest <;> simp [closedWords]

theorem intercalate_closedWords (word : String) (rest : List String) :
    " ".intercalate (closedWords word rest) = " ".intercalate (word :: rest) ++ "'" := by
  induction rest generalizing word with
  | nil => simp [closedWords]
  | cons next rest ih =>
    rw [closedWords, String.intercalate_cons_of_ne_nil (closedWords_ne_nil next rest), ih,
      String.intercalate_cons_cons]
    simp only [String.append_assoc]

/-- With single spaces between them the words are the definition as it is
shown. -/
theorem intercalate_definitionWords (name first : String) (more : List String) :
    " ".intercalate (definitionWords name first more) =
      aliasDefinition name (" ".intercalate (first :: more)) := by
  rw [definitionWords, intercalate_closedWords, aliasDefinition]
  cases more with
  | nil => simp
  | cons next rest =>
    rw [String.intercalate_cons_cons, String.intercalate_cons_cons]
    simp only [String.append_assoc]

/-- What a closing quote does not change holds of all the words. -/
theorem forall_mem_closedWords {p : String → Prop} (hquote : ∀ word, p word → p (word ++ "'"))
    {word : String} {rest : List String} (h : ∀ other ∈ word :: rest, p other) :
    ∀ other ∈ closedWords word rest, p other := by
  induction rest generalizing word with
  | nil => simpa [closedWords] using hquote word (h word (by simp))
  | cons next rest ih =>
    have hrest := ih fun other hother => h other (List.mem_cons_of_mem word hother)
    simpa [closedWords] using ⟨h word (by simp), hrest⟩

/-- A word goes on as a word behind a character that no operator holds. -/
theorem Token.IsWord.extend {word text : String} (h : IsWord word) {c : Char} {after : List Char}
    (htext : text.toList = word.toList ++ c :: after)
    (hc : ∀ operator : Operator, c ∉ operator.text.toList)
    (hblank : ∀ d ∈ c :: after, Text.isBlank d = false) (hfree : OperatorFree after) :
    IsWord text := by
  have hne : word.toList ≠ [] := by simpa using h.ne_empty
  refine ⟨?_, fun d hd => ?_, ?_, ?_⟩
  · rintro rfl
    simp at htext
  · rw [htext] at hd
    rcases List.mem_append.mp hd with hd | hd
    · exact h.no_blank d hd
    · exact hblank d hd
  · rw [htext]
    exact h.operatorFree.append_cons hc hfree
  · rw [htext, List.head?_append_of_ne_nil _ hne]
    exact h.no_comment

/-- No operator holds a quote or an equals sign. -/
theorem Operator.quote_not_mem (operator : Operator) : '\'' ∉ operator.text.toList := by
  cases operator <;> decide

theorem Operator.equals_not_mem (operator : Operator) : '=' ∉ operator.text.toList := by
  cases operator <;> decide

theorem Token.IsWord.append_quote {word : String} (h : IsWord word) : IsWord (word ++ "'") :=
  h.extend (by simp) Operator.quote_not_mem (by simp [Text.isBlank]) Token.operatorFree_nil

/-- The words of a definition can stand in a line if the name and the words of
the value can. -/
theorem isWord_definitionWords {name first : String} {more : List String} (hname : IsWord name)
    (h : ∀ word ∈ first :: more, IsWord word) :
    ∀ word ∈ definitionWords name first more, IsWord word := by
  have hfirst := h first (by simp)
  have hopening : IsWord (name ++ "='" ++ first) := by
    refine hname.extend (by simp) Operator.equals_not_mem ?_
      (Token.operatorFree_nil.append_cons Operator.quote_not_mem hfirst.operatorFree)
    intro d hd
    rcases List.mem_cons.mp hd with rfl | hd
    · decide
    · rcases List.mem_cons.mp hd with rfl | hd
      · decide
      · exact hfirst.no_blank d hd
  refine forall_mem_closedWords (fun _ hword => hword.append_quote) fun word hword => ?_
  rcases List.mem_cons.mp hword with rfl | hword
  · exact hopening
  · exact h word (List.mem_cons_of_mem first hword)

/-- The words of a definition hold no dollar sign that is not in the name or in
the value. -/
theorem dollar_not_mem_definitionWords {name first : String} {more : List String}
    (hname : '$' ∉ name.toList) (h : ∀ word ∈ first :: more, '$' ∉ word.toList) :
    ∀ word ∈ definitionWords name first more, '$' ∉ word.toList := by
  have hopening : '$' ∉ (name ++ "='" ++ first).toList := by simp [hname, h first]
  refine forall_mem_closedWords (fun word hword => by simp [hword]) fun word hword => ?_
  rcases List.mem_cons.mp hword with rfl | hword
  · exact hopening
  · exact h word (List.mem_cons_of_mem first hword)

/-! ## §2 The operand that they write -/

namespace AliasOperand

/-- A quoted text closes where it ends in its quote again. -/
theorem closes_quoted (quote : Char) (text : List Char) :
    closes quote (quote :: text ++ [quote]) = true := by
  have hlast : (quote :: text ++ [quote]).getLast? = some quote := List.getLast?_concat
  rw [closes, hlast]
  simp

theorem unquote_quoted (quote : Char) (text : List Char) :
    unquote quote (quote :: text ++ [quote]) = String.ofList text := by
  rw [unquote, if_pos (closes_quoted quote text)]
  simp

/-- A quoted text that ends in something else stays open, and so does the
quote alone. -/
theorem closes_open {quote : Char} {text : List Char} (h : text.getLast? ≠ some quote) :
    closes quote (quote :: text) = false := by
  cases text with
  | nil => simp [closes]
  | cons c rest => simpa [closes, List.getLast?_cons_cons] using h

/-- What a word asks for whose value begins with a quote. -/
theorem begin_quoted {name word : String} {quote : Char} {value : List Char}
    (hquote : quote = '\'' ∨ quote = '"') (hname : name ≠ "") (hequals : '=' ∉ name.toList)
    (hword : word.toList = name.toList ++ '=' :: quote :: value) :
    begin word =
      if closes quote (quote :: value) then .inl (.define name (unquote quote (quote :: value)))
      else .inr ⟨name, quote, quote :: value⟩ := by
  have hne : name.toList ≠ [] := by simpa using hname
  obtain ⟨c, chars, hchars⟩ := List.exists_cons_of_ne_nil hne
  have hofList : String.ofList (c :: chars) = name := by rw [← hchars, String.ofList_toList]
  rw [begin, hword, Text.cutAt_append hequals, hchars]
  simp only [hofList, if_pos hquote]

/-- A value that is under way is closed by the last of the words. -/
theorem ofWordsFrom_closedWords (name : String) (text : List Char) (word : String)
    (rest : List String)
    (h : ∀ other ∈ (word :: rest).dropLast, other.toList.getLast? ≠ some '\'') :
    ofWordsFrom (some ⟨name, '\'', '\'' :: text⟩) (closedWords word rest) =
      [.define name (String.ofList text ++ " " ++ " ".intercalate (word :: rest))] := by
  induction rest generalizing text word with
  | nil =>
    have hclosed : '\'' :: text ++ ' ' :: (word ++ "'").toList =
        '\'' :: (text ++ ' ' :: word.toList) ++ ['\''] := by simp
    rw [closedWords, ofWordsFrom]
    simp only [hclosed]
    rw [if_pos (closes_quoted _ _), unquote_quoted, ofWordsFrom]
    simp [String.append_assoc]
  | cons next rest ih =>
    -- The text ends as the word does, or in the space before a word that is empty.
    have hword : (text ++ ' ' :: word.toList).getLast? ≠ some '\'' := by
      have := h word (by simp)
      cases hlast : word.toList.getLast? <;> simp_all [List.getLast?_cons]
    have hopen : closes '\'' ('\'' :: text ++ ' ' :: word.toList) = false := closes_open hword
    have hrest := ih (text ++ ' ' :: word.toList) next fun other hother =>
      h other (by simpa using .inr hother)
    rw [closedWords, ofWordsFrom]
    simp only [hopen]
    rw [List.cons_append, if_neg (by simp), hrest, String.intercalate_cons_cons]
    simp [String.append_assoc]

/-- The words of a definition write the one operand that defines the alias. -/
theorem ofWords_definitionWords {name first : String} {more : List String}
    (hname : name ≠ "") (hequals : '=' ∉ name.toList)
    (h : ∀ word ∈ (first :: more).dropLast, word.toList.getLast? ≠ some '\'') :
    ofWords (definitionWords name first more) =
      [.define name (" ".intercalate (first :: more))] := by
  -- A value of one word closes in the word that opens it; any other stays open there.
  cases more with
  | nil =>
    have hbegin := @begin_quoted name (name ++ "='" ++ first ++ "'") '\'' (first.toList ++ ['\''])
      (.inl rfl) hname hequals (by simp)
    have hclosed := closes_quoted '\'' first.toList
    have hvalue := unquote_quoted '\'' first.toList
    rw [List.cons_append] at hclosed hvalue
    rw [if_pos hclosed, hvalue, String.ofList_toList] at hbegin
    rw [definitionWords, closedWords, ofWords, ofWordsFrom, hbegin]
    simp [ofWordsFrom]
  | cons next rest =>
    have hopen := closes_open (h first (by simp))
    have hbegin := @begin_quoted name (name ++ "='" ++ first) '\'' first.toList (.inl rfl) hname
      hequals (by simp)
    rw [hopen, if_neg (by simp)] at hbegin
    have hrest := ofWordsFrom_closedWords name first.toList next rest fun other hother =>
      h other (by simpa using .inr hother)
    rw [definitionWords, closedWords, ofWords, ofWordsFrom, hbegin]
    simp only [hrest]
    rw [String.ofList_toList, String.intercalate_cons_cons]

end AliasOperand

end CommandShell
