/-
CommandShell.Proofs.Alias.Printed — which aliases are read back as they are
shown.

The definition of an alias is shown without any escapes, so the value can be
lost in two ways: blanks that are not single spaces become single spaces when
the words are joined again, and a quote at the end of a word that is not the
last closes the value too early. `printed_reads_back_iff` says that these are
the only ways.

The value is followed as the texts between its spaces. §1 says in these terms
what single spaces are and what a quote before a space is. §2 goes through the
words of a definition that is shown: whatever the value is, they are the
`definitionWords` of some texts (`exists_definitionWords`), and if they write
but one operand, no quote has closed it before the last of them
(`open_of_ofWords_eq_singleton`). So the value is read back exactly if it is
these texts with single spaces between them, and §3 compares the two.
-/
import CommandShell.Proofs.Alias.Definition
import Mathlib.Data.List.Chain

namespace CommandShell

/-! ## §1 The texts between spaces -/

namespace Text

/-- Every blank of the text is a space, and no two blanks are neighbours. -/
structure SingleSpaced (text : List Char) : Prop where
  space : ∀ c ∈ text, isBlank c = true → c = ' '
  apart : text.IsChain fun c d => isBlank c = true → isBlank d = false

theorem not_pair_infix_iff {a b : Char} {text : List Char} :
    ¬ [a, b] <:+: text ↔ text.IsChain fun c d => c = a → d ≠ b := by
  rw [List.isChain_iff_forall_rel_of_append_cons_cons]
  constructor
  · rintro h c d before after rfl rfl rfl
    exact h ⟨before, after, by simp⟩
  · rintro h ⟨before, after, rfl⟩
    exact h (List.append_assoc before [a, b] after) rfl rfl

/-- Texts without blanks, with spaces between them: no two of the spaces are
neighbours if none but the first and the last text is empty. -/
theorem isChain_blank_intercalate_iff {texts : List (List Char)}
    (h : ∀ text ∈ texts, ∀ c ∈ text, isBlank c = false) :
    (List.intercalate [' '] texts).IsChain (fun c d => isBlank c = true → isBlank d = false) ↔
      ∀ text ∈ texts.tail.dropLast, text ≠ [] := by
  have hspace : isBlank ' ' = true := by decide
  induction texts with
  | nil => simp
  | cons text rest ih =>
    have htext := h text (by simp)
    have hchain : text.IsChain fun c d => isBlank c = true → isBlank d = false :=
      List.isChain_iff_forall_rel_of_append_cons_cons.mpr fun c d before after heq hblank => by
        simp [htext c (by simp [heq])] at hblank
    have hjoint : ∀ c ∈ text.getLast?, isBlank c = false := fun c hc =>
      htext c (List.mem_of_getLast? hc)
    have hrest := ih fun other hother => h other (List.mem_cons_of_mem text hother)
    cases rest with
    | nil => simpa using hchain
    | cons next more =>
      have hnext := h next (by simp)
      rw [List.intercalate_cons_cons, List.append_assoc, List.isChain_append,
        List.singleton_append, List.isChain_cons]
      simp only [hrest]
      -- Behind the space stands what the next text begins with, or else another space.
      cases more with
      | nil => cases next <;> simp_all
      | cons last more => cases next <;> simp_all [List.intercalate_cons_cons]

/-- A space stands behind a quote if a text that is not the last ends in it. -/
theorem isChain_quote_intercalate_iff {texts : List (List Char)} (h : ∀ text ∈ texts, ' ' ∉ text) :
    (List.intercalate [' '] texts).IsChain (fun c d => c = '\'' → d ≠ ' ') ↔
      ∀ text ∈ texts.dropLast, text.getLast? ≠ some '\'' := by
  induction texts with
  | nil => simp
  | cons text rest ih =>
    have hchain : text.IsChain fun c d => c = '\'' → d ≠ ' ' :=
      List.isChain_iff_forall_rel_of_append_cons_cons.mpr fun c d before after heq _ hd =>
        h text (by simp) (by simp [heq, hd])
    have hrest := ih fun other hother => h other (List.mem_cons_of_mem text hother)
    cases rest with
    | nil => simpa using hchain
    | cons next more =>
      rw [List.intercalate_cons_cons, List.append_assoc, List.isChain_append,
        List.singleton_append, List.isChain_cons, hrest]
      cases hlast : text.getLast? <;> simp_all [and_comm]

variable {texts : List String} (h : ∀ text ∈ texts, ∀ c ∈ text.toList, isBlank c = false)
include h

theorem singleSpaced_intercalate_iff :
    SingleSpaced (" ".intercalate texts).toList ↔ ∀ text ∈ texts.tail.dropLast, text ≠ "" := by
  have hchars : ∀ chars ∈ texts.map String.toList, ∀ c ∈ chars, isBlank c = false := by
    simpa using h
  have hapart := isChain_blank_intercalate_iff hchars
  have hspace : ∀ c ∈ List.intercalate [' '] (texts.map String.toList),
      isBlank c = true → c = ' ' := by
    intro c hc hblank
    by_contra hne
    refine not_mem_intercalate hne (fun chars htext hmem => ?_) hc
    simp [hchars chars htext c hmem] at hblank
  rw [← List.map_tail, ← List.map_dropLast, List.forall_mem_map] at hapart
  rw [String.toList_intercalate]
  constructor
  · intro hsingle
    simpa using hapart.mp hsingle.apart
  · intro hinner
    exact ⟨hspace, hapart.mpr (by simpa using hinner)⟩

theorem not_quote_space_infix_intercalate_iff :
    ¬ ['\'', ' '] <:+: (" ".intercalate texts).toList ↔
      ∀ text ∈ texts.dropLast, text.toList.getLast? ≠ some '\'' := by
  have hspace : isBlank ' ' = true := by decide
  have hchars : ∀ chars ∈ texts.map String.toList, ' ' ∉ chars := by
    intro chars hmem hc
    obtain ⟨text, htext, rfl⟩ := List.mem_map.mp hmem
    simp [h text htext ' ' hc] at hspace
  rw [String.toList_intercalate, not_pair_infix_iff]
  have hquote := isChain_quote_intercalate_iff hchars
  rwa [← List.map_dropLast, List.forall_mem_map] at hquote

omit h in
/-- A text in which all blanks are spaces is texts without blanks that have
spaces between them. -/
theorem exists_intercalate_of_space {text : String}
    (hspace : ∀ c ∈ text.toList, isBlank c = true → c = ' ') :
    ∃ first more, text = " ".intercalate (first :: more) ∧
      ∀ part ∈ first :: more, ∀ c ∈ part.toList, isBlank c = false := by
  obtain ⟨first, more, hfields⟩ := List.exists_cons_of_ne_nil (fields_ne_nil ' ' text.toList)
  refine ⟨String.ofList first, more.map String.ofList, ?_, ?_⟩
  · have hjoined := intercalate_fields ' ' text.toList
    rw [hfields] at hjoined
    rw [← List.map_cons (f := String.ofList), ← String.toList_inj, String.toList_intercalate]
    simpa [Function.comp_def] using hjoined.symm
  · rw [← List.map_cons (f := String.ofList), List.forall_mem_map, ← hfields]
    intro field hfield c hc
    rw [String.toList_ofList] at hc
    obtain ⟨hmem, hne⟩ := mem_fields hfield c hc
    by_contra hblank
    exact hne (hspace c hmem (by simpa using hblank))

end Text

/-! ## §2 The words of a shown definition -/

/-- A text between a word and the closing quote goes on with the word, and with
its last word comes the quote. -/
theorem exists_closedWords (text : List Char) :
    ∀ opening : String, (∀ c ∈ opening.toList, Text.isBlank c = false) →
      ∃ first more, Text.words (opening.toList ++ text ++ ['\'']) =
        (closedWords (opening ++ first) more).map String.toList := by
  have hquote : Text.isBlank '\'' = false := by decide
  induction text with
  | nil =>
    intro opening hopening
    refine ⟨"", [], ?_⟩
    have hclosed : ∀ c ∈ opening.toList ++ ['\''], Text.isBlank c = false := by
      simpa [or_imp, forall_and, hquote] using hopening
    simpa [closedWords] using Text.words_of_no_blank (by simp) hclosed
  | cons c text ih =>
    intro opening hopening
    cases hc : Text.isBlank c with
    | false =>
      obtain ⟨first, more, hwords⟩ := ih (opening ++ String.ofList [c])
        (by simpa [or_imp, forall_and, hc] using hopening)
      refine ⟨String.ofList [c] ++ first, more, ?_⟩
      rw [← String.append_assoc, ← hwords]
      simp
    | true =>
      obtain ⟨first, more, hwords⟩ := ih "" (by simp)
      have hcut : Text.words (opening.toList ++ c :: text ++ ['\'']) =
          Text.words opening.toList ++ Text.words (text ++ ['\'']) := by
        rw [List.append_assoc, List.cons_append, Text.words_append_blank hc]
      -- A word that is empty so far is none: what follows the blank begins another.
      by_cases hempty : opening = ""
      · exact ⟨first, more, by rw [hcut, hempty]; simpa using hwords⟩
      · refine ⟨"", first :: more, ?_⟩
        rw [hcut, Text.words_of_no_blank (by simpa using hempty) hopening]
        simpa [closedWords] using hwords

/-- Whatever the value is, the words of a definition that is shown are those of
a definition, though maybe of another value. -/
theorem exists_definitionWords {name : String} (h : ∀ c ∈ name.toList, Text.isBlank c = false)
    (value : String) :
    ∃ first more, Text.wordsOf (aliasDefinition name value) = definitionWords name first more := by
  have hopening : ∀ c ∈ (name ++ "='").toList, Text.isBlank c = false := by
    have hequals : Text.isBlank '=' = false := by decide
    have hquote : Text.isBlank '\'' = false := by decide
    simpa [or_imp, forall_and, hequals, hquote] using h
  obtain ⟨first, more, hwords⟩ := exists_closedWords value.toList _ hopening
  refine ⟨first, more, ?_⟩
  have htext : (aliasDefinition name value).toList =
      (name ++ "='").toList ++ value.toList ++ ['\''] := by
    simp [aliasDefinition]
  rw [Text.wordsOf, htext, hwords, definitionWords]
  simp [Function.comp_def]

/-- The words hold no blanks and are not empty if the texts hold no blanks and
none but the last, with which the quote comes, is empty. -/
theorem forall_mem_closedWords_iff {word : String} {rest : List String} :
    (∀ other ∈ closedWords word rest, other ≠ "" ∧ ∀ c ∈ other.toList, Text.isBlank c = false) ↔
      (∀ text ∈ word :: rest, ∀ c ∈ text.toList, Text.isBlank c = false) ∧
        ∀ text ∈ (word :: rest).dropLast, text ≠ "" := by
  have hquote : Text.isBlank '\'' = false := by decide
  induction rest generalizing word with
  | nil => simp [closedWords, or_imp, forall_and, hquote]
  | cons next rest ih =>
    have hcons : (word :: next :: rest).dropLast = word :: (next :: rest).dropLast := rfl
    simp only [closedWords, hcons, List.forall_mem_cons, ih]
    tauto

theorem forall_mem_definitionWords_iff {name first : String} {more : List String}
    (hname : ∀ c ∈ name.toList, Text.isBlank c = false) :
    (∀ word ∈ definitionWords name first more,
        word ≠ "" ∧ ∀ c ∈ word.toList, Text.isBlank c = false) ↔
      (∀ text ∈ first :: more, ∀ c ∈ text.toList, Text.isBlank c = false) ∧
        ∀ text ∈ more.dropLast, text ≠ "" := by
  have hequals : Text.isBlank '=' = false := by decide
  have hquote : Text.isBlank '\'' = false := by decide
  have hopening : (∀ c ∈ (name ++ "='" ++ first).toList, Text.isBlank c = false) ↔
      ∀ c ∈ first.toList, Text.isBlank c = false := by
    simpa [or_imp, forall_and, hequals, hquote] using fun _ => hname
  rw [definitionWords, forall_mem_closedWords_iff, List.forall_mem_cons, hopening,
    List.forall_mem_cons]
  cases more <;> simp

namespace AliasOperand

/-- Words write at least one operand, and so does a value that is under way. -/
theorem ofWordsFrom_some_ne_nil (pending : Open) (words : List String) :
    ofWordsFrom (some pending) words ≠ [] := by
  induction words generalizing pending with
  | nil => simp [ofWordsFrom]
  | cons word rest ih =>
    rw [ofWordsFrom]
    split
    · simp
    · exact ih _

theorem ofWordsFrom_none_eq_nil_iff {words : List String} :
    ofWordsFrom none words = [] ↔ words = [] := by
  cases words with
  | nil => simp [ofWordsFrom]
  | cons word rest =>
    rw [ofWordsFrom]
    split
    · simp
    · simpa using ofWordsFrom_some_ne_nil _ rest

/-- A text behind its opening quote closes where it ends in a quote. -/
theorem closes_of_getLast? {quote : Char} {text : List Char} (h : text.getLast? = some quote) :
    closes quote (quote :: text) = true := by
  cases text with
  | nil => simp at h
  | cons c rest => simpa [closes, List.getLast?_cons_cons] using h

/-- Words that do no more than close a value close it in the last of them. -/
theorem open_of_ofWordsFrom_eq_singleton {name : String} {operand : AliasOperand}
    {text : List Char} {word : String} {rest : List String}
    (h : ofWordsFrom (some ⟨name, '\'', '\'' :: text⟩) (closedWords word rest) = [operand]) :
    ∀ other ∈ (word :: rest).dropLast, other.toList.getLast? ≠ some '\'' := by
  induction rest generalizing text word with
  | nil => simp
  | cons next rest ih =>
    rw [closedWords, ofWordsFrom] at h
    cases hlast : closes '\'' ('\'' :: text ++ ' ' :: word.toList) with
    | true =>
      -- The words behind it would write operands of their own.
      simp only [hlast, if_true] at h
      have hnone := (List.cons.inj h).2
      exact absurd (ofWordsFrom_none_eq_nil_iff.mp hnone) (closedWords_ne_nil next rest)
    | false =>
      simp only [hlast] at h
      rw [List.cons_append] at hlast h
      have hword : word.toList.getLast? ≠ some '\'' := by
        intro hquote
        have hend : (text ++ ' ' :: word.toList).getLast? = some '\'' := by
          simp [List.getLast?_append, List.getLast?_cons, hquote]
        simp [closes_of_getLast? hend] at hlast
      have hrest : ∀ other ∈ (next :: rest).dropLast, other.toList.getLast? ≠ some '\'' :=
        ih (by simpa using h)
      simpa [hword] using hrest

/-- The words of a definition write one operand only if no quote closes the
value before the last of them. -/
theorem open_of_ofWords_eq_singleton {name first : String} {more : List String}
    {operand : AliasOperand} (hname : name ≠ "") (hequals : '=' ∉ name.toList)
    (h : ofWords (definitionWords name first more) = [operand]) :
    ∀ word ∈ (first :: more).dropLast, word.toList.getLast? ≠ some '\'' := by
  cases more with
  | nil => simp
  | cons next rest =>
    have hbegin := @begin_quoted name (name ++ "='" ++ first) '\'' first.toList (.inl rfl) hname
      hequals (by simp)
    rw [definitionWords, closedWords, ofWords, ofWordsFrom, hbegin] at h
    cases hlast : closes '\'' ('\'' :: first.toList) with
    | true =>
      simp only [hlast, if_true] at h
      have hnone := (List.cons.inj h).2
      exact absurd (ofWordsFrom_none_eq_nil_iff.mp hnone) (closedWords_ne_nil next rest)
    | false =>
      simp only [hlast] at h
      have hfirst : first.toList.getLast? ≠ some '\'' := fun hquote => by
        simp [closes_of_getLast? hquote] at hlast
      have hrest := open_of_ofWordsFrom_eq_singleton h
      simpa [hfirst] using hrest

end AliasOperand

/-! ## §3 Reading back -/

open Text (SingleSpaced)

/-- **Where a shown alias is read back.** The words of a definition as it is
shown define the alias with the value it has, and do nothing else, exactly if
every blank in the value is a single space and no space follows a quote. -/
theorem printed_reads_back_iff {name : String} (hname : name ≠ "")
    (hequals : '=' ∉ name.toList) (hblank : ∀ c ∈ name.toList, Text.isBlank c = false)
    (value : String) :
    AliasOperand.ofWords (Text.wordsOf (aliasDefinition name value)) = [.define name value] ↔
      SingleSpaced value.toList ∧ ¬ ['\'', ' '] <:+: value.toList := by
  constructor
  · intro h
    obtain ⟨first, more, hwords⟩ := exists_definitionWords hblank value
    have hall : ∀ word ∈ definitionWords name first more,
        word ≠ "" ∧ ∀ c ∈ word.toList, Text.isBlank c = false := by
      intro word hword
      rw [← hwords] at hword
      obtain ⟨chars, hchars, rfl⟩ := List.mem_map.mp hword
      simpa using Text.mem_words hchars
    obtain ⟨htexts, hinner⟩ := (forall_mem_definitionWords_iff hblank).mp hall
    rw [hwords] at h
    have hopen := AliasOperand.open_of_ofWords_eq_singleton hname hequals h
    rw [AliasOperand.ofWords_definitionWords hname hequals hopen] at h
    obtain rfl : " ".intercalate (first :: more) = value := by simpa using h
    exact ⟨(Text.singleSpaced_intercalate_iff htexts).mpr hinner,
      (Text.not_quote_space_infix_intercalate_iff htexts).mpr hopen⟩
  · rintro ⟨hsingle, hquote⟩
    obtain ⟨first, more, rfl, htexts⟩ := Text.exists_intercalate_of_space hsingle.space
    have hinner := (Text.singleSpaced_intercalate_iff htexts).mp hsingle
    have hopen := (Text.not_quote_space_infix_intercalate_iff htexts).mp hquote
    have hwords : Text.wordsOf (aliasDefinition name (" ".intercalate (first :: more))) =
        definitionWords name first more := by
      rw [← intercalate_definitionWords]
      exact Text.wordsOf_intercalate ((forall_mem_definitionWords_iff hblank).mpr ⟨htexts, hinner⟩)
    rw [hwords]
    exact AliasOperand.ofWords_definitionWords hname hequals hopen

/-- A value that begins with a space and ends in a quote is read back; a quote
at the end of a word, two spaces and a tab are each too much. -/
theorem printed_reads_back_iff_quotes :
    "ll" ≠ "" ∧ '=' ∉ "ll".toList ∧ (∀ c ∈ "ll".toList, Text.isBlank c = false) ∧
      AliasOperand.ofWords (Text.wordsOf (aliasDefinition "ll" " it's 'a'")) =
        [.define "ll" " it's 'a'"] ∧
      ∀ value ∈ ["it' s", "a  b", "a\tb"],
        AliasOperand.ofWords (Text.wordsOf (aliasDefinition "ll" value)) ≠
          [.define "ll" value] := by
  have hname : "ll" ≠ "" := by decide
  have hequals : '=' ∉ "ll".toList := by decide
  have hblank : ∀ c ∈ "ll".toList, Text.isBlank c = false := by simp [Text.isBlank]
  have hiff := printed_reads_back_iff hname hequals hblank
  refine ⟨hname, hequals, hblank, (hiff _).mpr ⟨⟨?_, ?_⟩, ?_⟩, fun value hvalue => ?_⟩
  · simp [Text.isBlank]
  · decide
  · decide
  · rw [ne_eq, hiff]
    have hcases : value = "it' s" ∨ value = "a  b" ∨ value = "a\tb" := by simpa using hvalue
    rintro ⟨⟨hspace, hapart⟩, hquote⟩
    rcases hcases with rfl | rfl | rfl
    · exact hquote ⟨['i', 't'], ['s'], by decide⟩
    · revert hapart
      decide
    · have htab := hspace '\t' (by decide) (by decide)
      revert htab
      decide

end CommandShell
