/-
CommandShell.Proofs.Text.Words — how the words of a text hang on its blanks.

`words_append_blank` is the equation the rest goes back to: a blank cuts a
text in two, and the words on its left and right have nothing to do with
each other. `words_of_no_blank` says what a text without blanks is,
`words_intercalate` that words joined by spaces are found again, and
`infix_of_mem_words` that a word is a stretch of the text it is read from.
-/
import CommandShell.Text.Blank
import Mathlib.Data.List.Infix

namespace CommandShell.Text

/-- A character that is not blank starts a word or goes on with the next one. -/
theorem words_cons {c : Char} (h : isBlank c = false) (rest : List Char) :
    words (c :: rest) =
      if wordEnds rest then [c] :: words rest else consHead c (words rest) := by
  simp [words, h]

/-- A text that starts with a character that is not blank has a word. -/
theorem words_ne_nil_of_not_wordEnds {text : List Char} (h : wordEnds text = false) :
    words text ≠ [] := by
  cases text with
  | nil => simp [wordEnds] at h
  | cons c rest =>
    rw [words_cons h]
    split
    · simp
    · exact consHead_ne_nil c (words rest)

/-- Whether a word ends is seen from the next character alone. -/
theorem wordEnds_append {text : List Char} (h : text ≠ []) (rest : List Char) :
    wordEnds (text ++ rest) = wordEnds text := by
  cases text with
  | nil => exact absurd rfl h
  | cons c text => rfl

theorem consHead_append (c : Char) {pieces : List (List Char)} (h : pieces ≠ [])
    (others : List (List Char)) :
    consHead c (pieces ++ others) = consHead c pieces ++ others := by
  cases pieces with
  | nil => exact absurd rfl h
  | cons piece pieces => rfl

/-- A blank cuts a text into two whose words are found apart. -/
theorem words_append_blank {c : Char} (hc : isBlank c = true) (before after : List Char) :
    words (before ++ c :: after) = words before ++ words after := by
  induction before with
  | nil => exact words_blank hc after
  | cons d before ih =>
    by_cases hd : isBlank d = true
    · rw [List.cons_append, words_blank hd, words_blank hd, ih]
    · have hd : isBlank d = false := by simpa using hd
      cases before with
      | nil => simp [words, hd, wordEnds, hc]
      | cons e before =>
        have hends : wordEnds (e :: before ++ c :: after) = wordEnds (e :: before) :=
          wordEnds_append (by simp) _
        rw [List.cons_append, words_cons hd, words_cons hd, hends, ih]
        split
        · rfl
        · next he =>
          exact consHead_append d (words_ne_nil_of_not_wordEnds (by simpa using he)) _

/-- A stretch without blanks is one word if the text ends there or goes on
with a blank. -/
theorem words_append_of_wordEnds {text rest : List Char} (hne : text ≠ [])
    (h : ∀ c ∈ text, isBlank c = false) (hends : wordEnds rest = true) :
    words (text ++ rest) = text :: words rest := by
  induction text with
  | nil => exact absurd rfl hne
  | cons c text ih =>
    have hc : isBlank c = false := h c (by simp)
    cases text with
    | nil => simp [words_cons hc, hends]
    | cons d text =>
      have hd : isBlank d = false := h d (by simp)
      have hrest := ih (by simp) fun e he => h e (List.mem_cons_of_mem c he)
      rw [List.cons_append, words_cons hc, hrest]
      simp [wordEnds, hd]

/-- A text without blanks is one word. -/
theorem words_of_no_blank {text : List Char} (hne : text ≠ [])
    (h : ∀ c ∈ text, isBlank c = false) : words text = [text] := by
  simpa using words_append_of_wordEnds hne h (rfl : wordEnds [] = true)

/-- Whatever cuts a text at every separator gives texts back that it does not
cut and that are joined by separators. -/
theorem pieces_intercalate {separator : Char} {split : List Char → List (List Char)}
    (hnil : split [] = [])
    (hcut : ∀ before after, split (before ++ separator :: after) = split before ++ split after)
    {texts : List (List Char)} (h : ∀ text ∈ texts, split text = [text]) :
    split (List.intercalate [separator] texts) = texts := by
  induction texts with
  | nil => exact hnil
  | cons text texts ih =>
    have htext := h text (by simp)
    have hrest := ih fun other hother => h other (List.mem_cons_of_mem text hother)
    cases texts with
    | nil => simpa using htext
    | cons next texts =>
      rw [List.intercalate_cons_cons, List.append_assoc, List.singleton_append, hcut, htext,
        hrest]
      rfl

/-- Words joined by spaces are found again. -/
theorem words_intercalate {texts : List (List Char)}
    (h : ∀ text ∈ texts, text ≠ [] ∧ ∀ c ∈ text, isBlank c = false) :
    words (List.intercalate [' '] texts) = texts :=
  pieces_intercalate rfl (fun before after => words_append_blank (by decide) before after)
    fun text htext => words_of_no_blank (h text htext).1 (h text htext).2

theorem wordsOf_intercalate {texts : List String}
    (h : ∀ text ∈ texts, text ≠ "" ∧ ∀ c ∈ text.toList, isBlank c = false) :
    wordsOf (" ".intercalate texts) = texts := by
  have hwords : words (" ".intercalate texts).toList = texts.map String.toList := by
    rw [String.toList_intercalate]
    refine words_intercalate fun chars hchars => ?_
    obtain ⟨text, htext, rfl⟩ := List.mem_map.mp hchars
    exact ⟨by simpa using (h text htext).1, (h text htext).2⟩
  rw [wordsOf, hwords]
  simp [Function.comp_def]

/-- A word is a stretch of the text it is read from, and the first one starts
where the text does unless a blank stands there. -/
theorem infix_of_mem_words {text word : List Char} (h : word ∈ words text) :
    word <:+: text := by
  suffices hall : (∀ w ∈ words text, w <:+: text) ∧
      (wordEnds text = false → ∀ w ∈ (words text).head?, w <+: text) from hall.1 word h
  clear h
  induction text with
  | nil => simp [wordEnds]
  | cons c rest ih =>
    obtain ⟨hmem, hhead⟩ := ih
    by_cases hc : isBlank c = true
    · refine ⟨fun w hw => ?_, fun hends => absurd hc (by simpa [wordEnds] using hends)⟩
      rw [words_blank hc] at hw
      exact (hmem w hw).trans (List.suffix_cons c rest).isInfix
    · rw [words_cons (by simpa using hc)]
      by_cases hr : wordEnds rest = true
      · rw [if_pos hr]
        refine ⟨fun w hw => ?_, fun _ w hw => ?_⟩
        · rcases List.mem_cons.mp hw with rfl | hw
          · exact (List.prefix_append [c] rest).isInfix
          · exact (hmem w hw).trans (List.suffix_cons c rest).isInfix
        · obtain rfl : [c] = w := by simpa using hw
          exact List.prefix_append [c] rest
      · have hr' : wordEnds rest = false := by simpa using hr
        obtain ⟨first, others, hsplit⟩ :=
          List.exists_cons_of_ne_nil (words_ne_nil_of_not_wordEnds hr')
        have hfirst : c :: first <+: c :: rest := by
          have := hhead hr' first (by simp [hsplit])
          exact (List.prefix_cons_inj c).mpr this
        rw [if_neg hr, hsplit, consHead_cons]
        refine ⟨fun w hw => ?_, fun _ w hw => ?_⟩
        · rcases List.mem_cons.mp hw with rfl | hw
          · exact hfirst.isInfix
          · exact (hmem w (by simp [hsplit, hw])).trans (List.suffix_cons c rest).isInfix
        · obtain rfl : c :: first = w := by simpa using hw
          exact hfirst

end CommandShell.Text
