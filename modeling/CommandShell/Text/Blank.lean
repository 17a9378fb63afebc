/-
CommandShell.Text.Blank — blank characters and the words they separate.

No word is empty, and none holds a blank (`mem_words`).
-/
import CommandShell.Text.Pieces

namespace CommandShell.Text

/-- The characters that separate words: the ASCII controls from tab to
carriage return and from file separator to space, next line, and the
space separators, line separator and paragraph separator of Unicode. -/
def isBlank (c : Char) : Bool :=
  let n := c.toNat
  (0x09 ≤ n && n ≤ 0x0D) || (0x1C ≤ n && n ≤ 0x20) || n == 0x85 || n == 0xA0 || n == 0x1680 ||
    (0x2000 ≤ n && n ≤ 0x200A) || n == 0x2028 || n == 0x2029 || n == 0x202F || n == 0x205F ||
    n == 0x3000

/-- A text with no first character, or a blank one: a word before it ends here. -/
def wordEnds : List Char → Bool
  | [] => true
  | c :: _ => isBlank c

/-- The maximal runs of characters that are not blank, in order. -/
def words : List Char → List (List Char)
  | [] => []
  | c :: rest =>
    if isBlank c then words rest
    else if wordEnds rest then [c] :: words rest
    else consHead c (words rest)

/-- The words of a string. -/
def wordsOf (text : String) : List String :=
  (words text.toList).map String.ofList

/-- The text without the blanks at its end. -/
def trimRight (text : String) : String :=
  String.ofList (text.toList.reverse.dropWhile isBlank).reverse

@[simp] theorem words_nil : words [] = [] := rfl

theorem words_blank {c : Char} (h : isBlank c = true) (rest : List Char) :
    words (c :: rest) = words rest := by
  simp [words, h]

/-- Every word is a non-empty run of characters that are not blank. -/
theorem mem_words {text word : List Char} (h : word ∈ words text) :
    word ≠ [] ∧ ∀ c ∈ word, isBlank c = false := by
  induction text generalizing word with
  | nil => simp at h
  | cons c rest ih =>
    by_cases hc : isBlank c = true
    · rw [words_blank hc] at h
      exact ih h
    · by_cases hr : wordEnds rest = true
      · simp only [words, hc, hr, if_true] at h
        rcases List.mem_cons.mp h with rfl | h
        · simpa using hc
        · exact ih h
      · simp only [words, hc, hr] at h
        cases hw : words rest with
        | nil =>
          simp only [hw, consHead_nil] at h
          simp_all
        | cons first others =>
          simp only [hw, consHead_cons] at h
          rcases List.mem_cons.mp h with rfl | h
          · refine ⟨by simp, fun d hd => ?_⟩
            rcases List.mem_cons.mp hd with rfl | hd
            · simpa using hc
            · exact (@ih first (by simp [hw])).2 d hd
          · exact ih (by simp [hw, h])

end CommandShell.Text
