/-
CommandShell.Proofs.Syntax.Pieces — how a line falls into pieces.

§1 is about texts in which no operator occurs. §2 cuts a line at its first
operator (`setApart_first`) and at any blank (`setApart_append_blank`); both
say that `setApart` treats the two sides on their own. §3 draws from this
what the words and operators of a line look like: every token of a line
either is an operator or is a text that `IsWord` describes (`isWord_of_mem_ofLine`),
and texts of these two kinds with single spaces between them are read back
one by one (`ofLine_intercalate`).
-/
import CommandShell.Syntax.Token
import CommandShell.Proofs.Text.Words
import Mathlib.Data.List.TakeWhile

namespace CommandShell

open Text

/-! ## §1 Texts without operators -/

/-- An operator is written with characters, none of them blank. -/
theorem Operator.text_ne_nil (operator : Operator) : operator.text.toList ≠ [] := by
  cases operator <;> decide

theorem Operator.text_no_blank (operator : Operator) :
    ∀ c ∈ operator.text.toList, isBlank c = false := by
  have h : operator.text.toList.any isBlank = false := by cases operator <;> decide
  simpa using h

namespace Token

/-- No operator occurs in a text. -/
def OperatorFree (text : List Char) : Prop :=
  ∀ operator : Operator, ¬ operator.text.toList <:+: text

instance (text : List Char) : Decidable (OperatorFree text) :=
  decidable_of_iff
    (∀ operator ∈ [Operator.semicolon, .and, .or], ¬ operator.text.toList <:+: text)
    ⟨fun h operator => h operator (by cases operator <;> simp), fun h operator _ => h operator⟩

theorem operatorFree_nil : OperatorFree [] := by
  intro operator h
  exact Operator.text_ne_nil operator (List.infix_nil.mp h)

theorem operatorFree_cons {c : Char} {rest : List Char} :
    OperatorFree (c :: rest) ↔
      (∀ operator : Operator, ¬ operator.text.toList <+: c :: rest) ∧ OperatorFree rest := by
  simp only [OperatorFree, List.infix_cons_iff, not_or, forall_and]

theorem OperatorFree.of_infix {text part : List Char} (h : OperatorFree text)
    (hpart : part <:+: text) : OperatorFree part :=
  fun operator hop => h operator (hop.trans hpart)

/-- A text without operators is a word, whatever its characters. -/
theorem ofText_of_operatorFree {text : String} (h : OperatorFree text.toList) :
    ofText text = .word text := by
  unfold ofText
  split
  · next operator hop =>
    rw [Operator.ofText?_eq_some.mp hop] at h
    exact absurd (List.infix_refl _) (h operator)
  · rfl

@[simp] theorem ofText_operator (operator : Operator) : ofText operator.text = .op operator := by
  simp [ofText]

/-! ## §2 Setting operators apart -/

theorem setApart_operator (operator : Operator) (rest : List Char) :
    setApart (operator.text.toList ++ rest) =
      ' ' :: operator.text.toList ++ ' ' :: setApart rest := by
  cases operator <;> simp [Operator.text, setApart]

/-- A character at which no operator starts is kept as it is. -/
theorem setApart_cons {c : Char} {rest : List Char}
    (h : ∀ operator : Operator, ¬ operator.text.toList <+: c :: rest) :
    setApart (c :: rest) = c :: setApart rest := by
  have hand := h .and
  have hor := h .or
  have hsemi := h .semicolon
  rw [setApart.eq_def]
  split
  · next heq => cases heq
  · next heq => cases heq; simp [Operator.text] at hand
  · next heq => cases heq; simp [Operator.text] at hor
  · next heq => cases heq; simp [Operator.text] at hsemi
  · next heq => cases heq; rfl

/-- Induction along a line: at each place either an operator starts, and the
line goes on behind it, or none does, and the line goes on with the next
character. -/
@[elab_as_elim]
theorem scanInduction {motive : List Char → Prop} (nil : motive [])
    (operator : ∀ (operator : Operator) (rest : List Char),
      motive rest → motive (operator.text.toList ++ rest))
    (plain : ∀ (c : Char) (rest : List Char),
      (∀ operator : Operator, ¬ operator.text.toList <+: c :: rest) →
      motive rest → motive (c :: rest)) : ∀ line, motive line
  | [] => nil
  | c :: line => by
    by_cases hop : ∃ operator : Operator, operator.text.toList <+: c :: line
    · obtain ⟨op, rest, hline⟩ := hop
      have hlt : rest.length < (c :: line).length := by
        have := List.length_pos_iff.mpr (Operator.text_ne_nil op)
        rw [← hline, List.length_append]
        omega
      rw [← hline]
      exact operator op rest (scanInduction nil operator plain rest)
    · exact plain c line (by simpa using hop) (scanInduction nil operator plain line)
termination_by line => line.length
decreasing_by
  · exact hlt
  · exact Nat.lt_succ_self line.length

/-- A line either holds no operator and is left as it is, or is cut at its
first operator. -/
theorem setApart_first (line : List Char) :
    (OperatorFree line ∧ setApart line = line) ∨
      ∃ before operator after, line = before ++ (Operator.text operator).toList ++ after ∧
        OperatorFree before ∧
        setApart line =
          before ++ ' ' :: (Operator.text operator).toList ++ ' ' :: setApart after := by
  induction line using scanInduction with
  | nil => exact .inl ⟨operatorFree_nil, rfl⟩
  | operator operator rest _ =>
    exact .inr ⟨[], operator, rest, rfl, operatorFree_nil, setApart_operator operator rest⟩
  | plain c rest hop ih =>
    rw [setApart_cons hop]
    rcases ih with ⟨hfree, hrest⟩ | ⟨before, operator, after, hline, hfree, hrest⟩
    · exact .inl ⟨operatorFree_cons.mpr ⟨hop, hfree⟩, by rw [hrest]⟩
    · refine .inr ⟨c :: before, operator, after, by simp [hline], ?_, by simp [hrest]⟩
      refine operatorFree_cons.mpr ⟨fun other hother => hop other ?_, hfree⟩
      rw [hline]
      exact hother.trans (by simp)

/-- A prefix that does not hold a character ends before it. -/
theorem prefix_of_not_mem {c : Char} {part : List Char} (before : List Char) {after : List Char}
    (h : part <+: before ++ c :: after) (hc : c ∉ part) : part <+: before := by
  rcases List.prefix_or_prefix_of_prefix h (List.prefix_append before (c :: after)) with h' | h'
  · exact h'
  · obtain ⟨rest, rfl⟩ := h'
    have hrest : rest <+: c :: after := (List.prefix_append_right_inj before).mp h
    cases rest with
    | nil => simp
    | cons d rest =>
      have hd : d = c := (List.cons_prefix_cons.mp hrest).1
      exact absurd (by simp [hd]) hc

/-- No operator holds a character other than its own, so none occurs across
one. -/
theorem OperatorFree.append_cons {c : Char} (hc : ∀ operator : Operator, c ∉ operator.text.toList)
    {before after : List Char} (hbefore : OperatorFree before) (hafter : OperatorFree after) :
    OperatorFree (before ++ c :: after) := by
  induction before with
  | nil =>
    refine operatorFree_cons.mpr ⟨fun operator h => ?_, hafter⟩
    have hnil := prefix_of_not_mem [] h (hc operator)
    exact Operator.text_ne_nil operator (List.prefix_nil.mp hnil)
  | cons d before ih =>
    obtain ⟨hop, hrest⟩ := operatorFree_cons.mp hbefore
    refine operatorFree_cons.mpr ⟨fun operator h => hop operator ?_, ih hrest⟩
    exact prefix_of_not_mem (d :: before) h (hc operator)

/-- Operators are set apart on either side of a blank on their own. -/
theorem setApart_append_blank {c : Char} (hc : isBlank c = true) (before after : List Char) :
    setApart (before ++ c :: after) = setApart before ++ c :: setApart after := by
  have hmem : ∀ operator : Operator, c ∉ operator.text.toList := fun operator h => by
    rw [Operator.text_no_blank operator c h] at hc
    cases hc
  induction before using scanInduction with
  | nil =>
    refine setApart_cons fun operator h => ?_
    have hnil := prefix_of_not_mem [] h (hmem operator)
    exact Operator.text_ne_nil operator (List.prefix_nil.mp hnil)
  | operator operator rest ih =>
    rw [List.append_assoc, setApart_operator, setApart_operator, ih]
    simp
  | plain d rest hop ih =>
    have hop' : ∀ operator : Operator, ¬ operator.text.toList <+: d :: (rest ++ c :: after) :=
      fun operator h => hop operator (prefix_of_not_mem (d :: rest) h (hmem operator))
    rw [List.cons_append, setApart_cons hop', setApart_cons hop, ih]
    rfl

/-- A text without operators is left as it is. -/
theorem setApart_of_operatorFree {text : List Char} (h : OperatorFree text) :
    setApart text = text := by
  induction text with
  | nil => rfl
  | cons c rest ih =>
    obtain ⟨hop, hrest⟩ := operatorFree_cons.mp h
    rw [setApart_cons hop, ih hrest]

/-! ## §3 The tokens of a line -/

/-- The words of a line, operators and comments among them. -/
theorem words_setApart_append_blank {c : Char} (hc : isBlank c = true)
    (before after : List Char) :
    words (setApart (before ++ c :: after)) =
      words (setApart before) ++ words (setApart after) := by
  rw [setApart_append_blank hc, words_append_blank hc]

/-- An operator is a piece of its own wherever it stands. -/
theorem words_around_operator (operator : Operator) (before after : List Char) :
    words (before ++ ' ' :: operator.text.toList ++ ' ' :: after) =
      words before ++ operator.text.toList :: words after := by
  have hop : words operator.text.toList = [operator.text.toList] :=
    words_of_no_blank (Operator.text_ne_nil operator) (Operator.text_no_blank operator)
  rw [words_append_blank (by decide), words_append_blank (by decide), hop]
  simp

theorem words_setApart_operator (operator : Operator) :
    words (setApart operator.text.toList) = [operator.text.toList] := by
  have h := words_around_operator operator [] []
  rw [← List.append_nil operator.text.toList, setApart_operator]
  simpa [setApart] using h

/-- Every piece of a line is an operator or holds none. -/
theorem operator_or_free_of_mem_words : ∀ (line : List Char) {piece : List Char},
    piece ∈ words (setApart line) →
      (∃ operator : Operator, piece = operator.text.toList) ∨ OperatorFree piece
  | line, piece, h => by
    rcases setApart_first line with ⟨hfree, hset⟩ | ⟨before, operator, after, hline, hfree, hset⟩
    · rw [hset] at h
      exact .inr (hfree.of_infix (infix_of_mem_words h))
    · rw [hset, words_around_operator, List.mem_append, List.mem_cons] at h
      rcases h with h | rfl | h
      · exact .inr (hfree.of_infix (infix_of_mem_words h))
      · exact .inl ⟨operator, rfl⟩
      · have hlt : after.length < line.length := by
          have := List.length_pos_iff.mpr (Operator.text_ne_nil operator)
          rw [hline, List.length_append, List.length_append]
          omega
        exact operator_or_free_of_mem_words after h
termination_by line => line.length

/-- A text that can stand in a line as one word: it has characters, none of
them blank, no operator occurs in it, and it does not start a comment. -/
structure IsWord (text : String) : Prop where
  ne_empty : text ≠ ""
  no_blank : ∀ c ∈ text.toList, isBlank c = false
  operatorFree : OperatorFree text.toList
  no_comment : text.toList.head? ≠ some '#'

instance (text : String) : Decidable (IsWord text) :=
  decidable_of_iff
    (text ≠ "" ∧ text.toList.any isBlank = false ∧ OperatorFree text.toList ∧
      text.toList.head? ≠ some '#')
    ⟨fun ⟨h₁, h₂, h₃, h₄⟩ => ⟨h₁, by simpa using h₂, h₃, h₄⟩,
      fun ⟨h₁, h₂, h₃, h₄⟩ => ⟨h₁, by simpa using h₂, h₃, h₄⟩⟩

theorem opensComment_eq_false_iff {text : List Char} :
    opensComment text = false ↔ text.head? ≠ some '#' := by
  cases text with
  | nil => simp [opensComment]
  | cons c rest =>
    by_cases hc : c = '#'
    · simp [hc, opensComment]
    · simp [opensComment, hc]

/-- Every token of a line that is no operator is a word of the kind above. -/
theorem isWord_of_mem_ofLine {line text : String} (h : .word text ∈ ofLine line) :
    IsWord text := by
  simp only [ofLine, List.mem_map] at h
  obtain ⟨piece, hpiece, htoken⟩ := h
  have hwords : piece ∈ words (setApart line.toList) :=
    (List.takeWhile_sublist _).mem hpiece
  have hcomment : opensComment piece = false := by
    simpa using List.mem_takeWhile_imp hpiece
  obtain ⟨hne, hblank⟩ := mem_words hwords
  rcases operator_or_free_of_mem_words line.toList hwords with ⟨operator, rfl⟩ | hfree
  · simp at htoken
  · have htext : String.ofList piece = text := by
      rw [ofText_of_operatorFree (by simpa using hfree)] at htoken
      simpa using htoken
    subst htext
    exact ⟨by simpa using hne, by simpa using hblank, by simpa using hfree,
      by simpa using opensComment_eq_false_iff.mp hcomment⟩

/-- A token as it can stand in a line: any operator, and a word of the kind
above. -/
def Standing : Token → Prop
  | .word text => IsWord text
  | .op _ => True

theorem words_setApart_text {token : Token} (h : token.Standing) :
    words (setApart token.text.toList) = [token.text.toList] := by
  cases token with
  | op operator => exact words_setApart_operator operator
  | word text =>
    have hword : IsWord text := h
    rw [Token.text, setApart_of_operatorFree hword.operatorFree]
    exact words_of_no_blank (by simpa using hword.ne_empty) hword.no_blank

theorem opensComment_text {token : Token} (h : token.Standing) :
    opensComment token.text.toList = false := by
  cases token with
  | op operator => cases operator <;> decide
  | word text => exact opensComment_eq_false_iff.mpr (IsWord.no_comment h)

theorem ofText_text {token : Token} (h : token.Standing) : ofText token.text = token := by
  cases token with
  | op operator => exact ofText_operator operator
  | word text => exact ofText_of_operatorFree (IsWord.operatorFree h)

/-- Texts that are one piece each are read back from between single spaces. -/
theorem words_setApart_intercalate (texts : List (List Char))
    (h : ∀ text ∈ texts, words (setApart text) = [text]) :
    words (setApart (List.intercalate [' '] texts)) = texts :=
  @pieces_intercalate ' ' (fun text => words (setApart text)) rfl
    (fun before after => words_setApart_append_blank (by decide) before after) texts h

/-- Tokens written with single spaces between them are read back. -/
theorem ofLine_intercalate {tokens : List Token} (h : ∀ token ∈ tokens, token.Standing) :
    ofLine (" ".intercalate (tokens.map text)) = tokens := by
  have htexts : pieces (" ".intercalate (tokens.map text)).toList =
      tokens.map fun token => token.text.toList := by
    have hwords : words (setApart (" ".intercalate (tokens.map text)).toList) =
        tokens.map fun token => token.text.toList := by
      rw [String.toList_intercalate, List.map_map]
      refine words_setApart_intercalate _ fun piece hpiece => ?_
      obtain ⟨token, htoken, rfl⟩ := List.mem_map.mp hpiece
      exact words_setApart_text (h token htoken)
    rw [pieces, hwords, List.takeWhile_eq_self_iff]
    intro piece hpiece
    obtain ⟨token, htoken, rfl⟩ := List.mem_map.mp hpiece
    simpa using opensComment_text (h token htoken)
  rw [ofLine, htexts, List.map_map]
  conv => rhs; rw [← List.map_id tokens]
  refine List.map_congr_left fun token htoken => ?_
  simpa using ofText_text (h token htoken)

/-- A blank at the end of a line, such as its newline, is not seen. -/
theorem ofLine_append_blank {c : Char} (hc : isBlank c = true) (line : List Char) :
    ofLine (String.ofList (line ++ [c])) = ofLine (String.ofList line) := by
  simp only [ofLine, pieces, String.toList_ofList]
  rw [words_setApart_append_blank hc]
  simp [setApart]

end Token

end CommandShell
