/-
CommandShell.Proofs.Syntax.Scan — a line is scanned once, from left to right.

`Token.ofLine` goes over a line three times: operators get spaces around
them, the result is cut at its blanks, and the list of pieces is cut at the
first that starts a comment, whose text the first pass has changed as well.
`Scans` is one pass that looks at each place once. §1 gives it, with `Run`
for the characters of one word; §2 shows that it always gets through a line;
§3 follows the pieces of a line along it (`pieces_blank`, `pieces_operator`,
`pieces_run`, `pieces_comment`, one for each kind of place). The main
statement, `ofLine_scans`, says that the two agree on every line, and what
the tokens are in consequence.
-/
import CommandShell.Proofs.Syntax.Pieces

namespace CommandShell.Token

open Text

/-! ## §1 The scan -/

/-- A word ends here: at the end of the line, at a blank, or where an
operator starts. -/
def Ends (text : List Char) : Prop :=
  wordEnds text = true ∨ ∃ operator : Operator, operator.text.toList <+: text

/-- `Run text word rest`: reading `text` up to the first place where a word
ends passes over `word`, and `rest` is left. -/
inductive Run : List Char → List Char → List Char → Prop
  | stop {rest : List Char} (h : Ends rest) : Run rest [] rest
  | more {c : Char} {text word rest : List Char} (h : ¬ Ends (c :: text))
      (run : Run text word rest) : Run (c :: text) (c :: word) rest

/-- `Scans line tokens comment`: one scan of `line` finds `tokens` and leaves
`comment`. At each place an operator is a token of its own, a blank is passed
over, and anything else starts a word, which is as long as it can be; at a
word that starts with a number sign the scan stops. -/
inductive Scans : List Char → List Token → List Char → Prop
  | done : Scans [] [] []
  | operator (operator : Operator) {rest : List Char} {tokens : List Token} {comment : List Char}
      (scan : Scans rest tokens comment) :
      Scans (operator.text.toList ++ rest) (.op operator :: tokens) comment
  | blank {c : Char} (hc : isBlank c = true) {rest : List Char} {tokens : List Token}
      {comment : List Char} (scan : Scans rest tokens comment) : Scans (c :: rest) tokens comment
  | comment (rest : List Char) : Scans ('#' :: rest) [] ('#' :: rest)
  | word {line word rest : List Char} (run : Run line word rest) (hne : word ≠ [])
      (hcomment : word.head? ≠ some '#') {tokens : List Token} {comment : List Char}
      (scan : Scans rest tokens comment) :
      Scans line (.word (String.ofList word) :: tokens) comment

/-! ## §2 Every line is scanned -/

theorem exists_run (text : List Char) : ∃ word rest, Run text word rest := by
  induction text with
  | nil => exact ⟨[], [], .stop (.inl rfl)⟩
  | cons c text ih =>
    by_cases h : Ends (c :: text)
    · exact ⟨[], c :: text, .stop h⟩
    · obtain ⟨word, rest, run⟩ := ih
      exact ⟨c :: word, rest, .more h run⟩

theorem Run.append {text word rest : List Char} (run : Run text word rest) :
    text = word ++ rest := by
  induction run with
  | stop _ => rfl
  | more _ _ ih => rw [ih, List.cons_append]

theorem Run.ends {text word rest : List Char} (run : Run text word rest) : Ends rest := by
  induction run with
  | stop h => exact h
  | more _ _ ih => exact ih

/-- A run holds no blank. -/
theorem Run.no_blank {text word rest : List Char} (run : Run text word rest) :
    ∀ c ∈ word, isBlank c = false := by
  induction run with
  | stop _ => simp
  | more h _ ih =>
    rw [List.forall_mem_cons]
    exact ⟨by simpa [Ends, wordEnds] using fun hc => h (.inl hc), ih⟩

/-- Where no word ends, a run takes the first character at least. -/
theorem Run.cons_of_not_ends {c : Char} {text word rest : List Char}
    (run : Run (c :: text) word rest) (h : ¬ Ends (c :: text)) : ∃ more, word = c :: more := by
  cases run with
  | stop hends => exact absurd hends h
  | more _ _ => exact ⟨_, rfl⟩

/-- Neither a blank nor an operator starts with a number sign. -/
theorem not_ends_comment (rest : List Char) : ¬ Ends ('#' :: rest) := by
  rintro (h | ⟨operator, h⟩)
  · have hsign : isBlank '#' = false := by decide
    rw [wordEnds, hsign] at h
    cases h
  · cases operator <;> simp [Operator.text] at h

theorem exists_scans : ∀ line : List Char, ∃ tokens comment, Scans line tokens comment
  | [] => ⟨[], [], .done⟩
  | c :: text => by
    by_cases hop : ∃ operator : Operator, operator.text.toList <+: c :: text
    · obtain ⟨operator, rest, hline⟩ := hop
      have hlt : rest.length < (c :: text).length := by
        have := List.length_pos_iff.mpr (Operator.text_ne_nil operator)
        rw [← hline, List.length_append]
        omega
      obtain ⟨tokens, comment, scan⟩ := exists_scans rest
      rw [← hline]
      exact ⟨_, comment, .operator operator scan⟩
    · by_cases hc : isBlank c = true
      · obtain ⟨tokens, comment, scan⟩ := exists_scans text
        exact ⟨tokens, comment, .blank hc scan⟩
      · have hends : ¬ Ends (c :: text) := by
          rintro (h | h)
          · exact hc h
          · exact hop h
        by_cases hsign : c = '#'
        · subst hsign
          exact ⟨[], _, .comment text⟩
        · obtain ⟨word, rest, run⟩ := exists_run (c :: text)
          obtain ⟨more, rfl⟩ := run.cons_of_not_ends hends
          have hlt : rest.length < (c :: text).length := by
            rw [run.append, List.cons_append, List.length_cons, List.length_append]
            omega
          obtain ⟨tokens, comment, scan⟩ := exists_scans rest
          exact ⟨_, comment, .word run (by simp) (by simpa using hsign) scan⟩
termination_by line => line.length
decreasing_by
  · exact hlt
  · exact Nat.lt_succ_self text.length
  · exact hlt

/-! ## §3 The pieces along the scan -/

/-- Where a word ends, it ends too once the operators are set apart. -/
theorem wordEnds_setApart {text : List Char} (h : Ends text) : wordEnds (setApart text) = true := by
  rcases h with h | ⟨operator, rest, rfl⟩
  · cases text with
    | nil => rfl
    | cons c rest =>
      have hset := setApart_append_blank (c := c) h [] rest
      rw [List.nil_append] at hset
      rw [hset]
      exact h
  · rw [setApart_operator]
    rfl

/-- A run is not touched when the operators are set apart. -/
theorem Run.setApart_eq {text word rest : List Char} (run : Run text word rest) :
    setApart text = word ++ setApart rest := by
  induction run with
  | stop _ => rfl
  | more h _ ih =>
    rw [setApart_cons fun operator hop => h (.inr ⟨operator, hop⟩), ih, List.cons_append]

theorem Run.words_setApart {text word rest : List Char} (run : Run text word rest)
    (hne : word ≠ []) : words (setApart text) = word :: words (setApart rest) := by
  rw [run.setApart_eq]
  exact words_append_of_wordEnds hne run.no_blank (wordEnds_setApart run.ends)

theorem pieces_blank {c : Char} (hc : isBlank c = true) (rest : List Char) :
    pieces (c :: rest) = pieces rest := by
  have hwords := words_setApart_append_blank hc [] rest
  rw [List.nil_append] at hwords
  rw [pieces, pieces, hwords]
  rfl

theorem pieces_operator (operator : Operator) (rest : List Char) :
    pieces (operator.text.toList ++ rest) = operator.text.toList :: pieces rest := by
  have hwords := words_around_operator operator [] (setApart rest)
  have hplain : opensComment operator.text.toList = false := by cases operator <;> decide
  rw [List.nil_append, words_nil, List.nil_append] at hwords
  rw [pieces, setApart_operator, hwords, List.takeWhile_cons, hplain]
  rfl

theorem pieces_run {text word rest : List Char} (run : Run text word rest) (hne : word ≠ [])
    (hcomment : word.head? ≠ some '#') : pieces text = word :: pieces rest := by
  rw [pieces, run.words_setApart hne, List.takeWhile_cons, opensComment_eq_false_iff.mpr hcomment]
  rfl

theorem pieces_comment (rest : List Char) : pieces ('#' :: rest) = [] := by
  obtain ⟨word, left, run⟩ := exists_run ('#' :: rest)
  obtain ⟨more, rfl⟩ := run.cons_of_not_ends (not_ends_comment rest)
  rw [pieces, run.words_setApart (by simp)]
  rfl

/-- No operator occurs in a run. -/
theorem Run.operatorFree {text word rest : List Char} (run : Run text word rest) :
    OperatorFree word := by
  induction run with
  | stop _ => exact operatorFree_nil
  | more h run ih =>
    refine operatorFree_cons.mpr ⟨fun operator hop => h (.inr ⟨operator, ?_⟩), ih⟩
    rw [run.append]
    exact hop.trans (List.prefix_append _ _)

/-- What a scan finds is what the three passes give. -/
theorem Scans.pieces_eq {line : List Char} {tokens : List Token} {comment : List Char}
    (scan : Scans line tokens comment) :
    (pieces line).map (fun piece => ofText (String.ofList piece)) = tokens := by
  induction scan with
  | done => rfl
  | operator operator _ ih =>
    rw [pieces_operator, List.map_cons, ih, String.ofList_toList, ofText_operator]
  | blank hc _ ih => rw [pieces_blank hc, ih]
  | comment rest => rw [pieces_comment, List.map_nil]
  | word run hne hcomment _ ih =>
    rw [pieces_run run hne hcomment, List.map_cons, ih,
      ofText_of_operatorFree (by simpa using run.operatorFree)]

/-- The tokens hold all the characters before the comment that are not blank. -/
theorem Scans.flatten {line : List Char} {tokens : List Token} {comment : List Char}
    (scan : Scans line tokens comment) :
    ∃ before, line = before ++ comment ∧
      (tokens.map fun token => token.text.toList).flatten = before.filter fun c => !isBlank c := by
  have hkept : ∀ {text : List Char}, (∀ c ∈ text, isBlank c = false) →
      text.filter (fun c => !isBlank c) = text := fun h =>
    List.filter_eq_self.mpr fun c hc => by simp [h c hc]
  induction scan with
  | done => exact ⟨[], rfl, rfl⟩
  | operator operator _ ih =>
    obtain ⟨before, rfl, hflat⟩ := ih
    refine ⟨operator.text.toList ++ before, by simp, ?_⟩
    rw [List.filter_append, hkept operator.text_no_blank, List.map_cons, List.flatten_cons, hflat]
    rfl
  | @blank c hc _ _ _ _ ih =>
    obtain ⟨before, rfl, hflat⟩ := ih
    exact ⟨c :: before, rfl, by simp [hc, hflat]⟩
  | comment rest => exact ⟨[], rfl, rfl⟩
  | word run _ _ _ ih =>
    obtain ⟨before, rfl, hflat⟩ := ih
    refine ⟨_ ++ before, by rw [run.append, List.append_assoc], ?_⟩
    rw [List.filter_append, hkept run.no_blank, List.map_cons, List.flatten_cons, hflat]
    simp [text]

/-- Every token of a line can stand in a line. -/
theorem standing_of_mem_ofLine {line : String} {token : Token} (h : token ∈ ofLine line) :
    token.Standing := by
  cases token with
  | op operator => trivial
  | word text => exact isWord_of_mem_ofLine h

/-- **One scan.** The tokens of a line are what a single scan of it from left
to right finds. So each of them is an operator, or a word that has
characters, none of them blank, holds no operator and does not start with a
number sign; and written one after the other they are the line up to the
comment without its blanks. -/
theorem ofLine_scans (line : String) :
    (∀ tokens, ofLine line = tokens ↔ ∃ comment, Scans line.toList tokens comment) ∧
      (∀ token ∈ ofLine line, token.Standing) ∧
      ∃ before comment, line.toList = before ++ comment ∧
        Scans line.toList (ofLine line) comment ∧
        ((ofLine line).map fun token => token.text.toList).flatten =
          before.filter fun c => !isBlank c := by
  obtain ⟨found, comment, scan⟩ := exists_scans line.toList
  have hfound : ofLine line = found := scan.pieces_eq
  refine ⟨fun tokens => ⟨?_, ?_⟩, fun token => standing_of_mem_ofLine, ?_⟩
  · rintro rfl
    exact ⟨comment, hfound ▸ scan⟩
  · rintro ⟨other, hother⟩
    exact hother.pieces_eq
  · obtain ⟨before, hline, hflat⟩ := scan.flatten
    exact ⟨before, comment, hline, hfound ▸ scan, hfound ▸ hflat⟩

/-- Operators that overlap are read from the left, single ampersands and bars
are words, and a comment may begin right behind an operator. -/
theorem ofLine_scans_overlapping :
    let tokens : List Token :=
      [.word "a", .op .and, .word "&b#", .op .or, .word "|&", .op .semicolon]
    ∃ comment, Scans "a&&&b#|||&;#c && d".toList tokens comment := by
  intro tokens
  exact ((ofLine_scans _).1 tokens).mp (by decide +kernel)

end CommandShell.Token
