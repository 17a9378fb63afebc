/-
CommandShell.Proofs.Text.Lines — where the ways of cutting lines agree.

A command text ends its lines at eight characters at which no stream ends
one (`otherBreaks`). §1 is about the line ends themselves, §2 about a line
without its newline. §3 puts them together: a text with none of the eight
has the lines of the stream, each without its newline
(`linesOfText_eq_map_chomp`), however its lines end and whether or not the
last one does.
-/
import CommandShell.Text.Line

namespace CommandShell.Text

/-! ## §1 Line ends -/

/-- The characters that end a line of a command text and no line of a
stream. -/
def otherBreaks : List Char :=
  ['\x0b', '\x0c', '\x1c', '\x1d', '\x1e', '\u0085', '\u2028', '\u2029']

theorem isLineBreak_iff (c : Char) :
    isLineBreak c = true ↔ c = '\n' ∨ c = '\r' ∨ c ∈ otherBreaks := by
  simp only [isLineBreak, otherBreaks, Bool.or_eq_true, beq_iff_eq, List.mem_cons,
    List.not_mem_nil, or_false, or_assoc]

theorem unifyNewlines_return_newline (rest : List Char) :
    unifyNewlines ('\r' :: '\n' :: rest) = '\n' :: unifyNewlines rest := rfl

/-- A carriage return on its own becomes a newline. -/
theorem unifyNewlines_return {rest : List Char} (h : ∀ others, rest ≠ '\n' :: others) :
    unifyNewlines ('\r' :: rest) = '\n' :: unifyNewlines rest := by
  rw [unifyNewlines]
  exact h

theorem unifyNewlines_cons {c : Char} (hc : c ≠ '\r') (rest : List Char) :
    unifyNewlines (c :: rest) = c :: unifyNewlines rest := by
  rw [unifyNewlines]
  · exact fun _ h _ => hc h
  · exact hc

theorem terminatedLines_newline (rest : List Char) :
    terminatedLines ('\n' :: rest) = ['\n'] :: terminatedLines rest := by
  rw [terminatedLines, if_pos rfl]

theorem terminatedLines_cons {c : Char} (hc : c ≠ '\n') (rest : List Char) :
    terminatedLines (c :: rest) = consHead c (terminatedLines rest) := by
  rw [terminatedLines, if_neg hc]

/-! ## §2 A line without its newline -/

/-- The characters of a line without the newline at its end. -/
def bare (line : List Char) : List Char :=
  if line.getLast? = some '\n' then line.dropLast else line

theorem chomp_ofList (line : List Char) :
    chomp (String.ofList line) = String.ofList (bare line) := by
  unfold chomp bare
  rw [String.toList_ofList]
  dsimp only
  split <;> rfl

/-- Only the end of a line is touched: what stands before a line stays. -/
theorem bare_cons (c : Char) {line : List Char} (h : line ≠ []) :
    bare (c :: line) = c :: bare line := by
  obtain ⟨d, others, rfl⟩ := List.exists_cons_of_ne_nil h
  unfold bare
  rw [List.getLast?_cons_cons, List.dropLast_cons_cons]
  split <;> rfl

/-- A line is what is left of it, with or without a newline after that. -/
theorem eq_bare_or_eq_append (line : List Char) :
    line = bare line ∨ line = bare line ++ ['\n'] := by
  unfold bare
  split
  · rename_i h
    right
    obtain ⟨before, rfl⟩ := List.getLast?_eq_some_iff.mp h
    rw [List.dropLast_concat]
  · exact .inl rfl

/-- A character put in front of the first line does not change what is left
of the lines, as long as no line is empty and the character ends none. -/
theorem map_bare_consHead {c : Char} (hc : c ≠ '\n') {lines : List (List Char)}
    (h : ∀ line ∈ lines, line ≠ []) :
    (consHead c lines).map bare = consHead c (lines.map bare) := by
  cases lines with
  | nil =>
    have hbare : bare [c] = [c] := by
      unfold bare
      rw [List.getLast?_singleton, if_neg]
      simpa using hc
    simp [hbare]
  | cons line others =>
    have hline : line ≠ [] := h line List.mem_cons_self
    simp [bare_cons c hline]

/-! ## §3 The lines of a text -/

/-- **A text without the other line ends has the lines of the stream**, each
without its newline. -/
theorem breakLines_eq_map_bare {text : List Char} (h : ∀ c ∈ text, c ∉ otherBreaks) :
    breakLines text = (terminatedLines (unifyNewlines text)).map bare := by
  -- along `breakLines`, so that the two characters of one end stay together
  fun_induction breakLines text with
  | case1 => rfl
  | case2 rest ih =>
    have hrest : ∀ c ∈ rest, c ∉ otherBreaks := fun c hc => h c (by simp [hc])
    rw [unifyNewlines_return_newline, terminatedLines_newline, List.map_cons, ← ih hrest]
    rfl
  | case3 c rest hpair hbreak ih =>
    have hrest : ∀ c ∈ rest, c ∉ otherBreaks := fun d hd => h d (List.mem_cons_of_mem c hd)
    have hunified : unifyNewlines (c :: rest) = '\n' :: unifyNewlines rest := by
      rcases (isLineBreak_iff c).mp hbreak with rfl | rfl | hother
      · exact unifyNewlines_cons (by decide) rest
      · exact unifyNewlines_return fun others => hpair others rfl
      · exact absurd hother (h c List.mem_cons_self)
    rw [hunified, terminatedLines_newline, List.map_cons, ← ih hrest]
    rfl
  | case4 c rest hpair hbreak ih =>
    have hrest : ∀ c ∈ rest, c ∉ otherBreaks := fun d hd => h d (List.mem_cons_of_mem c hd)
    have hc : c ≠ '\n' ∧ c ≠ '\r' := by
      constructor <;> rintro rfl <;> exact hbreak (by decide)
    rw [unifyNewlines_cons hc.2, terminatedLines_cons hc.1,
      map_bare_consHead hc.1 fun _ => ne_nil_of_mem_terminatedLines, ← ih hrest]

theorem linesOfText_eq_map_chomp {text : String} (h : ∀ c ∈ text.toList, c ∉ otherBreaks) :
    linesOfText text = (linesOfRawStream text).map chomp := by
  unfold linesOfText linesOfRawStream
  rw [breakLines_eq_map_bare h, List.map_map, List.map_map]
  exact List.map_congr_left fun line _ => (chomp_ofList line).symm

/-- A stream whose newlines are unified has the lines of the file it is read
from. -/
theorem linesOfStream_unifyNewlines (text : String) :
    linesOfStream (String.ofList (unifyNewlines text.toList)) = linesOfRawStream text := by
  unfold linesOfStream linesOfRawStream
  rw [String.toList_ofList]

/-- No line of a stream is empty. -/
theorem ne_empty_of_mem_linesOfRawStream {text line : String} (h : line ∈ linesOfRawStream text) :
    line ≠ "" := by
  obtain ⟨chars, hchars, rfl⟩ := List.mem_map.mp h
  intro he
  refine ne_nil_of_mem_terminatedLines hchars ?_
  simpa using congrArg String.toList he

end CommandShell.Text
