/-
CommandShell.Text.Field — the fields between the occurrences of a separator.

There is one field more than there are separators, and empty fields count.
`intercalate_fields` says that joining the fields gives the text back.
-/
import CommandShell.Text.Pieces

namespace CommandShell.Text

/-- The fields of a text, cut at every `separator`. -/
def fields (separator : Char) : List Char → List (List Char)
  | [] => [[]]
  | c :: rest =>
    if c = separator then [] :: fields separator rest
    else consHead c (fields separator rest)

/-- The parts before and after the first `separator`, if it occurs. -/
def cutAt (separator : Char) : List Char → Option (List Char × List Char)
  | [] => none
  | c :: rest =>
    if c = separator then some ([], rest)
    else (cutAt separator rest).map fun (before, after) => (c :: before, after)

/-- Pieces joined by one `separator` between neighbours. -/
def joinWith (separator : Char) (pieces : List String) : String :=
  String.ofList (List.intercalate [separator] (pieces.map String.toList))

theorem fields_ne_nil (separator : Char) (text : List Char) : fields separator text ≠ [] := by
  cases text with
  | nil => simp [fields]
  | cons c rest =>
    by_cases h : c = separator
    · simp [fields, h]
    · simpa [fields, h] using consHead_ne_nil c _

/-- Joining the fields gives the text back. -/
theorem intercalate_fields (separator : Char) (text : List Char) :
    List.intercalate [separator] (fields separator text) = text := by
  induction text with
  | nil => rfl
  | cons c rest ih =>
    obtain ⟨first, others, hf⟩ := List.exists_cons_of_ne_nil (fields_ne_nil separator rest)
    rw [hf] at ih
    by_cases h : c = separator
    · subst h
      simp only [fields, if_true, hf]
      rw [← ih]
      simp [List.intercalate]
    · simp only [fields, h, if_false, hf, consHead_cons]
      rw [← ih]
      cases others <;> simp [List.intercalate]

/-- Cutting finds the first separator. -/
theorem cutAt_eq_some {separator : Char} {text before after : List Char}
    (h : cutAt separator text = some (before, after)) :
    text = before ++ separator :: after ∧ separator ∉ before := by
  induction text generalizing before with
  | nil => simp [cutAt] at h
  | cons c rest ih =>
    by_cases hc : c = separator
    · simp only [cutAt, hc, if_true, Option.some.injEq, Prod.mk.injEq] at h
      obtain ⟨rfl, rfl⟩ := h
      simp [hc]
    · simp only [cutAt, hc, if_false, Option.map_eq_some_iff, Prod.mk.injEq] at h
      obtain ⟨⟨b, a⟩, hcut, rfl, rfl⟩ := h
      obtain ⟨rfl, hb⟩ := ih hcut
      exact ⟨rfl, by simp [hb, Ne.symm hc]⟩

end CommandShell.Text
