/-
CommandShell.Proofs.Text.Fields — how the fields of a text hang on its
separators.

`fields_append` is the equation the rest goes back to: a separator cuts a
text in two, and the fields on its left and right have nothing to do with
each other. `stretches` are the fields that are not empty, and stretches that
were joined are found again (`stretches_intercalate`).
-/
import CommandShell.Proofs.Text.Words
import CommandShell.Text.Field

namespace CommandShell.Text

/-- A separator cuts a text into two whose fields are found apart. -/
theorem fields_append (separator : Char) (before after : List Char) :
    fields separator (before ++ separator :: after) =
      fields separator before ++ fields separator after := by
  induction before with
  | nil => simp [fields]
  | cons c before ih =>
    by_cases hc : c = separator
    · simp [fields, hc, ih]
    · rw [List.cons_append, fields, if_neg hc, ih, fields, if_neg hc]
      exact consHead_append c (fields_ne_nil separator before) _

/-- A text without separators is one field. -/
theorem fields_of_not_mem {separator : Char} {text : List Char} (h : separator ∉ text) :
    fields separator text = [text] := by
  induction text with
  | nil => rfl
  | cons c rest ih =>
    obtain ⟨hc, hrest⟩ := not_or.mp (List.mem_cons.not.mp h)
    rw [fields, if_neg (Ne.symm hc), ih hrest, consHead_cons]

/-- Fields joined by separators are found again, if there is one at all. -/
theorem fields_intercalate {separator : Char} {texts : List (List Char)} (hne : texts ≠ [])
    (h : ∀ text ∈ texts, separator ∉ text) :
    fields separator (List.intercalate [separator] texts) = texts := by
  induction texts with
  | nil => exact absurd rfl hne
  | cons text texts ih =>
    have htext := fields_of_not_mem (h text (by simp))
    cases texts with
    | nil => simpa using htext
    | cons next texts =>
      have hrest := ih (by simp) fun other hother => h other (List.mem_cons_of_mem text hother)
      rw [List.intercalate_cons_cons, List.append_assoc, List.singleton_append, fields_append,
        htext, hrest]
      rfl

/-- What stands before a separator and holds none is cut off there. -/
theorem cutAt_append {separator : Char} {before : List Char} (h : separator ∉ before)
    (after : List Char) :
    cutAt separator (before ++ separator :: after) = some (before, after) := by
  induction before with
  | nil => simp [cutAt]
  | cons c before ih =>
    obtain ⟨hc, hbefore⟩ := not_or.mp (List.mem_cons.not.mp h)
    simp [cutAt, Ne.symm hc, ih hbefore]

/-- A field has its characters from the text, and none of them is the
separator. -/
theorem mem_fields {separator : Char} {text field : List Char}
    (h : field ∈ fields separator text) : ∀ c ∈ field, c ∈ text ∧ c ≠ separator := by
  induction text generalizing field with
  | nil => simp_all [fields]
  | cons c rest ih =>
    have hlater (hmem : field ∈ fields separator rest) :
        ∀ d ∈ field, d ∈ c :: rest ∧ d ≠ separator := fun d hd =>
      ⟨List.mem_cons_of_mem c (ih hmem d hd).1, (ih hmem d hd).2⟩
    rw [fields] at h
    split at h
    · rcases List.mem_cons.mp h with rfl | h
      · simp
      · exact hlater h
    · next hc =>
      obtain ⟨first, others, hfields⟩ :=
        List.exists_cons_of_ne_nil (fields_ne_nil separator rest)
      rw [hfields, consHead_cons] at h
      rcases List.mem_cons.mp h with rfl | h
      · intro d hd
        rcases List.mem_cons.mp hd with rfl | hd
        · exact ⟨List.mem_cons_self, hc⟩
        · have hfirst := @ih first (by simp [hfields]) d hd
          exact ⟨List.mem_cons_of_mem c hfirst.1, hfirst.2⟩
      · exact hlater (by simp [hfields, h])

/-- The fields that are not empty. -/
def stretches (separator : Char) (text : List Char) : List (List Char) :=
  (fields separator text).filter fun field => !field.isEmpty

@[simp] theorem stretches_nil (separator : Char) : stretches separator [] = [] := rfl

theorem stretches_append (separator : Char) (before after : List Char) :
    stretches separator (before ++ separator :: after) =
      stretches separator before ++ stretches separator after := by
  rw [stretches, fields_append, List.filter_append, stretches, stretches]

/-- A separator at the beginning begins no stretch. -/
theorem stretches_separator (separator : Char) (rest : List Char) :
    stretches separator (separator :: rest) = stretches separator rest :=
  stretches_append separator [] rest

theorem stretches_of_not_mem {separator : Char} {text : List Char} (hne : text ≠ [])
    (h : separator ∉ text) : stretches separator text = [text] := by
  simp [stretches, fields_of_not_mem h, hne]

theorem mem_stretches {separator : Char} {text stretch : List Char}
    (h : stretch ∈ stretches separator text) :
    stretch ≠ [] ∧ ∀ c ∈ stretch, c ∈ text ∧ c ≠ separator := by
  obtain ⟨hmem, hne⟩ := List.mem_filter.mp h
  exact ⟨by simpa using hne, mem_fields hmem⟩

/-- Stretches joined by separators are found again. -/
theorem stretches_intercalate {separator : Char} {texts : List (List Char)}
    (h : ∀ text ∈ texts, text ≠ [] ∧ separator ∉ text) :
    stretches separator (List.intercalate [separator] texts) = texts :=
  pieces_intercalate rfl (stretches_append separator)
    fun text htext => stretches_of_not_mem (h text htext).1 (h text htext).2

/-- Joining brings no character in but the separator. -/
theorem not_mem_intercalate {c separator : Char} (hc : c ≠ separator) {texts : List (List Char)}
    (h : ∀ text ∈ texts, c ∉ text) : c ∉ List.intercalate [separator] texts := by
  induction texts with
  | nil => simp
  | cons text texts ih =>
    have htext := h text (by simp)
    have hrest := ih fun other hother => h other (List.mem_cons_of_mem text hother)
    cases texts with
    | nil => simpa using htext
    | cons next texts => simp [List.intercalate_cons_cons, htext, hc, hrest]

end CommandShell.Text
