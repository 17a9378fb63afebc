/-
CommandShell.Proofs.Path.Components — the components of paths that are put
together.

A slash cuts a path in two (`components_append_slash`), so joining two paths
joins their components (`components_join`). Components that were written as a
path are found again (`components_joinWith`, `components_absolute`).
-/
import CommandShell.Path
import CommandShell.Proofs.Text.Fields

namespace CommandShell.Path

/-- What can stand between two slashes of a path. -/
structure IsComponent (name : String) : Prop where
  ne_empty : name ≠ ""
  no_slash : '/' ∉ name.toList

/-- A component that goes down to a node. -/
structure IsName (name : String) : Prop extends IsComponent name where
  no_nul : '\x00' ∉ name.toList
  ne_dot : name ≠ "."
  ne_dots : name ≠ ".."

instance : DecidablePred IsName := fun name =>
  decidable_of_iff
    ((name ≠ "" ∧ '/' ∉ name.toList) ∧ '\x00' ∉ name.toList ∧ name ≠ "." ∧ name ≠ "..")
    ⟨fun ⟨⟨hempty, hslash⟩, hnul, hdot, hdots⟩ => ⟨⟨hempty, hslash⟩, hnul, hdot, hdots⟩,
     fun h => ⟨⟨h.ne_empty, h.no_slash⟩, h.no_nul, h.ne_dot, h.ne_dots⟩⟩

theorem components_eq (path : String) :
    components path = (Text.stretches '/' path.toList).map String.ofList := rfl

@[simp] theorem components_empty : components "" = [] := rfl

theorem isComponent_of_mem_components {path name : String} (h : name ∈ components path) :
    IsComponent name := by
  rw [components_eq] at h
  obtain ⟨chars, hchars, rfl⟩ := List.mem_map.mp h
  obtain ⟨hne, hmem⟩ := Text.mem_stretches hchars
  refine ⟨by simpa using hne, fun hslash => ?_⟩
  exact (hmem '/' (by simpa using hslash)).2 rfl

/-- Components have their characters from the path. -/
theorem not_mem_of_mem_components {c : Char} {path name : String} (hc : c ∉ path.toList)
    (h : name ∈ components path) : c ∉ name.toList := by
  rw [components_eq] at h
  obtain ⟨chars, hchars, rfl⟩ := List.mem_map.mp h
  intro hmem
  exact hc ((Text.mem_stretches hchars).2 c (by simpa using hmem)).1

/-- A slash cuts a path into two whose components are found apart. -/
theorem components_append_slash (before after : String) :
    components (before ++ "/" ++ after) = components before ++ components after := by
  have htext : (before ++ "/" ++ after).toList = before.toList ++ '/' :: after.toList := by simp
  rw [components_eq, htext, Text.stretches_append, List.map_append, ← components_eq,
    ← components_eq]

/-- Slashes at the beginning of a path do not show in its components. -/
theorem components_slashes (count : Nat) (text : String) :
    components (String.ofList (List.replicate count '/') ++ text) = components text := by
  have hstretches : Text.stretches '/' (List.replicate count '/' ++ text.toList) =
      Text.stretches '/' text.toList := by
    induction count with
    | zero => rfl
    | succ count ih => rw [List.replicate_succ, List.cons_append, Text.stretches_separator, ih]
  rw [components_eq, String.toList_append, String.toList_ofList, hstretches, ← components_eq]

/-- Components joined by slashes are found again. -/
theorem components_joinWith {names : List String} (h : ∀ name ∈ names, IsComponent name) :
    components (Text.joinWith '/' names) = names := by
  have htexts : ∀ text ∈ names.map String.toList, text ≠ [] ∧ '/' ∉ text := by
    intro text htext
    obtain ⟨name, hname, rfl⟩ := List.mem_map.mp htext
    exact ⟨by simpa using (h name hname).ne_empty, (h name hname).no_slash⟩
  rw [components_eq, Text.joinWith, String.toList_ofList, Text.stretches_intercalate htexts]
  simp [Function.comp_def]

theorem components_absolute {names : List String} (h : ∀ name ∈ names, IsComponent name) :
    components (absolute names) = names :=
  (components_slashes 1 _).trans (components_joinWith h)

@[simp] theorem isAbsolute_absolute (names : List String) : isAbsolute (absolute names) = true := by
  simp [isAbsolute, absolute]

/-- Joining names brings no character in but slashes. -/
theorem not_mem_joinWith {c : Char} (hc : c ≠ '/') {names : List String}
    (h : ∀ name ∈ names, c ∉ name.toList) : c ∉ (Text.joinWith '/' names).toList := by
  have htexts : ∀ text ∈ names.map String.toList, c ∉ text := by
    intro text htext
    obtain ⟨name, hname, rfl⟩ := List.mem_map.mp htext
    exact h name hname
  simpa [Text.joinWith] using Text.not_mem_intercalate hc htexts

theorem nul_not_mem_absolute {names : List String} (h : ∀ name ∈ names, IsName name) :
    '\x00' ∉ (absolute names).toList := by
  have hnames := not_mem_joinWith (by decide) fun name hname => (h name hname).no_nul
  simpa [absolute] using hnames

theorem ne_empty_of_isAbsolute {path : String} (h : isAbsolute path = true) : path ≠ "" := by
  rintro rfl
  cases h

/-! ## Joining -/

theorem join_of_isAbsolute {path : String} (h : isAbsolute path = true) (directory : String) :
    join directory path = path := by
  simp [join, h]

theorem exists_eq_append_slash {path : String} (h : endsInSlash path = true) :
    ∃ start, path = start ++ "/" := by
  obtain ⟨start, hstart⟩ := List.getLast?_eq_some_iff.mp (by simpa [endsInSlash] using h)
  exact ⟨String.ofList start, by rw [← String.toList_inj, hstart]; simp⟩

theorem not_mem_join {c : Char} (hc : c ≠ '/') {directory path : String}
    (hdirectory : c ∉ directory.toList) (hpath : c ∉ path.toList) :
    c ∉ (join directory path).toList := by
  unfold join
  split
  · exact hpath
  · split
    · simp [hdirectory, hpath]
    · simp [hdirectory, hpath, hc]

/-- A relative path goes on with the components of the directory. -/
theorem components_join {path : String} (h : isAbsolute path = false) (directory : String) :
    components (join directory path) = components directory ++ components path := by
  simp only [join, h, Bool.false_eq_true, if_false]
  split
  · next hslash =>
    rcases hslash with rfl | hslash
    · simp
    · obtain ⟨start, rfl⟩ := exists_eq_append_slash hslash
      have hstart : components (start ++ "/") = components start := by
        simpa using components_append_slash start ""
      rw [components_append_slash, hstart]
  · exact components_append_slash directory path

theorem isAbsolute_append {before : String} (h : isAbsolute before = true) (after : String) :
    isAbsolute (before ++ after) = true := by
  simp only [isAbsolute, beq_iff_eq, String.toList_append] at h ⊢
  rw [List.head?_append, h]
  rfl

theorem isAbsolute_join {directory : String} (h : isAbsolute directory = true) (path : String) :
    isAbsolute (join directory path) = true := by
  unfold join
  split
  · assumption
  · split
    · exact isAbsolute_append h path
    · exact isAbsolute_append (isAbsolute_append h "/") path

end CommandShell.Path
