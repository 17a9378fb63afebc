/-
CommandShell.Proofs.Path.NormalForm — what normalising makes of an absolute
path.

`normalForm` are the components that are left. They are described by what one
component more does to them: a single dot nothing, two dots take the last one
away, and a name is added (`normalForm_dot`, `normalForm_dots`,
`normalForm_name`). A normalised absolute path is absolute and has just these
components (`components_normalise`), and a path of plain names is normal as it
is (`normalise_absolute`).
-/
import CommandShell.Proofs.Path.Components

namespace CommandShell.Path

/-- The components that are left of those of an absolute path. -/
def normalForm (components : List String) : List String :=
  (components.foldl (pushComponent true) []).reverse

@[simp] theorem normalForm_nil : normalForm [] = [] := rfl

theorem normalForm_append (components : List String) (component : String) :
    normalForm (components ++ [component]) =
      (pushComponent true (normalForm components).reverse component).reverse := by
  simp [normalForm]

/-! ## One component more -/

theorem normalForm_dot (components : List String) :
    normalForm (components ++ ["."]) = normalForm components := by
  simp [normalForm_append, pushComponent]

theorem normalForm_name (components : List String) {name : String} (hdot : name ≠ ".")
    (hdots : name ≠ "..") :
    normalForm (components ++ [name]) = normalForm components ++ [name] := by
  simp [normalForm_append, pushComponent, hdot, hdots]

/-- Above the root there is nothing to take away, and two dots are never kept. -/
theorem pushComponent_dots {kept : List String} (h : ".." ∉ kept) :
    pushComponent true kept ".." = kept.tail := by
  cases kept with
  | nil => simp [pushComponent]
  | cons last earlier =>
    obtain ⟨hlast, -⟩ := not_or.mp (List.mem_cons.not.mp h)
    simp [pushComponent, Ne.symm hlast]

theorem normalForm_dots_of_not_mem {components : List String} (h : ".." ∉ normalForm components) :
    normalForm (components ++ [".."]) = (normalForm components).dropLast := by
  rw [normalForm_append, pushComponent_dots (by simpa using h), List.tail_reverse,
    List.reverse_reverse]

/-- Only names are left, and only such as were there. -/
theorem mem_normalForm {components : List String} {name : String}
    (h : name ∈ normalForm components) : name ∈ components ∧ name ≠ "." ∧ name ≠ ".." := by
  induction components using List.reverseRecOn generalizing name with
  | nil => cases h
  | append_singleton components component ih =>
    have hkept (hmem : name ∈ normalForm components) :
        name ∈ components ++ [component] ∧ name ≠ "." ∧ name ≠ ".." :=
      ⟨List.mem_append_left _ (ih hmem).1, (ih hmem).2⟩
    by_cases hdot : component = "."
    · rw [hdot, normalForm_dot] at h
      exact hkept h
    · by_cases hdots : component = ".."
      · have hnone : ".." ∉ normalForm components := fun hmem => (ih hmem).2.2 rfl
        rw [hdots, normalForm_dots_of_not_mem hnone] at h
        exact hkept (List.mem_of_mem_dropLast h)
      · rw [normalForm_name components hdot hdots] at h
        rcases List.mem_append.mp h with h | h
        · exact hkept h
        · obtain rfl : name = component := by simpa using h
          exact ⟨by simp, hdot, hdots⟩

theorem normalForm_dots (components : List String) :
    normalForm (components ++ [".."]) = (normalForm components).dropLast :=
  normalForm_dots_of_not_mem fun h => (mem_normalForm h).2.2 rfl

/-- Where there are no dots, all is left. -/
theorem normalForm_of_no_dots {names : List String}
    (h : ∀ name ∈ names, name ≠ "." ∧ name ≠ "..") : normalForm names = names := by
  induction names using List.reverseRecOn with
  | nil => rfl
  | append_singleton names name ih =>
    obtain ⟨hdot, hdots⟩ := h name (by simp)
    have hnames := ih fun other hother => h other (List.mem_append_left _ hother)
    rw [normalForm_name names hdot hdots, hnames]

/-- Names alone are all left. -/
theorem normalForm_names {names : List String} (h : ∀ name ∈ names, IsName name) :
    normalForm names = names :=
  normalForm_of_no_dots fun name hname => ⟨(h name hname).ne_dot, (h name hname).ne_dots⟩

/-- Components may be normalised before others are added to them. -/
theorem normalForm_normalForm_append (before after : List String) :
    normalForm (normalForm before ++ after) = normalForm (before ++ after) := by
  induction after using List.reverseRecOn with
  | nil =>
    rw [List.append_nil, List.append_nil]
    exact normalForm_of_no_dots fun name hname => (mem_normalForm hname).2
  | append_singleton after component ih =>
    rw [← List.append_assoc, ← List.append_assoc, normalForm_append, normalForm_append, ih]

/-! ## Paths as texts -/

theorem mem_pushComponent {rooted : Bool} {kept : List String} {component name : String}
    (h : name ∈ pushComponent rooted kept component) : name ∈ kept ∨ name = component := by
  unfold pushComponent at h
  split at h
  · exact .inl h
  · split at h
    · next hdots =>
      subst hdots
      split at h
      · split at h
        · cases h
        · exact .inr (by simpa using h)
      · split at h
        · exact (List.mem_cons.mp h).symm
        · exact .inl (List.mem_cons_of_mem _ h)
    · exact (List.mem_cons.mp h).symm

theorem mem_foldl_pushComponent {rooted : Bool} {components : List String} {name : String}
    (h : name ∈ components.foldl (pushComponent rooted) []) : name ∈ components := by
  induction components using List.reverseRecOn with
  | nil => cases h
  | append_singleton components component ih =>
    rw [List.foldl_append] at h
    rcases mem_pushComponent h with h | rfl
    · exact List.mem_append_left _ (ih h)
    · simp

/-- **Normalising brings no character in** but slashes and dots. -/
theorem not_mem_normalise {c : Char} (hslash : c ≠ '/') (hdot : c ≠ '.') {path : String}
    (h : c ∉ path.toList) : c ∉ (normalise path).toList := by
  have hkept (rooted : Bool) : ∀ name ∈ ((components path).foldl (pushComponent rooted) []).reverse,
      c ∉ name.toList := fun name hname =>
    not_mem_of_mem_components h (mem_foldl_pushComponent (List.mem_reverse.mp hname))
  have hnames := not_mem_joinWith hslash (hkept (leadingSlashes path.toList != 0))
  unfold normalise
  dsimp only
  split
  · simpa using hdot
  · rw [String.toList_append, List.mem_append, not_or]
    exact ⟨by simp [hslash], hnames⟩

/-- An absolute path keeps a slash at its beginning, or two. -/
theorem exists_leadingSlashes {path : String} (h : isAbsolute path = true) :
    ∃ more, leadingSlashes path.toList = more + 1 := by
  simp only [isAbsolute, beq_iff_eq] at h
  obtain ⟨rest, hrest⟩ := List.head?_eq_some_iff.mp h
  rw [hrest]
  unfold leadingSlashes
  split
  · exact ⟨0, rfl⟩
  · exact ⟨1, rfl⟩
  · exact ⟨0, rfl⟩
  · next hslash => exact absurd rfl (hslash rest)

theorem isAbsolute_slashes (more : Nat) :
    isAbsolute (String.ofList (List.replicate (more + 1) '/')) = true := by
  simp [isAbsolute, List.replicate_succ]

theorem normalise_of_isAbsolute {path : String} (h : isAbsolute path = true) :
    normalise path = String.ofList (List.replicate (leadingSlashes path.toList) '/') ++
      Text.joinWith '/' (normalForm (components path)) := by
  obtain ⟨more, hmore⟩ := exists_leadingSlashes h
  have hne : String.ofList (List.replicate (more + 1) '/') ++
      Text.joinWith '/' (normalForm (components path)) ≠ "" :=
    ne_empty_of_isAbsolute (isAbsolute_append (isAbsolute_slashes more) _)
  rw [normalise, hmore]
  exact if_neg hne

/-- **A normalised absolute path is absolute.** -/
theorem isAbsolute_normalise {path : String} (h : isAbsolute path = true) :
    isAbsolute (normalise path) = true := by
  obtain ⟨more, hmore⟩ := exists_leadingSlashes h
  rw [normalise_of_isAbsolute h, hmore]
  exact isAbsolute_append (isAbsolute_slashes more) _

/-- **Normalising an absolute path leaves its normal form.** -/
theorem components_normalise {path : String} (h : isAbsolute path = true) :
    components (normalise path) = normalForm (components path) := by
  rw [normalise_of_isAbsolute h, components_slashes]
  exact components_joinWith fun name hname =>
    isComponent_of_mem_components (mem_normalForm hname).1

/-- A single slash at the beginning stays one. -/
theorem leadingSlashes_single {c : Char} (hc : c ≠ '/') (rest : List Char) :
    leadingSlashes ('/' :: c :: rest) = 1 := by
  unfold leadingSlashes
  split
  · rfl
  · next heq =>
    cases heq
    exact absurd rfl hc
  · rfl
  · next hslash => exact absurd rfl (hslash (c :: rest))

/-- Behind the slash of a path of names the first name begins. -/
theorem exists_toList_absolute_cons {name : String} (h : IsComponent name) (rest : List String) :
    ∃ c after, c ≠ '/' ∧ (absolute (name :: rest)).toList = '/' :: c :: after := by
  have hne := mt String.toList_eq_nil_iff.mp h.ne_empty
  obtain ⟨c, chars, hchars⟩ := List.exists_cons_of_ne_nil hne
  have hc : c ≠ '/' := by
    rintro rfl
    exact h.no_slash (by simp [hchars])
  cases rest with
  | nil => exact ⟨c, chars, hc, by simp [absolute, Text.joinWith, hchars]⟩
  | cons next rest =>
    refine ⟨c, chars ++ '/' :: List.intercalate ['/'] ((next :: rest).map String.toList), hc, ?_⟩
    simp [absolute, Text.joinWith, hchars, List.intercalate_cons_cons]

/-- The path of names begins with one slash alone. -/
theorem leadingSlashes_absolute {names : List String} (h : ∀ name ∈ names, IsComponent name) :
    leadingSlashes (absolute names).toList = 1 := by
  cases names with
  | nil => rfl
  | cons name rest =>
    obtain ⟨c, after, hc, htext⟩ := exists_toList_absolute_cons (h name (by simp)) rest
    rw [htext, leadingSlashes_single hc]

/-- **The path of a directory is normal.** -/
theorem normalise_absolute {names : List String} (h : ∀ name ∈ names, IsName name) :
    normalise (absolute names) = absolute names := by
  have hcomponents : ∀ name ∈ names, IsComponent name := fun name hname =>
    (h name hname).toIsComponent
  rw [normalise_of_isAbsolute (isAbsolute_absolute names), leadingSlashes_absolute hcomponents,
    components_absolute hcomponents, normalForm_names h]
  rfl

/-! ## Paths seen from a directory -/

/-- How many slashes stand before all else in a path. -/
def slashCount (path : String) : Nat :=
  (path.toList.takeWhile (· == '/')).length

/-- Two slashes at the beginning of an absolute path stay two, and any other
number of them becomes one. -/
theorem leadingSlashes_of_isAbsolute {path : String} (h : isAbsolute path = true) :
    leadingSlashes path.toList = if slashCount path = 2 then 2 else 1 := by
  simp only [isAbsolute, beq_iff_eq] at h
  obtain ⟨rest, hrest⟩ := List.head?_eq_some_iff.mp h
  rw [slashCount, hrest]
  cases rest with
  | nil => rfl
  | cons c rest =>
    by_cases hc : c = '/'
    · subst hc
      cases rest with
      | nil => rfl
      | cons d rest =>
        by_cases hd : d = '/'
        · subst hd
          simp [leadingSlashes]
        · simp [leadingSlashes, hd]
    · rw [leadingSlashes_single hc]
      simp [hc]

/-- A relative path goes on behind the one slash of the directory's path. -/
theorem leadingSlashes_join {names : List String} (h : ∀ name ∈ names, IsComponent name)
    {path : String} (hrelative : isAbsolute path = false) :
    leadingSlashes (join (absolute names) path).toList = 1 := by
  cases names with
  | nil =>
    have htext : (join (absolute []) path).toList = '/' :: path.toList := by
      simp [join, hrelative, absolute, Text.joinWith, endsInSlash]
    rw [htext]
    cases hchars : path.toList with
    | nil => rfl
    | cons c rest =>
      have hc : c ≠ '/' := by simpa [isAbsolute, hchars] using hrelative
      exact leadingSlashes_single hc rest
  | cons name rest =>
    obtain ⟨c, after, hc, htext⟩ := exists_toList_absolute_cons (h name (by simp)) rest
    have hjoin : ∃ more, (join (absolute (name :: rest)) path).toList = '/' :: c :: more := by
      simp only [join, hrelative, Bool.false_eq_true, if_false]
      split
      · exact ⟨after ++ path.toList, by simp [htext]⟩
      · exact ⟨after ++ '/' :: path.toList, by simp [htext]⟩
    obtain ⟨more, hmore⟩ := hjoin
    rw [hmore, leadingSlashes_single hc]

/-- **A path that is seen from a directory and normalised** is the path of
what is left of its components behind those of the directory, with one slash
more in front of it if there are just two at its beginning. -/
theorem normalise_join_absolute {names : List String} (h : ∀ name ∈ names, IsComponent name)
    (path : String) :
    normalise (join (absolute names) path) =
      (if slashCount path = 2 then "/" else "") ++
        absolute (normalForm
          ((if isAbsolute path = true then [] else names) ++ components path)) := by
  rw [normalise_of_isAbsolute (isAbsolute_join (isAbsolute_absolute names) path)]
  cases hpath : isAbsolute path with
  | true =>
    rw [join_of_isAbsolute hpath, leadingSlashes_of_isAbsolute hpath, if_pos rfl, List.nil_append]
    split
    · rw [absolute, ← String.append_assoc]
      rfl
    · rw [absolute, String.empty_append]
      rfl
  | false =>
    have hcount : slashCount path ≠ 2 := by
      unfold slashCount
      cases hchars : path.toList with
      | nil => simp
      | cons c rest =>
        have hc : c ≠ '/' := by simpa [isAbsolute, hchars] using hpath
        simp [hc]
    rw [leadingSlashes_join h hpath, components_join hpath, components_absolute h, if_neg hcount,
      if_neg (by simp), absolute, String.empty_append]
    rfl

end CommandShell.Path
