/-
CommandShell.Proofs.FileSystem.Route — where components lead, links followed.

`Leads` is the walk as a relation: components lead from one place to another,
and so many links are followed on the way. It knows no limit and no wanted
directory. `leads_of_walk` and `walk_of_leads` tie it to the walk: a walk that
follows links comes to a directory exactly if the components lead there with
no more links than it may follow.

What makes the relation easy to use is that it can be cut anywhere
(`Leads.of_append`) and put together again (`Leads.append`), whatever links
are in it.
-/
import CommandShell.FileSystem.Walk

namespace CommandShell.World

/-- A component that leads on without a link. -/
inductive Step (world : World) : Place → String → Place → Prop
  | stay {place : Place} {entries : Bindings Node}
      (hopen : world.node? place = some (.directory true entries)) : Step world place "." place
  | up {place : Place} {entries : Bindings Node}
      (hopen : world.node? place = some (.directory true entries)) :
      Step world place ".." place.parent
  | down {place : Place} {entries : Bindings Node} {name : String} {node : Node}
      (hopen : world.node? place = some (.directory true entries))
      (hdot : name ≠ ".") (hdots : name ≠ "..") (hfind : Bindings.find? entries name = some node)
      (hnode : ∀ target, node ≠ .link target) : Step world place name (place.child name)

/-- A component that is the name of a link. -/
inductive LinkAt (world : World) : Place → String → String → Prop
  | intro {place : Place} {entries : Bindings Node} {name target : String}
      (hopen : world.node? place = some (.directory true entries))
      (hdot : name ≠ ".") (hdots : name ≠ "..")
      (hfind : Bindings.find? entries name = some (.link target)) : LinkAt world place name target

/-- Components lead from a place to another one, with so many links followed
on the way. -/
inductive Leads (world : World) : Place → List String → Nat → Place → Prop
  | arrived (place : Place) : Leads world place [] 0 place
  | step {place next final : Place} {name : String} {rest : List String} {links : Nat}
      (hstep : Step world place name next) (hrest : Leads world next rest links final) :
      Leads world place (name :: rest) links final
  | link {place final : Place} {name target : String} {rest : List String} {links : Nat}
      (hlink : LinkAt world place name target)
      (hrest : Leads world (startOf place target) (Path.components target ++ rest) links final) :
      Leads world place (name :: rest) (links + 1) final

variable {world : World} {place next middle final : Place} {name target : String}

theorem Step.eq (h : Step world place name next) :
    (name = "." ∧ next = place) ∨ (name = ".." ∧ next = place.parent) ∨
      (name ≠ "." ∧ name ≠ ".." ∧ next = place.child name) := by
  cases h with
  | stay => exact .inl ⟨rfl, rfl⟩
  | up => exact .inr (.inl ⟨rfl, rfl⟩)
  | down _ hdot hdots => exact .inr (.inr ⟨hdot, hdots, rfl⟩)

theorem LinkAt.ne_dot (h : LinkAt world place name target) : name ≠ "." := by
  cases h
  assumption

theorem LinkAt.ne_dots (h : LinkAt world place name target) : name ≠ ".." := by
  cases h
  assumption

theorem Step.inTree (h : Step world place name next) (hplace : ∃ names, place = .inTree names) :
    ∃ names, next = .inTree names := by
  obtain ⟨names, rfl⟩ := hplace
  cases h with
  | stay => exact ⟨names, rfl⟩
  | up => exact ⟨names.dropLast, rfl⟩
  | down => exact ⟨names ++ [name], rfl⟩

/-! ## Routes -/

/-- A step goes by the tree alone, wherever the process works. -/
theorem Step.of_root_eq {other : World} (hroot : other.root = world.root)
    (h : Step world place name next) : Step other place name next := by
  have hnode : ∀ place, other.node? place = world.node? place := fun place => by
    rw [node?, node?, hroot]
  cases h with
  | stay hopen => exact .stay ((hnode _).trans hopen)
  | up hopen => exact .up ((hnode _).trans hopen)
  | down hopen hdot hdots hfind hdown =>
    exact .down ((hnode _).trans hopen) hdot hdots hfind hdown

theorem LinkAt.of_root_eq {other : World} (hroot : other.root = world.root)
    (h : LinkAt world place name target) : LinkAt other place name target := by
  obtain ⟨hopen, hdot, hdots, hfind⟩ := h
  refine .intro ?_ hdot hdots hfind
  rw [← hopen, node?, node?, hroot]

namespace Leads

variable {before after : List String} {first second links : Nat}

theorem append (h : Leads world place before first middle)
    (h' : Leads world middle after second final) :
    Leads world place (before ++ after) (first + second) final := by
  induction h with
  | arrived place => simpa using h'
  | step hstep _ ih => exact .step hstep (ih h')
  | link hlink _ ih =>
    have hrest := ih h'
    rw [List.append_assoc] at hrest
    rw [Nat.add_right_comm]
    exact .link hlink hrest

/-- Components that were put together lead first where the first ones do. -/
theorem of_append (h : Leads world place (before ++ after) links final) :
    ∃ middle first second, Leads world place before first middle ∧
      Leads world middle after second final ∧ links = first + second := by
  generalize hall : before ++ after = all at h
  -- A link puts components of its own in front, so `before` changes on the way.
  induction h generalizing before with
  | arrived place =>
    obtain ⟨rfl, rfl⟩ := List.append_eq_nil_iff.mp hall
    exact ⟨place, 0, 0, .arrived place, .arrived place, rfl⟩
  | @step place next final name rest links hstep hrest ih =>
    cases before with
    | nil =>
      obtain rfl : after = name :: rest := hall
      exact ⟨place, 0, links, .arrived place, .step hstep hrest, by simp⟩
    | cons component before =>
      obtain ⟨rfl, hrest⟩ := List.cons_eq_cons.mp hall
      obtain ⟨middle, first, second, hfirst, hsecond, hlinks⟩ := ih hrest
      exact ⟨middle, first, second, .step hstep hfirst, hsecond, hlinks⟩
  | @link place final name target rest links hlink hrest ih =>
    cases before with
    | nil =>
      obtain rfl : after = name :: rest := hall
      exact ⟨place, 0, links + 1, .arrived place, .link hlink hrest, by simp⟩
    | cons component before =>
      obtain ⟨rfl, hrest⟩ := List.cons_eq_cons.mp hall
      have hjoined : (Path.components target ++ before) ++ after =
          Path.components target ++ rest := by
        rw [List.append_assoc]
        exact congrArg _ hrest
      obtain ⟨middle, first, second, hfirst, hsecond, hlinks⟩ := ih hjoined
      exact ⟨middle, first + 1, second, .link hlink hfirst, hsecond, by omega⟩

theorem of_root_eq {other : World} (hroot : other.root = world.root)
    (h : Leads world place before links final) : Leads other place before links final := by
  induction h with
  | arrived place => exact .arrived place
  | step hstep _ ih => exact .step (hstep.of_root_eq hroot) ih
  | link hlink _ ih => exact .link (hlink.of_root_eq hroot) ih

/-- A route that starts in the tree stays there. -/
theorem inTree (h : Leads world place before links final)
    (hplace : ∃ names, place = .inTree names) : ∃ names, final = .inTree names := by
  induction h with
  | arrived place => exact hplace
  | step hstep _ ih => exact ih (hstep.inTree hplace)
  | @link place final name target _ _ _ _ ih =>
    refine ih ?_
    unfold startOf
    split
    · exact ⟨[], rfl⟩
    · exact hplace

end Leads

/-! ## Descents -/

variable {rest components : List String} {followLast follow wantDirectory : Bool}

theorem descend_step (h : Step world place name next) :
    world.descend followLast place (name :: rest) = world.descend followLast next rest := by
  cases h with
  | stay hopen => simp [descend, hopen]
  | up hopen => simp [descend, hopen]
  | @down entries _ node hopen hdot hdots hfind hnode =>
    cases node with
    | link target => exact absurd rfl (hnode target)
    | directory searchable entries => simp [descend, hopen, hdot, hdots, hfind]
    | file file => simp [descend, hopen, hdot, hdots, hfind]
    | special executable => simp [descend, hopen, hdot, hdots, hfind]

theorem descend_link (h : LinkAt world place name target) :
    world.descend followLast place (name :: rest) =
      if rest ≠ [] ∨ followLast then .ok (.link place target rest)
      else .ok (.arrived (place.child name)) := by
  obtain ⟨hopen, hdot, hdots, hfind⟩ := h
  simp [descend, hopen, hdot, hdots, hfind]

/-- A descent that does not fail goes a step on or meets a link. -/
theorem of_descend_cons {stop : Stop}
    (h : world.descend followLast place (name :: rest) = .ok stop) :
    (∃ next, Step world place name next ∧ world.descend followLast next rest = .ok stop) ∨
      ∃ target, LinkAt world place name target := by
  rw [descend] at h
  split at h
  · next searchable entries hopen =>
    split at h
    · cases h
    · next hsearchable =>
      obtain rfl : searchable = true := by simpa using hsearchable
      split at h
      · next hdot =>
        rw [hdot]
        exact .inl ⟨place, .stay hopen, h⟩
      · next hdot =>
        split at h
        · next hdots =>
          rw [hdots]
          exact .inl ⟨place.parent, .up hopen, h⟩
        · next hdots =>
          split at h
          · cases h
          · next target hfind => exact .inr ⟨target, .intro hopen hdot hdots hfind⟩
          · next node hnode hfind =>
            exact .inl ⟨place.child name, .down hopen hdot hdots hfind (by simpa using hnode), h⟩
  · cases h

/-- A descent without a link is a route, and so is one to a link with the way
on from there. -/
theorem leads_of_descend {stop : Stop} (h : world.descend true place components = .ok stop) :
    match stop with
    | .arrived final => Leads world place components 0 final
    | .link holder target rest => ∀ links final,
      Leads world (startOf holder target) (Path.components target ++ rest) links final →
        Leads world place components (links + 1) final := by
  induction components generalizing place with
  | nil =>
    cases h
    exact .arrived place
  | cons name rest ih =>
    rcases of_descend_cons h with ⟨next, hstep, hrest⟩ | ⟨target, hlink⟩
    · cases stop with
      | arrived final => exact .step hstep (ih hrest)
      | link holder target more => exact fun links final hmore => .step hstep (ih hrest _ _ hmore)
    · rw [descend_link hlink, if_pos (.inr rfl)] at h
      cases h
      exact fun links final hmore => .link hlink hmore

/-! ## Walks -/

variable {limit links : Nat}

theorem walk_step (h : Step world place name next) :
    world.walk follow wantDirectory place (name :: rest) limit =
      world.walk follow wantDirectory next rest limit := by
  rw [walk.eq_def, descend_step h, ← walk.eq_def]

theorem walk_link (h : LinkAt world place name target)
    (hfollow : rest ≠ [] ∨ (follow || wantDirectory) = true) :
    world.walk follow wantDirectory place (name :: rest) (limit + 1) =
      world.walk follow (wantDirectory || (rest.isEmpty && Path.endsInSlash target))
        (startOf place target) (Path.components target ++ rest) limit := by
  rw [walk.eq_def, descend_link h, if_pos hfollow]

/-- Where a walk comes to, its components lead. -/
theorem leads_of_walk (h : world.walk true wantDirectory place components limit = .ok final) :
    ∃ links ≤ limit, Leads world place components links final := by
  induction limit generalizing wantDirectory place components with
  | zero =>
    rw [walk.eq_def] at h
    split at h
    · cases h
    · next stop hstop =>
      split at h
      · cases h
      · cases h
        exact ⟨0, Nat.le_refl 0, leads_of_descend hstop⟩
    · cases h
  | succ limit ih =>
    rw [walk.eq_def] at h
    split at h
    · cases h
    · next stop hstop =>
      split at h
      · cases h
      · cases h
        exact ⟨0, Nat.zero_le _, leads_of_descend hstop⟩
    · next holder target rest hstop =>
      obtain ⟨links, hlinks, hrest⟩ := ih h
      exact ⟨links + 1, by omega, leads_of_descend hstop links final hrest⟩

/-- Where components lead to a directory, a walk comes if it may follow so
many links, whether or not it wants a directory. -/
theorem walk_of_leads (h : Leads world place components links final)
    (hdirectory : (world.node? final).any Node.isDirectory = true) (hlimit : links ≤ limit) :
    world.walk true wantDirectory place components limit = .ok final := by
  induction h generalizing wantDirectory limit with
  | arrived place => simp [walk.eq_def, descend, hdirectory]
  | step hstep _ ih => rw [walk_step hstep, ih hdirectory hlimit]
  | link hlink _ ih =>
    obtain ⟨more, rfl⟩ : ∃ more, limit = more + 1 := ⟨limit - 1, by omega⟩
    rw [walk_link hlink (.inr rfl), ih hdirectory (by omega)]

/-- A walk that does not end yet goes on from where its components lead so
far. It does not get to know whether a link on the way ends in a slash. -/
theorem walk_append_of_leads (h : Leads world place components links middle)
    (hrest : rest ≠ []) (hlimit : links ≤ limit) :
    world.walk follow wantDirectory place (components ++ rest) limit =
      world.walk follow wantDirectory middle rest (limit - links) := by
  induction h generalizing limit with
  | arrived place => rfl
  | step hstep _ ih => rw [List.cons_append, walk_step hstep, ih hlimit]
  | @link place final name target more links hlink _ ih =>
    obtain ⟨fewer, rfl⟩ : ∃ fewer, limit = fewer + 1 := ⟨limit - 1, by omega⟩
    have hmore : more ++ rest ≠ [] := List.append_ne_nil_of_right_ne_nil more hrest
    have hempty : (more ++ rest).isEmpty = false := by simpa using hmore
    rw [List.cons_append, walk_link hlink (.inl hmore), hempty, Bool.false_and, Bool.or_false,
      ← List.append_assoc, ih (by omega), Nat.add_sub_add_right]

end CommandShell.World
