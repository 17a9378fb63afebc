/-
CommandShell.Proofs.FileSystem.Ends — how a walk ends, failures included.

`Leads` says where components lead; here are also the ways in which they lead
nowhere. §1 has one rule for each thing that can happen at the next component:
it leads on, it is a link that is followed or left alone, or it is `Blocked`.
The rules are complete and leave no choice, so a walk ends as they say and in no
other way (`ends_iff`). §2 has the same for paths as texts (`comes_iff`).

§3 compares the two ways to treat a link in the last position. A walk that does
not follow it ends as one that follows it does, with one exception: it comes to
the link, and the other goes on from there (`Ends.follow_or_link`).
-/
import CommandShell.Proofs.FileSystem.Route

namespace CommandShell.World

/-! ## §1 Components -/

/-- A component does not lead on. -/
inductive Blocked (world : World) : Place → String → Errno → Prop
  | notDirectory {place : Place} {name : String}
      (h : (world.node? place).any Node.isDirectory = false) : Blocked world place name .enotdir
  | closed {place : Place} {entries : Bindings Node} {name : String}
      (h : world.node? place = some (.directory false entries)) : Blocked world place name .eacces
  | missing {place : Place} {entries : Bindings Node} {name : String}
      (hopen : world.node? place = some (.directory true entries))
      (hdot : name ≠ ".") (hdots : name ≠ "..") (hfind : Bindings.find? entries name = none) :
      Blocked world place name .enoent

/-- A walk over components ends so, with so many links that it may still follow.
The last component is followed, if it is a link, where `follow` says so and where
a directory is wanted. -/
inductive Ends (world : World) (follow : Bool) :
    Bool → Place → List String → Nat → Except Errno Place → Prop
  | arrived {wantDirectory : Bool} {place : Place} {links : Nat}
      (h : wantDirectory = true → (world.node? place).any Node.isDirectory = true) :
      Ends world follow wantDirectory place [] links (.ok place)
  | unwanted {place : Place} {links : Nat}
      (h : (world.node? place).any Node.isDirectory = false) :
      Ends world follow true place [] links (.error .enotdir)
  | step {wantDirectory : Bool} {place next : Place} {name : String} {rest : List String}
      {links : Nat} {result : Except Errno Place} (hstep : Step world place name next)
      (hrest : Ends world follow wantDirectory next rest links result) :
      Ends world follow wantDirectory place (name :: rest) links result
  | blocked {wantDirectory : Bool} {place : Place} {name : String} {rest : List String}
      {links : Nat} {errno : Errno} (h : Blocked world place name errno) :
      Ends world follow wantDirectory place (name :: rest) links (.error errno)
  | link {wantDirectory : Bool} {place : Place} {name target : String} {rest : List String}
      {links : Nat} {result : Except Errno Place} (hlink : LinkAt world place name target)
      (hfollow : rest ≠ [] ∨ (follow || wantDirectory) = true)
      (hrest : Ends world follow (wantDirectory || (rest.isEmpty && Path.endsInSlash target))
        (startOf place target) (Path.components target ++ rest) links result) :
      Ends world follow wantDirectory place (name :: rest) (links + 1) result
  | tooMany {wantDirectory : Bool} {place : Place} {name target : String} {rest : List String}
      (hlink : LinkAt world place name target)
      (hfollow : rest ≠ [] ∨ (follow || wantDirectory) = true) :
      Ends world follow wantDirectory place (name :: rest) 0 (.error .eloop)
  | unfollowed {place : Place} {name target : String} {links : Nat}
      (hlink : LinkAt world place name target) (hfollow : follow = false) :
      Ends world follow false place [name] links (.ok (place.child name))

variable {world : World} {follow wantDirectory : Bool} {place : Place} {name target path : String}
variable {rest components : List String} {links : Nat} {result : Except Errno Place}
variable {errno : Errno}

/-- A component leads on, is a link, or is blocked. -/
theorem step_or_linkAt_or_blocked (world : World) (place : Place) (name : String) :
    (∃ next, Step world place name next) ∨ (∃ target, LinkAt world place name target) ∨
      ∃ errno, Blocked world place name errno := by
  cases hnode : world.node? place with
  | none => exact .inr (.inr ⟨_, .notDirectory (by simp [hnode])⟩)
  | some node =>
    cases node with
    | file file => exact .inr (.inr ⟨_, .notDirectory (by simp [hnode, Node.isDirectory])⟩)
    | link target => exact .inr (.inr ⟨_, .notDirectory (by simp [hnode, Node.isDirectory])⟩)
    | special executable =>
      exact .inr (.inr ⟨_, .notDirectory (by simp [hnode, Node.isDirectory])⟩)
    | directory searchable entries =>
      cases searchable with
      | false => exact .inr (.inr ⟨_, .closed hnode⟩)
      | true =>
        by_cases hdot : name = "."
        · exact .inl ⟨place, hdot ▸ .stay hnode⟩
        by_cases hdots : name = ".."
        · exact .inl ⟨place.parent, hdots ▸ .up hnode⟩
        cases hfind : Bindings.find? entries name with
        | none => exact .inr (.inr ⟨_, .missing hnode hdot hdots hfind⟩)
        | some child =>
          cases child with
          | link target => exact .inr (.inl ⟨target, .intro hnode hdot hdots hfind⟩)
          | _ => exact .inl ⟨place.child name, .down hnode hdot hdots hfind (by simp)⟩

theorem walk_blocked (h : Blocked world place name errno) :
    world.walk follow wantDirectory place (name :: rest) links = .error errno := by
  have hdescend : ∀ followLast,
      world.descend followLast place (name :: rest) = .error errno := by
    intro followLast
    rw [descend]
    cases h with
    | notDirectory h =>
      cases hnode : world.node? place with
      | none => rfl
      | some node => cases node <;> simp_all [Node.isDirectory]
    | closed h => simp [h]
    | missing hopen hdot hdots hfind => simp [hopen, hdot, hdots, hfind]
  rw [walk.eq_def, hdescend]

theorem walk_arrived (h : wantDirectory = true → (world.node? place).any Node.isDirectory = true) :
    world.walk follow wantDirectory place [] links = .ok place := by
  rw [walk.eq_def, descend]
  cases wantDirectory with
  | false => rfl
  | true => simp [h rfl]

theorem walk_unwanted (h : (world.node? place).any Node.isDirectory = false) :
    world.walk follow true place [] links = .error .enotdir := by
  rw [walk.eq_def, descend]
  simp [h]

theorem walk_tooMany (hlink : LinkAt world place name target)
    (hfollow : rest ≠ [] ∨ (follow || wantDirectory) = true) :
    world.walk follow wantDirectory place (name :: rest) 0 = .error .eloop := by
  rw [walk.eq_def, descend_link hlink, if_pos hfollow]

theorem walk_unfollowed (hlink : LinkAt world place name target) :
    world.walk false false place [name] links = .ok (place.child name) := by
  rw [walk.eq_def, descend_link hlink]
  rfl

/-- The rules cover all that can happen before a link is followed, if they do
afterwards. -/
theorem ends_walk_of_fewer (hfewer : ∀ fewer, links = fewer + 1 →
      ∀ wantDirectory place components, Ends world follow wantDirectory place components fewer
        (world.walk follow wantDirectory place components fewer))
    (wantDirectory : Bool) (place : Place) (components : List String) :
    Ends world follow wantDirectory place components links
      (world.walk follow wantDirectory place components links) := by
  induction components generalizing place with
  | nil =>
    by_cases hwanted : wantDirectory = true → (world.node? place).any Node.isDirectory = true
    · rw [walk_arrived hwanted]
      exact .arrived hwanted
    · obtain ⟨rfl, hnode⟩ : wantDirectory = true ∧ _ := by simpa using hwanted
      rw [walk_unwanted (by simpa using hnode)]
      exact .unwanted (by simpa using hnode)
  | cons name rest ih =>
    rcases step_or_linkAt_or_blocked world place name with
      ⟨next, hstep⟩ | ⟨target, hlink⟩ | ⟨errno, hblocked⟩
    · rw [walk_step hstep]
      exact .step hstep (ih next)
    · by_cases hfollow : rest ≠ [] ∨ (follow || wantDirectory) = true
      · cases links with
        | zero =>
          rw [walk_tooMany hlink hfollow]
          exact .tooMany hlink hfollow
        | succ fewer =>
          rw [walk_link hlink hfollow]
          exact .link hlink hfollow (hfewer fewer rfl _ _ _)
      · obtain ⟨rfl, rfl, rfl⟩ : rest = [] ∧ follow = false ∧ wantDirectory = false := by
          simpa using hfollow
        rw [walk_unfollowed hlink]
        exact .unfollowed hlink rfl
    · rw [walk_blocked hblocked]
      exact .blocked hblocked

/-- The rules cover all that can happen. -/
theorem ends_walk (world : World) (follow wantDirectory : Bool) (place : Place)
    (components : List String) (links : Nat) :
    Ends world follow wantDirectory place components links
      (world.walk follow wantDirectory place components links) := by
  induction links generalizing wantDirectory place components with
  | zero => exact ends_walk_of_fewer (by simp) wantDirectory place components
  | succ links ih =>
    refine ends_walk_of_fewer (fun fewer heq => ?_) wantDirectory place components
    obtain rfl : fewer = links := by omega
    exact fun wantDirectory place components => ih wantDirectory place components

/-- **A walk ends as the rules say**, and in no other way. -/
theorem ends_iff :
    Ends world follow wantDirectory place components links result ↔
      world.walk follow wantDirectory place components links = result := by
  constructor
  · intro h
    induction h with
    | arrived h => exact walk_arrived h
    | unwanted h => exact walk_unwanted h
    | step hstep _ ih => rw [walk_step hstep, ih]
    | blocked h => exact walk_blocked h
    | link hlink hfollow _ ih => rw [walk_link hlink hfollow, ih]
    | tooMany hlink hfollow => exact walk_tooMany hlink hfollow
    | unfollowed hlink hfollow =>
      subst hfollow
      exact walk_unfollowed hlink
  · rintro rfl
    exact ends_walk world follow wantDirectory place components links

theorem Ends.unique {other : Except Errno Place}
    (h : Ends world follow wantDirectory place components links result)
    (h' : Ends world follow wantDirectory place components links other) : result = other :=
  (ends_iff.mp h).symm.trans (ends_iff.mp h')

/-! ## §2 Paths -/

/-- A path without NUL comes to a place, or to an error. -/
inductive Comes (world : World) (follow : Bool) (path : String) : Except Errno Place → Prop
  | nowhere (h : path = "") : Comes world follow path (.error .enoent)
  | walk {result : Except Errno Place} (hnul : '\x00' ∉ path.toList) (hne : path ≠ "")
      (h : Ends world follow (Path.endsInSlash path) (startOf world.workingDirectory path)
        (Path.components path) linkLimit result) : Comes world follow path result

/-- Errors of the system are told apart where they are those of paths. -/
theorem mapError_system_inj {α : Type} {first second : Except Errno α} :
    first.mapError PathError.system = second.mapError .system ↔ first = second := by
  refine ⟨fun h => ?_, fun h => by rw [h]⟩
  cases first <;> cases second <;> cases h <;> rfl

theorem comes_iff :
    Comes world follow path result ↔ world.resolve follow path = result.mapError .system := by
  constructor
  · intro h
    cases h with
    | nowhere h =>
      subst h
      rfl
    | walk hnul hne h => simp [resolve, hnul, hne, ends_iff.mp h]
  · intro h
    unfold resolve at h
    split at h
    · cases result <;> cases h
    · next hnul =>
      split at h
      · next hnil =>
        cases result with
        | ok place => cases h
        | error errno =>
          cases h
          exact .nowhere hnil
      · next hne =>
        refine .walk (by simpa using hnul) hne (ends_iff.mpr ?_)
        exact mapError_system_inj.mp h

theorem Comes.resolve_eq_ok (h : Comes world follow path (.ok place)) :
    world.resolve follow path = .ok place := comes_iff.mp h

theorem Comes.resolve_eq_error (h : Comes world follow path (.error errno)) :
    world.resolve follow path = .error (.system errno) := comes_iff.mp h

/-- What a path comes to with links followed is what is looked up. -/
theorem Comes.lookup_eq_ok {node : Node} (h : Comes world true path (.ok place))
    (hnode : world.node? place = some node) : world.lookup path = .ok node := by
  simp only [lookup, h.resolve_eq_ok, hnode]

theorem Comes.lookup_eq_error (h : Comes world true path (.error errno)) :
    world.lookup path = .error (.system errno) := by
  simp only [lookup, h.resolve_eq_error]

/-- Every path without NUL comes to something. -/
theorem exists_comes (world : World) (follow : Bool) (h : '\x00' ∉ path.toList) :
    ∃ result, Comes world follow path result := by
  by_cases hne : path = ""
  · exact ⟨_, .nowhere hne⟩
  · exact ⟨_, .walk h hne (ends_walk ..)⟩

theorem Comes.nul_not_mem (h : Comes world follow path result) : '\x00' ∉ path.toList := by
  cases h with
  | nowhere h => simp [h]
  | walk hnul => exact hnul

/-- A path that holds NUL comes to nothing at all. -/
theorem resolve_of_nul (follow : Bool) (h : '\x00' ∈ path.toList) :
    world.resolve follow path = .error .embeddedNul := by
  simp [resolve, h]

/-! ## §3 A link in the last position -/

/-- A walk that does not follow a link in the last position ends as one that
does, or it comes to such a link and the other goes on from there. -/
theorem Ends.follow_or_link (h : Ends world false wantDirectory place components links result) :
    Ends world true wantDirectory place components links result ∨
      ∃ holder name target left, result = .ok (holder.child name) ∧
        LinkAt world holder name target ∧ left ≤ links ∧
        ∀ other, Ends world true false holder [name] left other →
          Ends world true wantDirectory place components links other := by
  induction h with
  | arrived h => exact .inl (.arrived h)
  | unwanted h => exact .inl (.unwanted h)
  | step hstep _ ih =>
    refine ih.imp (.step hstep) ?_
    rintro ⟨holder, name, target, left, hresult, hlink, hleft, hgoes⟩
    exact ⟨holder, name, target, left, hresult, hlink, hleft, fun other h =>
      .step hstep (hgoes other h)⟩
  | blocked h => exact .inl (.blocked h)
  | link hlink _ _ ih =>
    refine ih.imp (.link hlink (.inr rfl)) ?_
    rintro ⟨holder, name, target, left, hresult, hlast, hleft, hgoes⟩
    exact ⟨holder, name, target, left, hresult, hlast, by omega, fun other h =>
      .link hlink (.inr rfl) (hgoes other h)⟩
  | tooMany hlink _ => exact .inl (.tooMany hlink (.inr rfl))
  | @unfollowed place name target links hlink _ =>
    exact .inr ⟨place, name, target, links, rfl, hlink, Nat.le_refl links, fun _ h => h⟩

/-- A name is that of a link whose target does not exist. -/
structure Dangling (world : World) (holder : Place) (name target : String) : Prop where
  link : LinkAt world holder name target
  missing : ∃ links < linkLimit, Ends world true (Path.endsInSlash target)
    (startOf holder target) (Path.components target) links (.error .enoent)

/-- **What is missing when links are followed** is missing anyway, or else the
last link leads to nothing. -/
theorem Comes.missing_or_dangling (h : Comes world true path (.error .enoent)) :
    Comes world false path (.error .enoent) ∨
      ∃ holder name target, Comes world false path (.ok (holder.child name)) ∧
        Dangling world holder name target := by
  cases h with
  | nowhere h => exact .inl (.nowhere h)
  | walk hnul hne h =>
    have hends := ends_walk world false (Path.endsInSlash path)
      (startOf world.workingDirectory path) (Path.components path) linkLimit
    rcases hends.follow_or_link with
      hsame | ⟨holder, name, target, left, hresult, hlink, hleft, hgoes⟩
    · rw [hsame.unique h] at hends
      exact .inl (.walk hnul hne hends)
    · have hfollowed := ends_walk world true false holder [name] left
      rw [(hgoes _ hfollowed).unique h] at hfollowed
      rw [hresult] at hends
      refine .inr ⟨holder, name, target, .walk hnul hne hends, hlink, ?_⟩
      -- The link was followed, since there being too many is another error.
      cases left with
      | zero => cases hfollowed.unique (.tooMany hlink (.inr rfl))
      | succ fewer =>
        have hwalk := ends_iff.mp hfollowed
        rw [walk_link hlink (.inr rfl), List.append_nil] at hwalk
        exact ⟨fewer, by omega, ends_iff.mpr hwalk⟩

end CommandShell.World
