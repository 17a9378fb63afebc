/-
CommandShell.Proofs.FileSystem.Linkless — a tree without links.

Without links a walk and a normalisation keep the same stack: a name goes on
it, two dots take the last one off, a single dot and a step up from the root
leave it alone. `Leads.names_eq` says so for any components: the names of the
place where they lead are the normal form of the names at the start and all
the components. Directories that cannot be searched are no exception, since a
walk does not get through them.

The working directory may have left the tree, so a place is `Linkless` with
all that is below the detached directories on its way, and `Intact` if none of
these was removed.
-/
import CommandShell.Proofs.FileSystem.RealPath

namespace CommandShell

/-- A node without a link in it, whose names are those of files. -/
inductive Node.Linkless : Node → Prop
  | directory {searchable : Bool} {entries : List (String × Node)}
      (named : ∀ entry ∈ entries, Path.IsName entry.1)
      (linkless : ∀ entry ∈ entries, Node.Linkless entry.2) :
      Node.Linkless (.directory searchable entries)
  | file (file : File) : Node.Linkless (.file file)
  | special (executable : Bool) : Node.Linkless (.special executable)

theorem Node.Linkless.find? {searchable : Bool} {entries : Bindings Node} {name : String}
    {child : Node} (h : (Node.directory searchable entries).Linkless)
    (hfind : Bindings.find? entries name = some child) : Path.IsName name ∧ child.Linkless := by
  cases h with
  | directory named linkless =>
    have hmem := Bindings.mem_of_find? hfind
    exact ⟨named _ hmem, linkless _ hmem⟩

theorem Node.Linkless.at? {node child : Node} (h : node.Linkless) {names : List String}
    (hchild : node.at? names = some child) : child.Linkless := by
  induction names generalizing node with
  | nil => exact Option.some.inj hchild ▸ h
  | cons name rest ih =>
    obtain ⟨middle, hfind, hrest⟩ := Option.bind_eq_some_iff.mp hchild
    cases node with
    | directory searchable entries => exact ih (h.find? hfind).2 hrest
    | file file => cases hfind
    | link target => cases h
    | special executable => cases hfind

namespace Place

/-- A place with names of files, and without a link in a detached directory
on the way. -/
inductive Linkless : Place → Prop
  | inTree {names : List String} (named : ∀ name ∈ names, Path.IsName name) :
      Linkless (.inTree names)
  | apart {above : Place} {top : Detached} {names : List String} (habove : Linkless above)
      (htop : Path.IsName top.name) (hnode : top.node.Linkless)
      (named : ∀ name ∈ names, Path.IsName name) : Linkless (.apart above top names)

/-- No directory on the way to a place was removed. -/
inductive Intact : Place → Prop
  | inTree (names : List String) : Intact (.inTree names)
  | apart {above : Place} {top : Detached} (habove : Intact above) (htop : top.removed = false)
      (names : List String) : Intact (.apart above top names)

variable {place : Place}

theorem Linkless.isName (h : place.Linkless) : ∀ name ∈ place.names, Path.IsName name := by
  induction h with
  | inTree named => exact named
  | apart _ htop _ named ih =>
    intro name hname
    rcases List.mem_append.mp hname with hname | hname
    · exact ih name hname
    · rcases List.mem_cons.mp hname with rfl | hname
      · exact htop
      · exact named name hname

theorem Linkless.parent (h : place.Linkless) : place.parent.Linkless := by
  cases h with
  | inTree named => exact .inTree fun name hname => named name (List.mem_of_mem_dropLast hname)
  | @apart above top names habove htop hnode named =>
    cases names with
    | nil => exact habove
    | cons first rest =>
      exact .apart habove htop hnode fun name hname => named name (List.mem_of_mem_dropLast hname)

theorem Linkless.child (h : place.Linkless) {name : String} (hname : Path.IsName name) :
    (place.child name).Linkless := by
  have hsnoc : ∀ {names : List String}, (∀ other ∈ names, Path.IsName other) →
      ∀ other ∈ names ++ [name], Path.IsName other := by
    intro names hnames other hother
    rcases List.mem_append.mp hother with hother | hother
    · exact hnames other hother
    · exact List.mem_singleton.mp hother ▸ hname
  cases h with
  | inTree named => exact .inTree (hsnoc named)
  | apart habove htop hnode named => exact .apart habove htop hnode (hsnoc named)

/-- Without links in the tree, there is none at such a place. -/
theorem Linkless.node? (h : place.Linkless) {tree node : Node} (htree : tree.Linkless)
    (hnode : place.node? tree = some node) : node.Linkless := by
  cases h with
  | inTree _ => exact htree.at? hnode
  | apart _ _ htop _ => exact htop.at? hnode

theorem Intact.parent (h : place.Intact) : place.parent.Intact := by
  cases h with
  | inTree names => exact .inTree names.dropLast
  | apart habove htop names =>
    cases names with
    | nil => exact habove
    | cons first rest => exact .apart habove htop _

theorem Intact.child (h : place.Intact) (name : String) : (place.child name).Intact := by
  cases h with
  | inTree names => exact .inTree (names ++ [name])
  | apart habove htop names => exact .apart habove htop (names ++ [name])

theorem Intact.isRemoved_eq_false (h : place.Intact) : place.isRemoved = false := by
  cases h with
  | inTree _ => rfl
  | apart _ htop _ => exact htop

end Place

namespace World

/-- A world without links, be it in the tree or in a detached directory that
the working directory is in. -/
structure Linkless (world : World) : Prop where
  tree : world.root.Linkless
  workingDirectory : world.workingDirectory.Linkless

variable {world : World} {place next final : Place} {name : String}

/-- One step does to the names of a place what one component more does to
their normal form. -/
theorem Step.linkless (hroot : world.root.Linkless) (hplace : place.Linkless)
    (h : Step world place name next) :
    next.Linkless ∧ next.names = Path.normalForm (place.names ++ [name]) := by
  have hnormal : Path.normalForm place.names = place.names :=
    Path.normalForm_names hplace.isName
  cases h with
  | stay _ => exact ⟨hplace, by rw [Path.normalForm_dot, hnormal]⟩
  | up _ => exact ⟨hplace.parent, by rw [Path.normalForm_dots, hnormal, Place.names_parent]⟩
  | down hopen hdot hdots hfind _ =>
    have hname := ((hplace.node? hroot hopen).find? hfind).1
    refine ⟨hplace.child hname, ?_⟩
    rw [Path.normalForm_name _ hdot hdots, hnormal, Place.names_child]

theorem not_linkAt (hroot : world.root.Linkless) (hplace : place.Linkless) (name target : String) :
    ¬ LinkAt world place name target := by
  rintro ⟨hopen, -, -, hfind⟩
  cases ((hplace.node? hroot hopen).find? hfind).2

/-- **The names of the place where components lead** are the normal form of the
names at the start with the components behind them. -/
theorem Leads.names_eq {components : List String} {links : Nat} (hroot : world.root.Linkless)
    (hplace : place.Linkless) (h : Leads world place components links final) :
    final.names = Path.normalForm (place.names ++ components) := by
  induction h with
  | arrived place => rw [List.append_nil, Path.normalForm_names hplace.isName]
  | @step place next final name rest links hstep _ ih =>
    obtain ⟨hnext, hnames⟩ := hstep.linkless hroot hplace
    rw [ih hnext, hnames, Path.normalForm_normalForm_append, List.append_assoc,
      List.singleton_append]
  | link hlink _ _ => exact absurd hlink (not_linkAt hroot hplace _ _)

/-- From where no directory was removed, a walk does not come to one that
was. -/
theorem Leads.intact {components : List String} {links : Nat} (hplace : place.Intact)
    (h : Leads world place components links final) : final.Intact := by
  induction h with
  | arrived _ => exact hplace
  | step hstep _ ih =>
    rcases hstep.eq with ⟨-, rfl⟩ | ⟨-, rfl⟩ | ⟨-, -, rfl⟩
    · exact ih hplace
    · exact ih hplace.parent
    · exact ih (hplace.child _)
  | @link place final name target rest links _ _ ih =>
    refine ih ?_
    unfold startOf
    split
    · exact .inTree []
    · exact hplace

/-- **Where a path leads without links.** The names of the place are the normal
form of the path's components, behind those of the working directory if the
path is relative. -/
theorem names_of_resolve (hworld : world.Linkless) {path : String}
    (h : world.resolve true path = .ok final) :
    final.names = Path.normalForm
      ((if Path.isAbsolute path = true then [] else world.workingDirectory.names) ++
        Path.components path) := by
  obtain ⟨-, links, -, hleads⟩ := leads_of_resolve h
  have hstart : (startOf world.workingDirectory path).Linkless ∧
      (startOf world.workingDirectory path).names =
        if Path.isAbsolute path = true then [] else world.workingDirectory.names := by
    unfold startOf
    split
    · exact ⟨.inTree (by simp), rfl⟩
    · exact ⟨hworld.workingDirectory, rfl⟩
  rw [hleads.names_eq hworld.tree hstart.1, hstart.2]

theorem intact_of_resolve (hintact : world.workingDirectory.Intact) {path : String}
    (h : world.resolve true path = .ok final) : final.Intact := by
  obtain ⟨-, links, -, hleads⟩ := leads_of_resolve h
  refine hleads.intact ?_
  unfold startOf
  split
  · exact .inTree []
  · exact hintact

end World

end CommandShell
