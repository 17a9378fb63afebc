/-
CommandShell.Proofs.FileSystem.RealPath — the names of a directory, and the
names that a path is normalised to.

Both are ways to a place that a path leads to by other means. §1 goes down the
tree by plain names. In a tree that is open, where every directory can be
searched, the names of a directory lead to it and follow no link
(`leads_names`). §2 normalises: what is left of the components of a path leads
where all of them did (`leads_normalForm`), with one proviso. Two dots take a
name away as if it were that of a directory, so that name must not be a
link's; whether it is, `isLinkAt` tells.
-/
import CommandShell.Proofs.Bindings.Order
import CommandShell.Proofs.FileSystem.Route
import CommandShell.Proofs.Path.NormalForm
import Mathlib.Logic.Relation

namespace CommandShell

theorem Node.at?_append (node : Node) (before after : List String) :
    node.at? (before ++ after) = (node.at? before).bind (·.at? after) := by
  induction before generalizing node with
  | nil => rfl
  | cons name before ih =>
    rw [List.cons_append, Node.at?, Node.at?]
    cases Bindings.find? node.entries name with
    | none => rfl
    | some child => exact ih child

/-- A node in a node is an entry of a directory. -/
theorem Node.at?_singleton {node child : Node} {name : String}
    (h : node.at? [name] = some child) :
    ∃ searchable entries, node = .directory searchable entries ∧
      Bindings.find? entries name = some child := by
  cases node with
  | directory searchable entries =>
    refine ⟨searchable, entries, rfl, ?_⟩
    cases hfind : Bindings.find? entries name with
    | none => simp [Node.at?, Node.entries, hfind] at h
    | some other => simpa [Node.at?, Node.entries, hfind] using h
  | file file => simp [Node.at?, Node.entries] at h
  | link target => simp [Node.at?, Node.entries] at h
  | special executable => simp [Node.at?, Node.entries] at h

/-- Every directory of the tree can be searched, and every name in it goes
down to a node when it is written in a path. -/
structure Node.Open (root : Node) : Prop where
  searchable : ∀ names searchable entries,
    root.at? names = some (.directory searchable entries) → searchable = true
  named : ∀ names node, root.at? names = some node → ∀ name ∈ names, Path.IsName name

theorem Node.open_of_entries_eq_nil {node : Node} (h : node.entries = [])
    (hdirectory : node.isDirectory = false) : node.Open := by
  have hnil : ∀ names child, node.at? names = some child → names = [] ∧ child = node := by
    intro names child hchild
    cases names with
    | nil => exact ⟨rfl, (Option.some.inj hchild).symm⟩
    | cons name rest => simp [Node.at?, h] at hchild
  constructor
  · intro names searchable entries hchild
    obtain ⟨-, rfl⟩ := hnil names _ hchild
    cases hdirectory
  · intro names child hchild
    obtain ⟨rfl, -⟩ := hnil names child hchild
    simp

/-- A directory is open if all that is in it is. -/
theorem Node.open_directory {entries : Bindings Node}
    (h : ∀ entry ∈ entries, Path.IsName entry.1 ∧ entry.2.Open) :
    (Node.directory true entries).Open := by
  have hsplit : ∀ names node, (Node.directory true entries).at? names = some node →
      (names = [] ∧ node = .directory true entries) ∨
        ∃ name rest child, names = name :: rest ∧ Bindings.find? entries name = some child ∧
          child.at? rest = some node := by
    intro names node hnode
    cases names with
    | nil => exact .inl ⟨rfl, (Option.some.inj hnode).symm⟩
    | cons name rest =>
      obtain ⟨child, hfind, hrest⟩ := Option.bind_eq_some_iff.mp hnode
      exact .inr ⟨name, rest, child, rfl, hfind, hrest⟩
  constructor
  · intro names searchable siblings hnode
    rcases hsplit names _ hnode with ⟨-, heq⟩ | ⟨name, rest, child, rfl, hfind, hrest⟩
    · cases heq
      rfl
    · exact (h _ (Bindings.mem_of_find? hfind)).2.searchable rest _ _ hrest
  · intro names node hnode name hname
    rcases hsplit names _ hnode with ⟨rfl, -⟩ | ⟨first, rest, child, rfl, hfind, hrest⟩
    · cases hname
    · rcases List.mem_cons.mp hname with rfl | hname
      · exact (h _ (Bindings.mem_of_find? hfind)).1
      · exact (h _ (Bindings.mem_of_find? hfind)).2.named rest node hrest name hname

theorem Node.Open.components_absolute {root : Node} (hopen : root.Open) {names : List String}
    {node : Node} (h : root.at? names = some node) : Path.components (Path.absolute names) = names :=
  Path.components_absolute fun name hname => (hopen.named names node h name hname).toIsComponent

theorem Place.parent_child (place : Place) (name : String) :
    (place.child name).parent = place := by
  cases place with
  | inTree names => simp [child, parent]
  | apart above top names =>
    have hnames : (names ++ [name]).dropLast = names := List.dropLast_concat
    cases names with
    | nil => rfl
    | cons first rest => exact congrArg (Place.apart above top) hnames

namespace World

variable {world : World} {place final : Place}

theorem node?_child {searchable : Bool} {entries : Bindings Node} {name : String} {node : Node}
    (h : world.node? place = some (.directory searchable entries))
    (hfind : Bindings.find? entries name = some node) :
    world.node? (place.child name) = some node := by
  cases place with
  | inTree names =>
    simp only [World.node?, Place.node?, Place.child] at h ⊢
    simp [Node.at?_append, h, Node.at?, Node.entries, hfind]
  | apart above top names =>
    simp only [World.node?, Place.node?, Place.child] at h ⊢
    simp [Node.at?_append, h, Node.at?, Node.entries, hfind]

/-! ## §1 The names of a directory -/

/-- The working directory is a directory of the tree: it was not removed, and
no other node took its place.

A directory leaves the tree in either of these ways (`Place`). That it was not
removed (`isRemoved = false`) rules out the first alone: after the second the
system still has a path for it, but another node is at that path. Wherever the
theory speaks of a working directory that is still there, it means this
stronger reading, since it is the one in which its path leads to it. -/
def InPlace (world : World) (names : List String) : Prop :=
  world.workingDirectory = .inTree names ∧
    ∃ searchable entries, world.root.at? names = some (.directory searchable entries)

/-- The names of a directory lead to it, and there is no link among them. -/
theorem leads_names (hopen : world.root.Open) {names : List String} {searchable : Bool}
    {entries : Bindings Node} (h : world.root.at? names = some (.directory searchable entries)) :
    Leads world .root names 0 (.inTree names) := by
  have hnames : ∀ name ∈ names, Path.IsName name := hopen.named names _ h
  induction names using List.reverseRecOn generalizing searchable entries with
  | nil => exact .arrived .root
  | append_singleton names name ih =>
    rw [Node.at?_append] at h
    obtain ⟨above, habove, hname⟩ := Option.bind_eq_some_iff.mp h
    obtain ⟨open', siblings, rfl, hfind⟩ := Node.at?_singleton hname
    obtain rfl : open' = true := hopen.searchable names open' siblings habove
    have hcomponent := hnames name (by simp)
    have hdown : Step world (.inTree names) name (.inTree (names ++ [name])) :=
      .down habove hcomponent.ne_dot hcomponent.ne_dots hfind (by simp)
    have hleads := ih habove fun other hother => hnames other (List.mem_append_left _ hother)
    exact hleads.append (.step hdown (.arrived _))

/-! ## §2 The normal form of a path -/

/-- Whether names lead from the root to a link. The link is not followed. -/
def isLinkAt (world : World) (names : List String) : Bool :=
  match world.walk false false .root names linkLimit with
  | .ok place =>
    match world.node? place with
    | some (.link _) => true
    | _ => false
  | .error _ => false

theorem isLinkAt_of_leads {names : List String} {name target : String} {links : Nat}
    (h : Leads world .root names links place) (hlimit : links ≤ linkLimit)
    (hlink : LinkAt world place name target) : world.isLinkAt (names ++ [name]) = true := by
  have hwalk : world.walk false false .root (names ++ [name]) linkLimit =
      .ok (place.child name) := by
    rw [walk_append_of_leads h (by simp) hlimit, walk.eq_def, descend_link hlink]
    rfl
  obtain ⟨hopen, hdot, hdots, hfind⟩ := hlink
  rw [isLinkAt, hwalk]
  simp [node?_child hopen hfind]

/-- One component is a step on, or else the name of a link. -/
theorem Leads.step_or_linkAt {name : String} {links : Nat}
    (h : Leads world place [name] links final) :
    Step world place name final ∨ ∃ target, LinkAt world place name target := by
  cases h with
  | step hstep hrest =>
    cases hrest
    exact .inl hstep
  | link hlink => exact .inr ⟨_, hlink⟩

theorem Leads.eq_of_dot {links : Nat} (h : Leads world place ["."] links final) :
    final = place := by
  rcases h.step_or_linkAt with hstep | ⟨target, hlink⟩
  · rcases hstep.eq with ⟨-, rfl⟩ | ⟨hdots, -⟩ | ⟨hdot, -⟩
    · rfl
    · exact absurd hdots (by decide)
    · exact absurd rfl hdot
  · exact absurd rfl hlink.ne_dot

theorem Leads.eq_parent_of_dots {links : Nat} (h : Leads world place [".."] links final) :
    final = place.parent := by
  rcases h.step_or_linkAt with hstep | ⟨target, hlink⟩
  · rcases hstep.eq with ⟨hdot, -⟩ | ⟨-, rfl⟩ | ⟨-, hdots, -⟩
    · exact absurd hdot (by decide)
    · rfl
    · exact absurd rfl hdots
  · exact absurd rfl hlink.ne_dots

/-- A name leads down to a node, unless it is that of a link. -/
theorem Leads.eq_child_or_linkAt {name : String} {links : Nat} (hdot : name ≠ ".")
    (hdots : name ≠ "..") (h : Leads world place [name] links final) :
    final = place.child name ∨ ∃ target, LinkAt world place name target := by
  refine h.step_or_linkAt.imp_left fun hstep => ?_
  rcases hstep.eq with ⟨rfl, -⟩ | ⟨rfl, -⟩ | ⟨-, -, rfl⟩
  · exact absurd rfl hdot
  · exact absurd rfl hdots
  · rfl

/-- Without the last one, which is not that of a link, names lead to the
directory above. -/
theorem leads_dropLast {names : List String} {links : Nat}
    (h : Leads world .root names links place) (hlimit : links ≤ linkLimit)
    (hnames : ∀ name ∈ names, name ≠ "." ∧ name ≠ "..") (hlink : world.isLinkAt names = false) :
    ∃ fewer ≤ links, Leads world .root names.dropLast fewer place.parent := by
  rcases List.eq_nil_or_concat names with rfl | ⟨above, name, rfl⟩
  · cases h
    exact ⟨0, Nat.le_refl 0, .arrived .root⟩
  · rw [List.concat_eq_append] at h hnames hlink ⊢
    obtain ⟨hdot, hdots⟩ := hnames name (by simp)
    obtain ⟨holder, first, second, hfirst, hsecond, hsum⟩ := h.of_append
    rcases hsecond.eq_child_or_linkAt hdot hdots with rfl | ⟨target, hname⟩
    · rw [Place.parent_child, List.dropLast_concat]
      exact ⟨first, by omega, hfirst⟩
    · rw [isLinkAt_of_leads hfirst (by omega) hname] at hlink
      cases hlink

/-- Two dots never take the name of a link away when the components are
normalised. -/
def ClearOfLinks (world : World) (components : List String) : Prop :=
  ∀ before, before ++ [".."] <+: components → world.isLinkAt (Path.normalForm before) = false

instance (world : World) (components : List String) : Decidable (world.ClearOfLinks components) :=
  decidable_of_iff
    (∀ before ∈ components.inits,
      before ++ [".."] <+: components → world.isLinkAt (Path.normalForm before) = false)
    ⟨fun h before hbefore =>
      h before ((List.mem_inits _ _).mpr ((List.prefix_append before _).trans hbefore)) hbefore,
     fun h before _ hbefore => h before hbefore⟩

/-- **A path may be normalised** where two dots never take the name of a link
away: what is left of its components leads where they do, and follows no more
links. -/
theorem leads_normalForm {components : List String} {links : Nat}
    (h : Leads world .root components links final) (hlimit : links ≤ linkLimit)
    (hlinks : world.ClearOfLinks components) :
    ∃ fewer ≤ links, Leads world .root (Path.normalForm components) fewer final := by
  induction components using List.reverseRecOn generalizing links final with
  | nil => exact ⟨links, Nat.le_refl links, h⟩
  | append_singleton components component ih =>
    obtain ⟨middle, first, second, hfirst, hsecond, hsum⟩ := h.of_append
    have hearlier : world.ClearOfLinks components := fun before hbefore =>
      hlinks before (hbefore.trans (List.prefix_append components [component]))
    obtain ⟨fewer, hfewer, hnormal⟩ := ih hfirst (by omega) hearlier
    by_cases hdot : component = "."
    · subst hdot
      rw [Path.normalForm_dot, hsecond.eq_of_dot]
      exact ⟨fewer, by omega, hnormal⟩
    by_cases hdots : component = ".."
    · subst hdots
      rw [Path.normalForm_dots, hsecond.eq_parent_of_dots]
      obtain ⟨above, habove, hparent⟩ := leads_dropLast hnormal (by omega)
        (fun name hname => (Path.mem_normalForm hname).2) (hlinks components (List.prefix_refl _))
      exact ⟨above, by omega, hparent⟩
    · rw [Path.normalForm_name components hdot hdots]
      exact ⟨fewer + second, by omega, hnormal.append hsecond⟩

/-! ## §3 Paths as texts -/

/-- What a path leads to, its components lead to. -/
theorem leads_of_resolve {path : String} (h : world.resolve true path = .ok final) :
    '\x00' ∉ path.toList ∧ ∃ links ≤ linkLimit,
      Leads world (startOf world.workingDirectory path) (Path.components path) links final := by
  unfold resolve at h
  split at h
  · cases h
  · next hnul =>
    split at h
    · cases h
    · refine ⟨by simpa using hnul, ?_⟩
      cases hwalk : world.walk true (Path.endsInSlash path)
          (startOf world.workingDirectory path) (Path.components path) linkLimit with
      | error errno => simp [hwalk, Except.mapError] at h
      | ok place =>
        obtain rfl : place = final := by simpa [hwalk, Except.mapError] using h
        exact leads_of_walk hwalk

/-- An absolute path leads to the directory that its components lead to from
the root. -/
theorem resolve_of_leads {path : String} {links : Nat} (habsolute : Path.isAbsolute path = true)
    (hnul : '\x00' ∉ path.toList) (h : Leads world .root (Path.components path) links final)
    (hlimit : links ≤ linkLimit)
    (hdirectory : (world.node? final).any Node.isDirectory = true) :
    world.resolve true path = .ok final := by
  have hstart : startOf world.workingDirectory path = .root := by simp [startOf, habsolute]
  unfold resolve
  rw [if_neg (by simpa using hnul), if_neg (Path.ne_empty_of_isAbsolute habsolute), hstart,
    walk_of_leads h hdirectory hlimit]
  rfl

/-- The path of a directory leads to it. -/
theorem resolve_absolute (hopen : world.root.Open) {names : List String} {searchable : Bool}
    {entries : Bindings Node} (h : world.root.at? names = some (.directory searchable entries)) :
    world.resolve true (Path.absolute names) = .ok (.inTree names) := by
  have hleads : Leads world .root (Path.components (Path.absolute names)) 0 (.inTree names) := by
    rw [hopen.components_absolute h]
    exact leads_names hopen h
  refine resolve_of_leads (Path.isAbsolute_absolute names)
    (Path.nul_not_mem_absolute (hopen.named names _ h)) hleads (Nat.zero_le _) ?_
  simp [World.node?, Place.node?, h, Node.isDirectory]

/-- A path that is seen from the working directory leads, seen from the root,
to the same place. -/
theorem leads_join (hopen : world.root.Open) {names : List String} (hplace : world.InPlace names)
    {path : String} (h : world.resolve true path = .ok final) :
    ∃ links ≤ linkLimit, Leads world .root
      (Path.components (Path.join (Path.absolute names) path)) links final := by
  obtain ⟨hworking, searchable, entries, hnode⟩ := hplace
  obtain ⟨-, links, hlimit, hleads⟩ := leads_of_resolve h
  refine ⟨links, hlimit, ?_⟩
  cases habsolute : Path.isAbsolute path with
  | true =>
    rw [Path.join_of_isAbsolute habsolute]
    simpa [startOf, habsolute] using hleads
  | false =>
    have hjoined := (leads_names hopen hnode).append
      (by simpa [startOf, habsolute, hworking] using hleads)
    rw [Path.components_join habsolute, hopen.components_absolute hnode]
    rwa [Nat.zero_add] at hjoined

theorem changeDirectory_eq_ok_iff {path : String} {after : World} :
    world.changeDirectory path = .ok after ↔
      ∃ place entries, world.resolve true path = .ok place ∧
        world.node? place = some (.directory true entries) ∧
        after = { world with workingDirectory := place } := by
  constructor
  · intro h
    unfold changeDirectory at h
    split at h
    · cases h
    · next place hresolve =>
      split at h
      · next entries hnode =>
        cases h
        exact ⟨place, entries, hresolve, hnode, rfl⟩
      · cases h
      · cases h
  · rintro ⟨place, entries, hresolve, hnode, rfl⟩
    simp [changeDirectory, hresolve, hnode]

/-- Changes of the directory lead from the one world to the other. -/
def Moves : World → World → Prop :=
  Relation.ReflTransGen fun before after => ∃ path, before.changeDirectory path = .ok after

end World

end CommandShell
