/-
CommandShell.Proofs.SearchPath.Memory — what a search path remembers is not
seen in its answers.

A search path keeps the directories of the last value of PATH that it took
apart. §1 says on its own terms what the answers ought to be: `Lists` relates
a value of PATH to its directories, and `Located` a command to the place where
it is found, each without a memory and without a search. §2 shows that a
search path answers so from a memory that is `Faithful`, and that every answer
leaves such a memory. §3 lets any number of things happen to a search path and
to what it goes by, and `answers_iff_truthful` says that what it answers on the
way is what it ought to be.
-/
import CommandShell.Proofs.Text.Fields
import CommandShell.SearchPath

namespace CommandShell

/-! ## §1 What the answers ought to be -/

namespace SearchPath

/-- The directories that a value of PATH lists: what stands between its colons,
in order, with a single dot in the place of nothing. Where there is no value, or
an empty one, it is the single dot alone. -/
inductive Lists : Option String → List String → Prop
  | unset : Lists none ["."]
  | empty : Lists (some "") ["."]
  | components {value : String} {parts : List String} (hne : value ≠ "")
      (hvalue : value = Text.joinWith ':' parts) (hparts : ∀ part ∈ parts, ':' ∉ part.toList) :
      Lists (some value) (parts.map fun part => if part = "" then "." else part)

/-- A path leads to a regular file that may be executed. -/
def Qualifies (world : World) (path : String) : Prop :=
  ∃ file, world.lookup path = .ok (.file file) ∧ file.executable = true

/-- Where a command is to be found, given the value of PATH. A command with a
slash is where it says, if anything is there, be it a link that leads nowhere.
Any other one is in the first directory in which it qualifies. -/
inductive Located (source : Option String) (world : World) : String → Option String → Prop
  | nameless : Located source world "" none
  | present {command : String} {place : Place} (hslash : '/' ∈ command.toList)
      (hplace : world.resolve false command = .ok place) :
      Located source world command (some command)
  | absent {command : String} {error : PathError} (hslash : '/' ∈ command.toList)
      (herror : world.resolve false command = .error error) : Located source world command none
  | found {command directory : String} {before after : List String} (hne : command ≠ "")
      (hslash : '/' ∉ command.toList) (hlists : Lists source (before ++ directory :: after))
      (hbefore : ∀ earlier ∈ before, ¬ Qualifies world (Path.join earlier command))
      (hqualifies : Qualifies world (Path.join directory command)) :
      Located source world command (some (Path.join directory command))
  | nowhere {command : String} {directories : List String} (hne : command ≠ "")
      (hslash : '/' ∉ command.toList) (hlists : Lists source directories)
      (hnone : ∀ directory ∈ directories, ¬ Qualifies world (Path.join directory command)) :
      Located source world command none

/-! ## §2 One answer -/

theorem searchDirectories_of_ne_empty {value : String} (h : value ≠ "") :
    searchDirectories (some value) =
      (Text.fields ':' value.toList).map fun field =>
        if field = [] then "." else String.ofList field :=
  if_neg h

/-- Taking a value of PATH apart gives the directories it lists, and no others
are listed. -/
theorem lists_iff {source : Option String} {directories : List String} :
    Lists source directories ↔ directories = searchDirectories source := by
  constructor
  · intro h
    cases h with
    | unset => rfl
    | empty => rfl
    | @components value parts hne hvalue hparts =>
      have hsome : parts.map String.toList ≠ [] := by
        intro hnil
        rw [Text.joinWith, hnil] at hvalue
        exact hne hvalue
      have hfields : Text.fields ':' value.toList = parts.map String.toList := by
        rw [hvalue, Text.joinWith, String.toList_ofList]
        exact Text.fields_intercalate hsome (by simpa using hparts)
      rw [searchDirectories_of_ne_empty hne, hfields, List.map_map]
      refine List.map_congr_left fun part _ => ?_
      simp
  · rintro rfl
    cases source with
    | none => exact .unset
    | some value =>
      by_cases hne : value = ""
      · subst hne
        exact .empty
      · have hvalue : value =
            Text.joinWith ':' ((Text.fields ':' value.toList).map String.ofList) := by
          simp [Text.joinWith, Function.comp_def, Text.intercalate_fields]
        have hparts : ∀ part ∈ (Text.fields ':' value.toList).map String.ofList,
            ':' ∉ part.toList := by
          intro part hpart hcolon
          obtain ⟨field, hfield, rfl⟩ := List.mem_map.mp hpart
          exact (Text.mem_fields hfield ':' (by simpa using hcolon)).2 rfl
        have h := Lists.components hne hvalue hparts
        rw [List.map_map] at h
        rw [searchDirectories_of_ne_empty hne]
        simpa [Function.comp_def] using h

theorem qualifies_iff (world : World) (path : String) :
    Qualifies world path ↔ world.isExecutableFile path = true := by
  unfold Qualifies World.isExecutableFile
  cases world.lookup path with
  | error error => simp
  | ok node => cases node <;> simp [Node.isFile, Node.isExecutable]

theorem search_eq_some_iff {world : World} {command location : String} {directories : List String} :
    search world command directories = some location ↔
      ∃ before directory after, directories = before ++ directory :: after ∧
        location = Path.join directory command ∧
        Qualifies world (Path.join directory command) ∧
        ∀ earlier ∈ before, ¬ Qualifies world (Path.join earlier command) := by
  simp only [search, List.find?_map, Option.map_eq_some_iff, List.find?_eq_some_iff_append,
    Function.comp_apply, qualifies_iff]
  constructor
  · rintro ⟨directory, ⟨hqualifies, before, after, rfl, hbefore⟩, rfl⟩
    exact ⟨before, directory, after, rfl, rfl, hqualifies, by simpa using hbefore⟩
  · rintro ⟨before, directory, after, rfl, rfl, hqualifies, hbefore⟩
    exact ⟨directory, ⟨hqualifies, before, after, rfl, by simpa using hbefore⟩, rfl⟩

theorem search_eq_none_iff {world : World} {command : String} {directories : List String} :
    search world command directories = none ↔
      ∀ directory ∈ directories, ¬ Qualifies world (Path.join directory command) := by
  simp [search, qualifies_iff]

/-- Where a command is found without a memory. -/
def locate (source : Option String) (world : World) (command : String) : Option String :=
  if command = "" then none
  else if command.toList.contains '/' then
    if world.entryExists command then some command else none
  else search world command (searchDirectories source)

theorem located_iff {source : Option String} {world : World} {command : String}
    {location : Option String} :
    Located source world command location ↔ location = locate source world command := by
  have hslash_ne : '/' ∈ command.toList → command ≠ "" := by
    rintro hslash rfl
    simp at hslash
  constructor
  · intro h
    cases h with
    | nameless => rfl
    | present hslash hplace =>
      simp [locate, hslash_ne hslash, hslash, World.entryExists, hplace]
    | absent hslash herror =>
      simp [locate, hslash_ne hslash, hslash, World.entryExists, herror]
    | @found _ directory before after hne hslash hlists hbefore hqualifies =>
      have hfound : search world command (searchDirectories source) =
          some (Path.join directory command) :=
        search_eq_some_iff.mpr
          ⟨before, directory, after, (lists_iff.mp hlists).symm, rfl, hqualifies, hbefore⟩
      simp [locate, hne, hslash, hfound]
    | nowhere hne hslash hlists hnone =>
      have hnowhere : search world command (searchDirectories source) = none :=
        search_eq_none_iff.mpr (lists_iff.mp hlists ▸ hnone)
      simp [locate, hne, hslash, hnowhere]
  · rintro rfl
    unfold locate
    split
    · next hnil =>
      subst hnil
      exact .nameless
    · next hne =>
      split
      · next hslash =>
        have hslash : '/' ∈ command.toList := by simpa using hslash
        unfold World.entryExists
        cases hresolve : world.resolve false command with
        | ok place => exact .present hslash hresolve
        | error error => exact .absent hslash hresolve
      · next hslash =>
        have hslash : '/' ∉ command.toList := by simpa using hslash
        have hlists : Lists source (searchDirectories source) := lists_iff.mpr rfl
        cases hsearch : search world command (searchDirectories source) with
        | none => exact .nowhere hne hslash hlists (search_eq_none_iff.mp hsearch)
        | some location =>
          obtain ⟨before, directory, after, hsplit, rfl, hqualifies, hbefore⟩ :=
            search_eq_some_iff.mp hsearch
          exact .found hne hslash (hsplit ▸ hlists) hbefore hqualifies

/-- The directories that are kept are those of the value that is kept. -/
def Faithful (path : SearchPath) : Prop :=
  ∀ built, path.built = some built → built = build built.source

theorem faithful_new : Faithful {} := by
  rintro built ⟨⟩

theorem faithful_build (source : Option String) : Faithful ⟨some (build source)⟩ := by
  rintro built ⟨⟩
  rfl

/-- Kept or taken apart anew, the directories are those of the present value. -/
theorem refresh_eq {path : SearchPath} (h : path.Faithful) (env : Environment) :
    (path.refresh env).1 = build (env.get? "PATH") := by
  unfold refresh
  dsimp only
  split
  · rfl
  · next built hbuilt =>
    split
    · next hsource => rw [h built hbuilt, hsource]
    · rfl

/-- A faithful memory makes no difference to where a command is found. -/
theorem location_resolve {path : SearchPath} (h : path.Faithful) (env : Environment)
    (world : World) (command : String) :
    (path.resolve env world command).location = locate (env.get? "PATH") world command := by
  have hrefresh := refresh_eq h env
  unfold resolve locate
  split
  · rfl
  · split
    · rfl
    · dsimp only
      rw [hrefresh]
      split
      · next location hsearch => exact hsearch.symm
      · next hsearch => exact hsearch.symm

theorem faithful_resolve {path : SearchPath} (h : path.Faithful) (env : Environment)
    (world : World) (command : String) : (path.resolve env world command).searchPath.Faithful := by
  have hrefresh := refresh_eq h env
  unfold resolve
  split
  · exact h
  · split
    · exact h
    · dsimp only
      split
      · rw [hrefresh]
        exact faithful_build _
      · rw [hrefresh]
        exact faithful_build _

/-! ## §3 Any number of answers -/

/-- What a search path goes by. -/
structure Surroundings where
  environment : Environment
  world : World

/-- One thing that happens: a change of what the search path goes by, or a
question to it. -/
inductive Request
  | set (name value : String)
  | unset (name : String)
  | changeDirectory (path : String)
  /-- The file tree becomes another one, in whatever way. -/
  | world (world : World)
  | directories
  | resolve (command : String)

inductive Answer
  | directories (directories : List String)
  | location (location : Option String)
  deriving Repr, DecidableEq

/-- Whether something is asked. -/
def Request.asks : Request → Bool
  | .directories | .resolve _ => true
  | _ => false

/-- What a request leaves of the surroundings. A change that is refused changes
nothing. -/
def Surroundings.after (around : Surroundings) : Request → Surroundings
  | .set name value =>
    match around.environment.set? name value with
    | some environment => { around with environment }
    | none => around
  | .unset name =>
    match around.environment.unset? name with
    | some (environment, _) => { around with environment }
    | none => around
  | .changeDirectory path =>
    match around.world.changeDirectory path with
    | .ok world => { around with world }
    | .error _ => around
  | .world world => { around with world }
  | .directories | .resolve _ => around

/-- The answers to the questions among some requests. -/
def answers (path : SearchPath) (around : Surroundings) : List Request → List Answer
  | [] => []
  | .directories :: rest =>
    let (built, _) := path.refresh around.environment
    .directories built.directories :: answers ⟨some built⟩ around rest
  | .resolve command :: rest =>
    let found := path.resolve around.environment around.world command
    .location found.location :: answers found.searchPath around rest
  | request :: rest => answers path (around.after request) rest

/-- Answers as they ought to be: each by the surroundings of its own time. -/
inductive Truthful : Surroundings → List Request → List Answer → Prop
  | nil (around : Surroundings) : Truthful around [] []
  | directories {around : Surroundings} {rest : List Request} {given : List Answer}
      {directories : List String} (hlists : Lists (around.environment.get? "PATH") directories)
      (hrest : Truthful around rest given) :
      Truthful around (.directories :: rest) (.directories directories :: given)
  | resolve {around : Surroundings} {rest : List Request} {given : List Answer} {command : String}
      {location : Option String}
      (hlocated : Located (around.environment.get? "PATH") around.world command location)
      (hrest : Truthful around rest given) :
      Truthful around (.resolve command :: rest) (.location location :: given)
  | change {around : Surroundings} {request : Request} {rest : List Request} {given : List Answer}
      (hasks : request.asks = false) (hrest : Truthful (around.after request) rest given) :
      Truthful around (request :: rest) given

theorem answers_of_change {request : Request} (h : request.asks = false) (path : SearchPath)
    (around : Surroundings) (rest : List Request) :
    answers path around (request :: rest) = answers path (around.after request) rest := by
  cases request with
  | directories => cases h
  | resolve command => cases h
  | _ => rfl

/-- From a faithful memory all answers are as they ought to be. -/
theorem truthful_answers {path : SearchPath} (h : path.Faithful) (around : Surroundings)
    (requests : List Request) : Truthful around requests (path.answers around requests) := by
  induction requests generalizing path around with
  | nil => exact .nil around
  | cons request rest ih =>
    cases hasks : request.asks with
    | false =>
      rw [answers_of_change hasks]
      exact .change hasks (ih h (around.after request))
    | true =>
      cases request with
      | directories =>
        have hbuilt := refresh_eq h around.environment
        simp only [answers, hbuilt]
        exact .directories (lists_iff.mpr rfl) (ih (faithful_build _) around)
      | resolve command =>
        refine .resolve (located_iff.mpr ?_) (ih (faithful_resolve h _ _ _) around)
        exact location_resolve h around.environment around.world command
      | _ => cases hasks

/-- There is only one way to answer as one ought to. -/
theorem Truthful.unique {around : Surroundings} {requests : List Request}
    {given other : List Answer} (h : Truthful around requests given)
    (h' : Truthful around requests other) : given = other := by
  induction h generalizing other with
  | nil around =>
    cases h'
    rfl
  | directories hlists _ ih =>
    cases h' with
    | directories hlists' hrest' =>
      rw [lists_iff.mp hlists, lists_iff.mp hlists', ih hrest']
    | change hasks => cases hasks
  | resolve hlocated _ ih =>
    cases h' with
    | resolve hlocated' hrest' =>
      rw [located_iff.mp hlocated, located_iff.mp hlocated', ih hrest']
    | change hasks => cases hasks
  | change hasks _ ih =>
    cases h' with
    | directories => cases hasks
    | resolve => cases hasks
    | change _ hrest' => exact ih hrest'

/-- **What a search path remembers is not seen in its answers.** Let anything
happen to a new search path, in any order: variables are set and unset, PATH or
others, the directory and the tree are changed, the directories are asked for,
commands are looked for. Then its answers are exactly those that go by the
value of PATH, the working directory and the tree as they are at the time of
each question. -/
theorem answers_iff_truthful (environment : Environment) (world : World)
    (requests : List Request) (given : List Answer) :
    answers {} ⟨environment, world⟩ requests = given ↔
      Truthful ⟨environment, world⟩ requests given := by
  have htruthful := truthful_answers faithful_new ⟨environment, world⟩ requests
  constructor
  · rintro rfl
    exact htruthful
  · exact htruthful.unique

/-- The directories of two values, and of none, in a directory that changes. -/
example :
    answers {}
      ⟨.ofPairs [("PATH", "/a")],
        { root := .directory true
            [("c", .directory true [("x", .file { executable := true })])] }⟩
      [.resolve "x", .set "PATH" "/c::", .directories, .resolve "x", .changeDirectory "/c",
        .unset "PATH", .resolve "x"] =
      [.location none, .directories ["/c", ".", "."], .location (some "/c/x"),
        .location (some "./x")] := by
  decide +kernel

end SearchPath

end CommandShell
