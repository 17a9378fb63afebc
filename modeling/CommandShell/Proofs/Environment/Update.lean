/-
CommandShell.Proofs.Environment.Update — what setting and unsetting a variable
leaves alone.

`SameBut` compares two environments without regard to some names: all other
variables have their values and their order. A change is refused exactly for a
name that is not valid or a value that holds NUL (`set?_eq_some_iff`), and one
that is not refused touches its own name alone (`SameBut.of_set?`,
`SameBut.of_unset?`).
-/
import CommandShell.Environment

namespace CommandShell

/-- A new value does not touch the entries of other keys. -/
theorem Bindings.filter_insert {α : Type} (entries : Bindings α) {key : String} (value : α)
    {keep : String → Bool} (h : keep key = false) :
    (entries.insert key value).filter (fun entry => keep entry.1) =
      entries.filter fun entry => keep entry.1 := by
  induction entries with
  | nil => simp [insert, h]
  | cons entry rest ih =>
    obtain ⟨other, old⟩ := entry
    by_cases hkey : other = key
    · subst hkey
      simp [insert, h]
    · simp [insert, hkey, List.filter_cons, ih]

namespace Environment

variable {env after : Environment} {name value : String}

theorem set?_eq_some_iff :
    env.set? name value = some after ↔
      isValidName name = true ∧ '\x00' ∉ value.toList ∧
        after = ⟨env.entries.insert name value⟩ := by
  have hvalid : (isValidName name && !value.toList.contains '\x00') = true ↔
      isValidName name = true ∧ '\x00' ∉ value.toList := by
    simp
  unfold set?
  constructor
  · intro h
    split at h
    · next hset =>
      cases h
      exact ⟨(hvalid.mp hset).1, (hvalid.mp hset).2, rfl⟩
    · cases h
  · rintro ⟨hname, hvalue, rfl⟩
    exact if_pos (hvalid.mpr ⟨hname, hvalue⟩)

theorem exists_set? (env : Environment) (hname : isValidName name = true)
    (hvalue : '\x00' ∉ value.toList) : ∃ after, env.set? name value = some after :=
  ⟨_, set?_eq_some_iff.mpr ⟨hname, hvalue, rfl⟩⟩

theorem get?_of_set? (h : env.set? name value = some after) (other : String) :
    after.get? other = if name = other then some value else env.get? other := by
  obtain ⟨-, -, rfl⟩ := set?_eq_some_iff.mp h
  exact Bindings.find?_insert env.entries name other value

theorem names_of_set? (h : env.set? name value = some after) :
    after.names = if env.contains name then env.names else env.names ++ [name] := by
  obtain ⟨-, -, rfl⟩ := set?_eq_some_iff.mp h
  exact Bindings.keys_insert env.entries name value

/-! ## What is left alone -/

/-- All variables but those of some names are the same, in value and in order. -/
def SameBut (touched : List String) (before after : Environment) : Prop :=
  after.entries.filter (fun entry => entry.1 ∉ touched) =
    before.entries.filter fun entry => entry.1 ∉ touched

theorem SameBut.refl (touched : List String) (env : Environment) : SameBut touched env env := rfl

theorem SameBut.trans {touched : List String} {first second third : Environment}
    (h : SameBut touched first second) (h' : SameBut touched second third) :
    SameBut touched first third :=
  Eq.trans h' h

theorem SameBut.of_set? {touched : List String} (h : env.set? name value = some after)
    (hname : name ∈ touched) : SameBut touched env after := by
  obtain ⟨-, -, rfl⟩ := set?_eq_some_iff.mp h
  exact @Bindings.filter_insert String env.entries name value (fun other => other ∉ touched)
    (by simpa using hname)

theorem SameBut.of_unset? {touched : List String} {wasSet : Bool}
    (h : env.unset? name = some (after, wasSet)) (hname : name ∈ touched) :
    SameBut touched env after := by
  unfold unset? at h
  split at h
  · cases h
    rw [SameBut, Bindings.erase, List.filter_filter]
    refine List.filter_congr fun entry _ => ?_
    by_cases hentry : entry.1 ∈ touched
    · simp [hentry]
    · have hne : entry.1 ≠ name := fun heq => hentry (heq ▸ hname)
      simp [hentry, hne]
  · cases h

theorem names_of_unset? {wasSet : Bool} (h : env.unset? name = some (after, wasSet)) :
    after.names = env.names.filter (· != name) := by
  unfold unset? at h
  split at h
  · cases h
    exact Bindings.keys_erase env.entries name
  · cases h

/-! ## One variable -/

/-- A variable has got a value, at its place if it was set and at the end if it
was not, and nothing else has changed. -/
structure Assigned (name value : String) (before after : Environment) : Prop where
  value : after.get? name = some value
  names : after.names = if before.contains name then before.names else before.names ++ [name]
  others : SameBut [name] before after

/-- A variable is gone, if it was set, and nothing else has changed. -/
structure Dropped (name : String) (before after : Environment) : Prop where
  names : after.names = before.names.filter (· != name)
  others : SameBut [name] before after

theorem Assigned.of_set? (h : env.set? name value = some after) : Assigned name value env after where
  value := by rw [get?_of_set? h, if_pos rfl]
  names := names_of_set? h
  others := .of_set? h List.mem_cons_self

theorem Dropped.of_unset? {wasSet : Bool} (h : env.unset? name = some (after, wasSet)) :
    Dropped name env after where
  names := names_of_unset? h
  others := .of_unset? h List.mem_cons_self

end Environment

end CommandShell
