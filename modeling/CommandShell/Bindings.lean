/-
CommandShell.Bindings — a finite map that remembers the order of its keys.

A key keeps the position it was first given; giving it a value again changes
the value alone. `find?_insert` and `find?_erase` say what each operation
does to look-ups, `keys_insert` and `keys_erase` what it does to the order.
-/

namespace CommandShell

/-- Keys with their values, in order of first insertion. -/
abbrev Bindings (α : Type) := List (String × α)

namespace Bindings

variable {α : Type}

/-- The value of a key. -/
def find? : Bindings α → String → Option α
  | [], _ => none
  | (key, value) :: rest, k => if key = k then some value else find? rest k

/-- Gives a key a value: in place if the key is there, else at the end. -/
def insert : Bindings α → String → α → Bindings α
  | [], k, v => [(k, v)]
  | (key, value) :: rest, k, v =>
    if key = k then (key, v) :: rest else (key, value) :: insert rest k v

/-- Takes a key and its value out. -/
def erase (entries : Bindings α) (k : String) : Bindings α :=
  entries.filter fun entry => entry.1 != k

/-- The keys in order. -/
def keys (entries : Bindings α) : List String :=
  entries.map (·.1)

/-- Whether a key has a value. -/
def contains (entries : Bindings α) (k : String) : Bool :=
  (entries.find? k).isSome

/-- Inserts pairs from left to right: of two with one key the later value
stands at the earlier place. -/
def ofPairs (pairs : List (String × α)) : Bindings α :=
  pairs.foldl (fun entries pair => insert entries pair.1 pair.2) []

/-! ## Look-up after each operation -/

@[simp] theorem find?_nil (k : String) : find? ([] : Bindings α) k = none := rfl

theorem find?_insert (entries : Bindings α) (k k' : String) (v : α) :
    find? (insert entries k v) k' = if k = k' then some v else find? entries k' := by
  induction entries with
  | nil => simp [insert, find?]
  | cons entry rest ih =>
    obtain ⟨key, value⟩ := entry
    by_cases h : key = k
    · subst h
      by_cases h' : key = k' <;> simp [insert, find?, h']
    · by_cases h' : key = k'
      · subst h'
        simp [insert, find?, h, Ne.symm h]
      · simp [insert, find?, h, h', ih]

theorem find?_erase (entries : Bindings α) (k k' : String) :
    find? (erase entries k) k' = if k = k' then none else find? entries k' := by
  induction entries with
  | nil => simp [erase, find?]
  | cons entry rest ih =>
    obtain ⟨key, value⟩ := entry
    by_cases h : key = k
    · subst h
      have hd : erase ((key, value) :: rest) key = erase rest key := by simp [erase]
      rw [hd, ih]
      by_cases h' : key = k' <;> simp [find?, h']
    · have hk : erase ((key, value) :: rest) k = (key, value) :: erase rest k := by
        simp [erase, h]
      rw [hk, find?, find?, ih]
      by_cases h' : key = k'
      · subst h'
        simp [Ne.symm h]
      · simp [h']

/-! ## The order of the keys -/

theorem mem_keys_iff (entries : Bindings α) (k : String) :
    k ∈ keys entries ↔ contains entries k = true := by
  induction entries with
  | nil => simp [keys, contains]
  | cons entry rest ih =>
    obtain ⟨key, value⟩ := entry
    simp only [keys, contains] at ih ⊢
    by_cases h : key = k
    · simp [find?, h]
    · simp [find?, h, Ne.symm h, ih]

theorem keys_insert (entries : Bindings α) (k : String) (v : α) :
    keys (insert entries k v) =
      if contains entries k then keys entries else keys entries ++ [k] := by
  induction entries with
  | nil => simp [insert, keys, contains]
  | cons entry rest ih =>
    obtain ⟨key, value⟩ := entry
    by_cases h : key = k
    · simp [insert, keys, contains, find?, h]
    · have hc : contains ((key, value) :: rest) k = contains rest k := by
        simp [contains, find?, h]
      have hi : keys (insert ((key, value) :: rest) k v) = key :: keys (insert rest k v) := by
        simp [insert, keys, h]
      rw [hi, ih, hc]
      split <;> simp [keys]

theorem keys_erase (entries : Bindings α) (k : String) :
    keys (erase entries k) = (keys entries).filter (· != k) := by
  simp [keys, erase, List.filter_map, Function.comp_def]

end Bindings

end CommandShell
