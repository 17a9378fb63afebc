/-
CommandShell.Proofs.Alias.Table — a table that defines aliases.

`GrownBy` compares two tables of which one came from the other by definitions:
no alias has gone or changed its place, and only those of the names defined
have new values.
-/
import CommandShell.Alias.Table

namespace CommandShell.AliasTable

theorem find?_define (table : AliasTable) (name value other : String) :
    (table.define name value).find? other =
      if name = other then some value else table.find? other :=
  Bindings.find?_insert table.entries name other value

/-- All aliases of the table before are there in their order, any new ones come
after them, and those of names that are not defined have their values. -/
structure GrownBy (defined : String → Prop) (before after : AliasTable) : Prop where
  names : ∃ added, (∀ name ∈ added, defined name) ∧
    after.entries.keys = before.entries.keys ++ added
  others : ∀ name, ¬ defined name → after.find? name = before.find? name

namespace GrownBy

variable {defined : String → Prop}

theorem refl (table : AliasTable) : GrownBy defined table table where
  names := ⟨[], by simp, by simp⟩
  others _ _ := rfl

theorem trans {first second third : AliasTable} (h : GrownBy defined first second)
    (h' : GrownBy defined second third) : GrownBy defined first third := by
  obtain ⟨added, hadded, hsecond⟩ := h.names
  obtain ⟨more, hmore, hthird⟩ := h'.names
  refine ⟨⟨added ++ more, ?_, ?_⟩, fun name hname => ?_⟩
  · intro name hname
    exact (List.mem_append.mp hname).elim (hadded name) (hmore name)
  · rw [hthird, hsecond, List.append_assoc]
  · rw [h'.others name hname, h.others name hname]

theorem define (table : AliasTable) {name : String} (h : defined name) (value : String) :
    GrownBy defined table (table.define name value) where
  names := by
    refine ⟨if table.entries.contains name then [] else [name], ?_, ?_⟩
    · split <;> simp [h]
    · rw [AliasTable.define, Bindings.keys_insert]
      split <;> simp
  others other hother := by
    have hne : name ≠ other := fun heq => hother (heq ▸ h)
    rw [find?_define, if_neg hne]

end GrownBy

end CommandShell.AliasTable
