/-
CommandShell.Proofs.Bindings.Order — where an operation changes a map.

Where a key has a value, the entries are those before it, its own, and those
after it; where it has none, they are all of other keys. Each operation is
written out for the two cases: `insert_append_cons` and `insert_of_not_mem`,
`erase_append_cons` and `erase_of_not_mem`, `find?_append_cons` and
`find?_eq_none_iff`. No operation gives a key a second entry
(`keys_nodup_insert`, `keys_nodup_erase`), and pairs whose keys differ are a map
as they stand (`ofPairs_of_nodup`). Of many pairs that are inserted the first one
of a key decides where it stands (`keys_foldl_insert`) and the last one which
value it has (`find?_foldl_insert`).
-/
import CommandShell.Bindings

namespace CommandShell.Bindings

variable {α : Type} {entries before after : Bindings α} {key : String} {value old : α}

theorem not_mem_keys_cons {entry : String × α} :
    key ∉ keys (entry :: entries) ↔ entry.1 ≠ key ∧ key ∉ keys entries := by
  simp [keys, ne_comm]

theorem keys_append (before after : Bindings α) :
    keys (before ++ after) = keys before ++ keys after :=
  List.map_append

/-! ## Where a key stands -/

/-- The entry of a key is the first one of its key. -/
theorem find?_eq_some_iff :
    entries.find? key = some value ↔
      ∃ before after, entries = before ++ (key, value) :: after ∧ key ∉ keys before := by
  induction entries with
  | nil => simp
  | cons entry rest ih =>
    obtain ⟨other, held⟩ := entry
    by_cases hkey : other = key
    · subst hkey
      rw [find?, if_pos rfl]
      constructor
      · rintro ⟨⟩
        exact ⟨[], rest, rfl, by simp [keys]⟩
      · rintro ⟨before, after, hentries, hbefore⟩
        cases before with
        | nil => cases hentries; rfl
        | cons first before =>
          obtain ⟨rfl, -⟩ := List.cons.inj hentries
          exact absurd rfl (not_mem_keys_cons.mp hbefore).1
    · rw [find?, if_neg hkey, ih]
      constructor
      · rintro ⟨before, after, rfl, hbefore⟩
        exact ⟨(other, held) :: before, after, rfl, not_mem_keys_cons.mpr ⟨hkey, hbefore⟩⟩
      · rintro ⟨before, after, hentries, hbefore⟩
        cases before with
        | nil => cases hentries; exact absurd rfl hkey
        | cons first before =>
          obtain ⟨-, rfl⟩ := List.cons.inj hentries
          exact ⟨before, after, rfl, (not_mem_keys_cons.mp hbefore).2⟩

theorem find?_append_cons (h : key ∉ keys before) (value : α) (after : Bindings α) :
    (before ++ (key, value) :: after).find? key = some value :=
  find?_eq_some_iff.mpr ⟨before, after, rfl, h⟩

theorem mem_of_find? (h : entries.find? key = some value) : (key, value) ∈ entries := by
  obtain ⟨before, after, rfl, -⟩ := find?_eq_some_iff.mp h
  exact List.mem_append_right before List.mem_cons_self

theorem find?_eq_none_iff : entries.find? key = none ↔ key ∉ keys entries := by
  rw [mem_keys_iff, contains]
  cases entries.find? key <;> simp

/-- A key with one entry has none on either side of it. -/
theorem not_mem_keys_around (h : (keys (before ++ (key, value) :: after)).Nodup) :
    key ∉ keys before ∧ key ∉ keys after := by
  rw [keys_append] at h
  obtain ⟨-, hafter, hdisjoint⟩ := List.nodup_append.mp h
  refine ⟨fun hbefore => ?_, (List.nodup_cons.mp hafter).1⟩
  exact hdisjoint key hbefore key List.mem_cons_self rfl

/-! ## What each operation does there -/

/-- A key that has a value gets the new one in the place of the old. -/
theorem insert_append_cons (h : key ∉ keys before) (value : α) (after : Bindings α) :
    (before ++ (key, old) :: after).insert key value = before ++ (key, value) :: after := by
  induction before with
  | nil => simp [insert]
  | cons entry before ih =>
    obtain ⟨hentry, hbefore⟩ := not_mem_keys_cons.mp h
    simp [insert, hentry, ih hbefore]

/-- A key that has no value gets it at the end. -/
theorem insert_of_not_mem (h : key ∉ keys entries) (value : α) :
    entries.insert key value = entries ++ [(key, value)] := by
  induction entries with
  | nil => rfl
  | cons entry entries ih =>
    obtain ⟨hentry, hentries⟩ := not_mem_keys_cons.mp h
    simp [insert, hentry, ih hentries]

theorem erase_of_not_mem (h : key ∉ keys entries) : entries.erase key = entries := by
  refine List.filter_eq_self.mpr fun entry hentry => ?_
  have hne : entry.1 ≠ key := fun heq => h (heq ▸ List.mem_map_of_mem hentry)
  simpa using hne

theorem erase_append_cons (hbefore : key ∉ keys before) (hafter : key ∉ keys after) (old : α) :
    (before ++ (key, old) :: after).erase key = before ++ after := by
  have happend : (before ++ (key, old) :: after).erase key =
      before.erase key ++ after.erase key := by
    simp [erase, List.filter_append]
  rw [happend, erase_of_not_mem hbefore, erase_of_not_mem hafter]

theorem mem_insert {entry : String × α} (h : entry ∈ entries.insert key value) :
    entry = (key, value) ∨ entry ∈ entries := by
  cases hfind : entries.find? key with
  | some old =>
    obtain ⟨before, after, rfl, hbefore⟩ := find?_eq_some_iff.mp hfind
    rw [insert_append_cons hbefore] at h
    have hcases : entry ∈ before ∨ entry = (key, value) ∨ entry ∈ after := by simpa using h
    obtain hmem | heq | hmem := hcases
    · exact .inr (List.mem_append_left _ hmem)
    · exact .inl heq
    · exact .inr (List.mem_append_right _ (List.mem_cons_of_mem _ hmem))
  | none =>
    rw [insert_of_not_mem (find?_eq_none_iff.mp hfind)] at h
    have hcases : entry ∈ entries ∨ entry = (key, value) := by simpa using h
    exact hcases.symm

theorem mem_foldl_insert {pairs : List (String × α)} {entry : String × α}
    (h : entry ∈ pairs.foldl (fun held pair => insert held pair.1 pair.2) entries) :
    entry ∈ entries ∨ entry ∈ pairs := by
  induction pairs generalizing entries with
  | nil => exact .inl h
  | cons pair pairs ih =>
    rcases ih h with hmem | hmem
    · obtain rfl | hmem := mem_insert hmem
      · exact .inr List.mem_cons_self
      · exact .inl hmem
    · exact .inr (List.mem_cons_of_mem pair hmem)

/-- The entries of a map that pairs make are among the pairs. -/
theorem mem_of_mem_ofPairs {pairs : List (String × α)} {entry : String × α}
    (h : entry ∈ ofPairs pairs) : entry ∈ pairs :=
  (mem_foldl_insert h).resolve_left (by simp)

/-! ## One entry for each key -/

theorem keys_nodup_insert (h : (keys entries).Nodup) (key : String) (value : α) :
    (keys (entries.insert key value)).Nodup := by
  rw [keys_insert]
  split
  · exact h
  · next habsent =>
    have hkey : key ∉ keys entries := by rwa [mem_keys_iff]
    refine List.nodup_append.mpr ⟨h, by simp, ?_⟩
    rintro other hother added hadded rfl
    exact hkey (List.mem_singleton.mp hadded ▸ hother)

theorem keys_nodup_filter (h : (keys entries).Nodup) (keep : String × α → Bool) :
    (keys (entries.filter keep)).Nodup :=
  List.Nodup.sublist (List.Sublist.map Prod.fst List.filter_sublist) h

theorem keys_nodup_erase (h : (keys entries).Nodup) (key : String) :
    (keys (entries.erase key)).Nodup :=
  keys_nodup_filter h _

theorem keys_nodup_foldl_insert (pairs : List (String × α)) (h : (keys entries).Nodup) :
    (keys (pairs.foldl (fun held pair => insert held pair.1 pair.2) entries)).Nodup := by
  induction pairs generalizing entries with
  | nil => exact h
  | cons pair pairs ih => exact ih (keys_nodup_insert h pair.1 pair.2)

theorem keys_nodup_ofPairs (pairs : List (String × α)) : (keys (ofPairs pairs)).Nodup :=
  keys_nodup_foldl_insert pairs List.nodup_nil

theorem foldl_insert_of_nodup {pairs : List (String × α)} (h : (keys (entries ++ pairs)).Nodup) :
    pairs.foldl (fun held pair => insert held pair.1 pair.2) entries = entries ++ pairs := by
  induction pairs generalizing entries with
  | nil => simp
  | cons pair pairs ih =>
    have hinsert : entries.insert pair.1 pair.2 = entries ++ [pair] :=
      insert_of_not_mem (not_mem_keys_around h).1 pair.2
    rw [List.foldl_cons, hinsert, ih (by simpa using h)]
    simp

/-- Pairs whose keys differ are a map as they stand. -/
theorem ofPairs_of_nodup {pairs : List (String × α)} (h : (keys pairs).Nodup) :
    ofPairs pairs = pairs :=
  foldl_insert_of_nodup h

theorem find?_of_mem (h : (keys entries).Nodup) (hmem : (key, value) ∈ entries) :
    entries.find? key = some value := by
  obtain ⟨before, after, rfl⟩ := List.append_of_mem hmem
  exact find?_append_cons (not_mem_keys_around h).1 value after

/-! ## Many insertions -/

/-- The value of a key that stands last among some pairs. -/
def lastValue? (pairs : List (String × α)) (key : String) : Option α :=
  (pairs.reverse.find? fun pair => pair.1 = key).map (·.2)

theorem mem_of_lastValue? {pairs : List (String × α)} (h : lastValue? pairs key = some value) :
    (key, value) ∈ pairs := by
  obtain ⟨pair, hpair, rfl⟩ := Option.map_eq_some_iff.mp h
  have hkey : pair.1 = key := by simpa using List.find?_some hpair
  have hmem := List.mem_of_find?_eq_some hpair
  rw [← hkey]
  exact List.mem_reverse.mp hmem

theorem lastValue?_cons (pair : String × α) (pairs : List (String × α)) (key : String) :
    lastValue? (pair :: pairs) key =
      (lastValue? pairs key).or (if pair.1 = key then some pair.2 else none) := by
  rw [lastValue?, List.reverse_cons, List.find?_append, lastValue?]
  cases hfind : pairs.reverse.find? fun pair => pair.1 = key with
  | some later => simp
  | none => by_cases hkey : pair.1 = key <;> simp [hkey]

/-- Of the pairs that are inserted the last one of a key counts. -/
theorem find?_foldl_insert (pairs : List (String × α)) (entries : Bindings α) (key : String) :
    find? (pairs.foldl (fun held pair => insert held pair.1 pair.2) entries) key =
      (lastValue? pairs key).or (find? entries key) := by
  induction pairs generalizing entries with
  | nil => rfl
  | cons pair pairs ih =>
    rw [List.foldl_cons, ih, find?_insert, lastValue?_cons, Option.or_assoc]
    by_cases hkey : pair.1 = key <;> simp [hkey]

/-- The keys that are new come after those that were there, in the order in
which they are first inserted. -/
theorem keys_foldl_insert (pairs : List (String × α)) (entries : Bindings α) :
    keys (pairs.foldl (fun held pair => insert held pair.1 pair.2) entries) =
      keys entries ++ ((keys pairs).filter fun key => key ∉ keys entries).eraseDups := by
  induction pairs generalizing entries with
  | nil => simp [keys]
  | cons pair pairs ih =>
    have hcons : keys (pair :: pairs) = pair.1 :: keys pairs := rfl
    rw [List.foldl_cons, ih, keys_insert, hcons]
    by_cases hkey : pair.1 ∈ keys entries
    · rw [if_pos ((mem_keys_iff entries pair.1).mp hkey), List.filter_cons_of_neg (by simpa)]
    · have habsent : ¬ contains entries pair.1 = true := by rwa [← mem_keys_iff]
      rw [if_neg habsent, List.filter_cons_of_pos (by simpa), List.eraseDups_cons,
        List.filter_filter, List.append_assoc, List.singleton_append]
      congr 3
      refine List.filter_congr fun key _ => ?_
      rw [Bool.eq_iff_iff]
      simp [and_comm]

end CommandShell.Bindings
