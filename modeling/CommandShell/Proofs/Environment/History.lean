/-
CommandShell.Proofs.Environment.History — the variables after any history.

§1 says on its own terms what setting, unsetting and reading a variable do:
`Step` speaks of entries in a row, of the place where one of them stands, and
of when a request is refused. §2 shows that `perform` does a step exactly where
there is one, and §3 takes this through a sequence of requests:
`history_refines` puts it together with what the entries always satisfy
(`WellFormed`) and with the lines that programs read them from. §4 is for those
who change the variables on the way to something else: `Reaches` says that
requests lead from one environment to another, and no more.
-/
import CommandShell.Proofs.Bindings.Order
import CommandShell.Proofs.Environment.Update
import CommandShell.Proofs.Text.Fields

namespace CommandShell

/-- What the name of a variable may be: not empty, and free of equals signs and
of NUL. -/
def ValidName (name : String) : Prop :=
  name ≠ "" ∧ '=' ∉ name.toList ∧ '\x00' ∉ name.toList

instance (name : String) : Decidable (ValidName name) :=
  inferInstanceAs (Decidable (_ ∧ _ ∧ _))

theorem isValidName_iff {name : String} : isValidName name = true ↔ ValidName name := by
  simp [isValidName, ValidName, and_assoc]

namespace Environment

/-! ## §1 Requests and what they ought to do -/

/-- What may be asked of the variables. -/
inductive Request
  | set (name value : String)
  | unset (name : String)
  | get (name : String)

inductive Answer
  | done
  | refused
  | unset (wasSet : Bool)
  | value (value : Option String)
  deriving Repr, DecidableEq

/-- What one request does to the entries, and its answer. -/
inductive Step : Bindings String → Request → Answer → Bindings String → Prop
  | replace {before after : Bindings String} {name old value : String} (hname : ValidName name)
      (hvalue : '\x00' ∉ value.toList) :
      Step (before ++ (name, old) :: after) (.set name value) .done
        (before ++ (name, value) :: after)
  | append {entries : Bindings String} {name value : String} (hname : ValidName name)
      (hvalue : '\x00' ∉ value.toList) (habsent : name ∉ entries.keys) :
      Step entries (.set name value) .done (entries ++ [(name, value)])
  | refusedSet {entries : Bindings String} {name value : String}
      (hrefused : ¬ ValidName name ∨ '\x00' ∈ value.toList) :
      Step entries (.set name value) .refused entries
  | remove {before after : Bindings String} {name old : String} (hname : ValidName name) :
      Step (before ++ (name, old) :: after) (.unset name) (.unset true) (before ++ after)
  | absent {entries : Bindings String} {name : String} (hname : ValidName name)
      (habsent : name ∉ entries.keys) : Step entries (.unset name) (.unset false) entries
  | refusedUnset {entries : Bindings String} {name : String} (hrefused : ¬ ValidName name) :
      Step entries (.unset name) .refused entries
  | found {before after : Bindings String} {name value : String} :
      Step (before ++ (name, value) :: after) (.get name) (.value (some value))
        (before ++ (name, value) :: after)
  | missing {entries : Bindings String} {name : String} (habsent : name ∉ entries.keys) :
      Step entries (.get name) (.value none) entries

/-- Requests one after the other, each with its answer. -/
inductive Run : Bindings String → List Request → List Answer → Bindings String → Prop
  | nil (entries : Bindings String) : Run entries [] [] entries
  | cons {entries between final : Bindings String} {request : Request} {rest : List Request}
      {answer : Answer} {answers : List Answer} (hstep : Step entries request answer between)
      (hrest : Run between rest answers final) :
      Run entries (request :: rest) (answer :: answers) final

/-- No name has two entries, and all names are valid. -/
structure WellFormed (entries : Bindings String) : Prop where
  unique : entries.keys.Nodup
  valid : ∀ entry ∈ entries, ValidName entry.1

/-! ## §2 One request -/

variable {env after : Environment} {name value : String}

/-- What comes of a request. -/
def perform (env : Environment) : Request → Environment × Answer
  | .set name value =>
    match env.set? name value with
    | some after => (after, .done)
    | none => (env, .refused)
  | .unset name =>
    match env.unset? name with
    | some (after, wasSet) => (after, .unset wasSet)
    | none => (env, .refused)
  | .get name => (env, .value (env.get? name))

theorem set?_of_valid (env : Environment) (hname : ValidName name) (hvalue : '\x00' ∉ value.toList) :
    env.set? name value = some ⟨env.entries.insert name value⟩ :=
  set?_eq_some_iff.mpr ⟨isValidName_iff.mpr hname, hvalue, rfl⟩

theorem set?_eq_none_iff :
    env.set? name value = none ↔ ¬ ValidName name ∨ '\x00' ∈ value.toList := by
  have hsome : (∃ after, env.set? name value = some after) ↔
      ValidName name ∧ '\x00' ∉ value.toList := by
    simp [set?_eq_some_iff, isValidName_iff]
  rw [Option.eq_none_iff_forall_ne_some, ← not_exists, hsome]
  tauto

theorem unset?_of_valid (env : Environment) (hname : ValidName name) :
    env.unset? name = some (⟨env.entries.erase name⟩, env.contains name) :=
  if_pos (isValidName_iff.mpr hname)

theorem unset?_of_not_valid (env : Environment) (hname : ¬ ValidName name) :
    env.unset? name = none :=
  if_neg (isValidName_iff.not.mpr hname)

/-- Wherever there is a step, it is done. -/
theorem perform_of_step {entries final : Bindings String} {request : Request} {answer : Answer}
    (hwell : WellFormed entries) (h : Step entries request answer final) :
    perform ⟨entries⟩ request = (⟨final⟩, answer) := by
  cases h with
  | replace hname hvalue =>
    have hbefore := (Bindings.not_mem_keys_around hwell.unique).1
    rw [perform, set?_of_valid _ hname hvalue, Bindings.insert_append_cons hbefore]
  | append hname hvalue habsent =>
    rw [perform, set?_of_valid _ hname hvalue, Bindings.insert_of_not_mem habsent]
  | refusedSet hrefused => rw [perform, set?_eq_none_iff.mpr hrefused]
  | remove hname =>
    obtain ⟨hbefore, hafter⟩ := Bindings.not_mem_keys_around hwell.unique
    rw [perform, unset?_of_valid _ hname, Bindings.erase_append_cons hbefore hafter]
    simp [contains, Bindings.contains, Bindings.find?_append_cons hbefore]
  | absent hname habsent =>
    rw [perform, unset?_of_valid _ hname, Bindings.erase_of_not_mem habsent]
    simp [contains, Bindings.contains, Bindings.find?_eq_none_iff.mpr habsent]
  | refusedUnset hrefused => rw [perform, unset?_of_not_valid _ hrefused]
  | found =>
    have hbefore := (Bindings.not_mem_keys_around hwell.unique).1
    rw [perform, get?, Bindings.find?_append_cons hbefore]
  | missing habsent => rw [perform, get?, Bindings.find?_eq_none_iff.mpr habsent]

/-- Whatever comes of a request is a step. -/
theorem step_perform {entries : Bindings String} (hwell : WellFormed entries) (request : Request) :
    Step entries request (perform ⟨entries⟩ request).2 (perform ⟨entries⟩ request).1.entries := by
  cases request with
  | set name value =>
    by_cases h : ¬ ValidName name ∨ '\x00' ∈ value.toList
    · rw [perform, set?_eq_none_iff.mpr h]
      exact .refusedSet h
    · obtain ⟨hname, hvalue⟩ : ValidName name ∧ '\x00' ∉ value.toList := by tauto
      rw [perform, set?_of_valid _ hname hvalue]
      cases hfind : entries.find? name with
      | some old =>
        obtain ⟨before, after, rfl, hbefore⟩ := Bindings.find?_eq_some_iff.mp hfind
        simp only [Bindings.insert_append_cons hbefore]
        exact .replace hname hvalue
      | none =>
        have habsent := Bindings.find?_eq_none_iff.mp hfind
        simp only [Bindings.insert_of_not_mem habsent]
        exact .append hname hvalue habsent
  | unset name =>
    by_cases hname : ValidName name
    · rw [perform, unset?_of_valid _ hname, contains, Bindings.contains]
      cases hfind : entries.find? name with
      | some old =>
        obtain ⟨before, after, rfl, -⟩ := Bindings.find?_eq_some_iff.mp hfind
        obtain ⟨hbefore, hafter⟩ := Bindings.not_mem_keys_around hwell.unique
        simp only [Bindings.erase_append_cons hbefore hafter]
        exact .remove hname
      | none =>
        have habsent := Bindings.find?_eq_none_iff.mp hfind
        simp only [Bindings.erase_of_not_mem habsent]
        exact .absent hname habsent
    · rw [perform, unset?_of_not_valid _ hname]
      exact .refusedUnset hname
  | get name =>
    rw [perform, get?]
    cases hfind : entries.find? name with
    | some value =>
      obtain ⟨before, after, rfl, -⟩ := Bindings.find?_eq_some_iff.mp hfind
      exact .found
    | none => exact .missing (Bindings.find?_eq_none_iff.mp hfind)

/-- What a request can make of the entries. -/
theorem entries_perform (env : Environment) (request : Request) :
    (env.perform request).1 = env ∨
      (∃ name value, ValidName name ∧ '\x00' ∉ value.toList ∧
        (env.perform request).1.entries = env.entries.insert name value) ∨
      ∃ name, (env.perform request).1.entries = env.entries.erase name := by
  cases request with
  | set name value =>
    by_cases hrefused : ¬ ValidName name ∨ '\x00' ∈ value.toList
    · exact .inl (by rw [perform, set?_eq_none_iff.mpr hrefused])
    · obtain ⟨hname, hvalue⟩ : ValidName name ∧ '\x00' ∉ value.toList := by tauto
      exact .inr (.inl ⟨name, value, hname, hvalue, by rw [perform, set?_of_valid _ hname hvalue]⟩)
  | unset name =>
    by_cases hname : ValidName name
    · exact .inr (.inr ⟨name, by rw [perform, unset?_of_valid _ hname]⟩)
    · exact .inl (by rw [perform, unset?_of_not_valid _ hname])
  | get name => exact .inl rfl

/-- A request gives no name a second entry, and lets in no name that is not
valid. -/
theorem WellFormed.perform {env : Environment} (h : WellFormed env.entries) (request : Request) :
    WellFormed (env.perform request).1.entries := by
  rcases entries_perform env request with heq | ⟨name, value, hname, -, heq⟩ | ⟨name, heq⟩
  · rwa [heq]
  · rw [heq]
    refine ⟨Bindings.keys_nodup_insert h.unique name value, fun entry hentry => ?_⟩
    obtain rfl | hmem := Bindings.mem_insert hentry
    · exact hname
    · exact h.valid entry hmem
  · rw [heq]
    exact ⟨Bindings.keys_nodup_erase h.unique name, fun entry hentry =>
      h.valid entry (List.mem_of_mem_filter hentry)⟩

/-! ## §3 Any number of requests -/

/-- What comes of requests, one after the other. -/
def performAll (env : Environment) : List Request → Environment × List Answer
  | [] => (env, [])
  | request :: rest =>
    let (after, answer) := env.perform request
    let (final, answers) := after.performAll rest
    (final, answer :: answers)

theorem performAll_cons (env : Environment) (request : Request) (rest : List Request) :
    env.performAll (request :: rest) =
      (((env.perform request).1.performAll rest).1,
        (env.perform request).2 :: ((env.perform request).1.performAll rest).2) :=
  rfl

theorem performAll_append (env : Environment) (first second : List Request) :
    (env.performAll (first ++ second)).1 = ((env.performAll first).1.performAll second).1 := by
  induction first generalizing env with
  | nil => rfl
  | cons request rest ih => exact ih (env.perform request).1

theorem wellFormed_ofPairs (pairs : List (String × String)) :
    WellFormed (ofPairs pairs).entries where
  unique := Bindings.keys_nodup_filter (Bindings.keys_nodup_ofPairs pairs) _
  valid _ hentry := isValidName_iff.mp (List.mem_filter.mp hentry).2

theorem WellFormed.performAll {env : Environment} (h : WellFormed env.entries)
    (requests : List Request) : WellFormed (env.performAll requests).1.entries := by
  induction requests generalizing env with
  | nil => exact h
  | cons request rest ih => exact ih (h.perform request)

theorem run_performAll {env : Environment} (hwell : WellFormed env.entries)
    (requests : List Request) :
    Run env.entries requests (env.performAll requests).2 (env.performAll requests).1.entries := by
  induction requests generalizing env with
  | nil => exact .nil env.entries
  | cons request rest ih =>
    rw [performAll_cons]
    exact .cons (step_perform hwell request) (ih (hwell.perform request))

theorem performAll_of_run {entries final : Bindings String} {requests : List Request}
    {answers : List Answer} (hwell : WellFormed entries) (h : Run entries requests answers final) :
    performAll ⟨entries⟩ requests = (⟨final⟩, answers) := by
  induction h with
  | nil entries => rfl
  | @cons entries between final request rest answer answers hstep _ ih =>
    have hperform := perform_of_step hwell hstep
    have hbetween := @WellFormed.perform ⟨entries⟩ hwell request
    rw [hperform] at hbetween
    rw [performAll_cons, hperform, ih hbetween]

/-- The pair that a line of the environment is read as: what stands before its
first equals sign, and what stands after. -/
def readLine (line : String) : Option (String × String) :=
  (Text.cutAt '=' line.toList).map fun (name, value) => (String.ofList name, String.ofList value)

theorem readLine_line {entry : String × String} (h : ValidName entry.1) :
    readLine (line entry) = some entry := by
  have htext : (line entry).toList = entry.1.toList ++ '=' :: entry.2.toList := by
    simp [line]
  rw [readLine, htext, Text.cutAt_append h.2.1]
  simp

theorem map_readLine_lines {env : Environment} (h : WellFormed env.entries) :
    env.lines.map readLine = env.entries.map some := by
  rw [lines, List.map_map]
  exact List.map_congr_left fun entry hentry => readLine_line (h.valid entry hentry)

theorem entries_ofPairs {pairs : List (String × String)} (h : (Bindings.keys pairs).Nodup) :
    (ofPairs pairs).entries = pairs.filter fun pair => ValidName pair.1 := by
  rw [ofPairs, Bindings.ofPairs_of_nodup h]
  refine List.filter_congr fun pair _ => ?_
  rw [Bool.eq_iff_iff, isValidName_iff, decide_eq_true_iff]

/-- **The variables are a map in order of insertion, through any history.** They
start with the pairs of the mapping they are given whose names are valid, in
their order. From there a sequence of requests, valid or not, has exactly the
answers and the outcome of a run of steps. Whatever it was, no name stands
twice and all are valid, and to read each line up to its first equals sign
gives the entries back, in order. -/
theorem history_refines (pairs : List (String × String)) (requests : List Request) :
    ((Bindings.keys pairs).Nodup →
      (ofPairs pairs).entries = pairs.filter fun pair => ValidName pair.1) ∧
    (∀ answers final, (ofPairs pairs).performAll requests = (final, answers) ↔
      Run (ofPairs pairs).entries requests answers final.entries) ∧
    WellFormed ((ofPairs pairs).performAll requests).1.entries ∧
    ((ofPairs pairs).performAll requests).1.lines.map readLine =
      ((ofPairs pairs).performAll requests).1.entries.map some := by
  have hstart := wellFormed_ofPairs pairs
  have hfinal := hstart.performAll requests
  refine ⟨entries_ofPairs, fun answers final => ⟨?_, ?_⟩, hfinal, map_readLine_lines hfinal⟩
  · intro h
    have hrun := run_performAll hstart requests
    rwa [h] at hrun
  · exact performAll_of_run hstart

/-- A mapping with a name that is not valid, and a variable that is unset and
set again: it has lost its place. -/
theorem history_refines_set_again :
    (ofPairs [("A", "1"), ("", "2"), ("B", "x=y")]).entries = [("A", "1"), ("B", "x=y")] ∧
    Run [("A", "1"), ("B", "x=y")]
      [.unset "A", .unset "A", .set "C=" "3", .set "A" "=", .set "B" "4", .get "A"]
      [.unset true, .unset false, .refused, .done, .done, .value (some "=")]
      [("B", "4"), ("A", "=")] := by
  have h := history_refines [("A", "1"), ("", "2"), ("B", "x=y")]
    [.unset "A", .unset "A", .set "C=" "3", .set "A" "=", .set "B" "4", .get "A"]
  have hstart : (ofPairs [("A", "1"), ("", "2"), ("B", "x=y")]).entries =
      [("A", "1"), ("B", "x=y")] := (h.1 (by decide)).trans (by decide)
  refine ⟨hstart, ?_⟩
  have hrun : Run (ofPairs [("A", "1"), ("", "2"), ("B", "x=y")]).entries
      [.unset "A", .unset "A", .set "C=" "3", .set "A" "=", .set "B" "4", .get "A"]
      [.unset true, .unset false, .refused, .done, .done, .value (some "=")]
      [("B", "4"), ("A", "=")] := (h.2.1 _ ⟨[("B", "4"), ("A", "=")]⟩).mp (by decide)
  rwa [hstart] at hrun

/-! ## §4 What may come of an environment -/

/-- Requests lead from the one environment to the other. -/
def Reaches (before after : Environment) : Prop :=
  ∃ requests, (before.performAll requests).1 = after

namespace Reaches

variable {before : Environment}

theorem refl (env : Environment) : Reaches env env := ⟨[], rfl⟩

theorem trans (h : Reaches before env) (h' : Reaches env after) : Reaches before after := by
  obtain ⟨first, rfl⟩ := h
  obtain ⟨second, rfl⟩ := h'
  exact ⟨first ++ second, performAll_append before first second⟩

theorem of_set? (h : env.set? name value = some after) : Reaches env after :=
  ⟨[.set name value], by simp [performAll, perform, h]⟩

theorem of_unset? {wasSet : Bool} (h : env.unset? name = some (after, wasSet)) :
    Reaches env after :=
  ⟨[.unset name], by simp [performAll, perform, h]⟩

end Reaches

/-- A request brings in no value that holds NUL. -/
theorem mem_of_mem_perform {request : Request} {entry : String × String}
    (h : entry ∈ (env.perform request).1.entries) (hnul : '\x00' ∈ entry.2.toList) :
    entry ∈ env.entries := by
  rcases entries_perform env request with heq | ⟨name, value, -, hvalue, heq⟩ | ⟨name, heq⟩
  · rwa [heq] at h
  · rw [heq] at h
    obtain rfl | hmem := Bindings.mem_insert h
    · exact absurd hnul hvalue
    · exact hmem
  · rw [heq] at h
    exact List.mem_of_mem_filter h

/-- A value that holds NUL has been there from the start. -/
theorem Reaches.mem_of_nul {before : Environment} (h : Reaches before after)
    {entry : String × String} (hentry : entry ∈ after.entries) (hnul : '\x00' ∈ entry.2.toList) :
    entry ∈ before.entries := by
  obtain ⟨requests, rfl⟩ := h
  induction requests generalizing before with
  | nil => exact hentry
  | cons request rest ih => exact mem_of_mem_perform (ih hentry) hnul

theorem wellFormed_of_reaches {pairs : List (String × String)} (h : Reaches (ofPairs pairs) env) :
    WellFormed env.entries := by
  obtain ⟨requests, rfl⟩ := h
  exact (wellFormed_ofPairs pairs).performAll requests

theorem mem_of_mem_ofPairs {pairs : List (String × String)} {entry : String × String}
    (h : entry ∈ (ofPairs pairs).entries) : entry ∈ pairs ∧ ValidName entry.1 :=
  ⟨Bindings.mem_of_mem_ofPairs (List.mem_of_mem_filter h),
    (wellFormed_ofPairs pairs).valid entry h⟩

end Environment

end CommandShell
