/-
CommandShell.Proofs.Builtin.ChangeDirectory — all that changing the directory
can come to.

`Change` lists the answers with what led to each (`change_cd`). The directory
is changed before the variables are, so a failure can come too late: three of
the five answers are given in the new directory. Where the change can be
recorded (`Recordable`) the late failures do not occur: a change that can be
made is made (`exists_done_of_recordable`), and a failure leaves all as it was
(`cd_of_recordable`).
-/
import CommandShell.Builtin.ChangeDirectory
import CommandShell.Proofs.Environment.History
import CommandShell.Proofs.FileSystem.RealPath

namespace CommandShell.Builtin

/-- The answers to a change of directory, with the state that each leaves. -/
inductive Change (shell : Shell) (operands : List String) : Shell × Reply → Prop
  /-- The operands say nowhere to go. -/
  | nowhere {fault : Fault} (haim : destination shell.environment operands = .error fault) :
      Change shell operands (shell, .failed fault)
  /-- The directory cannot be changed to what they say. -/
  | refused {aim : Destination} {error : PathError}
      (haim : destination shell.environment operands = .ok aim)
      (hmove : shell.world.changeDirectory aim.target = .error error) :
      Change shell operands (shell, .failed (.changeDirectory aim.target))
  /-- The new directory has no path to record. -/
  | pathless {aim : Destination} {world : World} {message : String}
      (haim : destination shell.environment operands = .ok aim)
      (hmove : shell.world.changeDirectory aim.target = .ok world)
      (hnew : newPath? world (presentPath shell) aim.target = none) :
      Change shell operands ({ shell with world }, .crashed message)
  /-- One of the paths cannot be recorded. -/
  | unrecorded {aim : Destination} {world : World} {new : String} {after : Shell}
      (haim : destination shell.environment operands = .ok aim)
      (hmove : shell.world.changeDirectory aim.target = .ok world)
      (hnew : newPath? world (presentPath shell) aim.target = some new)
      (hrecord : recordChange { shell with world } (presentPath shell) new = (after, false)) :
      Change shell operands (after, .failed .environmentUpdate)
  /-- The directory is changed and both paths are recorded. -/
  | changed {aim : Destination} {world : World} {new : String} {after : Shell}
      (haim : destination shell.environment operands = .ok aim)
      (hmove : shell.world.changeDirectory aim.target = .ok world)
      (hnew : newPath? world (presentPath shell) aim.target = some new)
      (hrecord : recordChange { shell with world } (presentPath shell) new = (after, true)) :
      Change shell operands
        (after, .done { output := if aim.announced then new ++ "\n" else "" })

theorem change_cd (shell : Shell) (operands : List String) :
    Change shell operands (cd shell operands) := by
  unfold cd
  split
  · next haim => exact .nowhere haim
  · next aim haim =>
    dsimp only
    split
    · next hmove => exact .refused haim hmove
    · next world hmove =>
      split
      · next hnew => exact .pathless haim hmove hnew
      · next new hnew =>
        cases hrecord : recordChange { shell with world } (presentPath shell) new with
        | mk after recorded =>
          cases recorded with
          | false => exact .unrecorded haim hmove hnew hrecord
          | true => exact .changed haim hmove hnew hrecord

/-! ## Recording -/

variable {shell after : Shell} {previous new : String}

/-- What is recorded are the two paths, and it is recorded in two steps. -/
theorem recordChange_eq_true_iff :
    recordChange shell previous new = (after, true) ↔
      ∃ first second, shell.environment.set? "OLDPWD" previous = some first ∧
        first.set? "PWD" new = some second ∧ after = { shell with environment := second } := by
  unfold recordChange
  cases hfirst : shell.environment.set? "OLDPWD" previous with
  | none => simp
  | some first =>
    cases hsecond : first.set? "PWD" new with
    | none => simp [hsecond]
    | some second => simp [hsecond, eq_comm]

/-- Recording, done or not, sets the two variables at most, and touches nothing
else. -/
theorem recordChange_touches (shell : Shell) (previous new : String) :
    ∃ environment, (recordChange shell previous new).1 = { shell with environment } ∧
      Environment.SameBut ["PWD", "OLDPWD"] shell.environment environment ∧
      Environment.Reaches shell.environment environment := by
  unfold recordChange
  cases hfirst : shell.environment.set? "OLDPWD" previous with
  | none => exact ⟨shell.environment, rfl, .refl _ _, .refl _⟩
  | some first =>
    have hsame : Environment.SameBut ["PWD", "OLDPWD"] shell.environment first :=
      .of_set? hfirst (by simp)
    have hreaches : Environment.Reaches shell.environment first := .of_set? hfirst
    cases hsecond : first.set? "PWD" new with
    | none => exact ⟨first, by simp [hsecond], hsame, hreaches⟩
    | some second =>
      exact ⟨second, by simp [hsecond], hsame.trans (.of_set? hsecond (by simp)),
        hreaches.trans (.of_set? hsecond)⟩

theorem recordChange_of_no_nul (hprevious : '\x00' ∉ previous.toList) (hnew : '\x00' ∉ new.toList) :
    ∃ after, recordChange shell previous new = (after, true) := by
  obtain ⟨first, hfirst⟩ := Environment.exists_set? shell.environment
    (by decide : isValidName "OLDPWD" = true) hprevious
  obtain ⟨second, hsecond⟩ := Environment.exists_set? first
    (by decide : isValidName "PWD" = true) hnew
  exact ⟨_, recordChange_eq_true_iff.mpr ⟨first, second, hfirst, hsecond, rfl⟩⟩

/-! ## What succeeds -/

/-- A change to a world can be recorded: the path of the old directory is
known, or else the new one has a path, and neither holds NUL. -/
def Recordable (shell : Shell) (world : World) : Prop :=
  '\x00' ∉ (presentPath shell).toList ∧
    (presentPath shell = "" → ∃ path, world.workingPath? = some path ∧ '\x00' ∉ path.toList)

/-- A target that can be gone to holds no NUL. -/
theorem nul_not_mem_target {world after : World} {target : String}
    (h : world.changeDirectory target = .ok after) : '\x00' ∉ target.toList := by
  obtain ⟨place, entries, hresolve, -⟩ := World.changeDirectory_eq_ok_iff.mp h
  exact (World.leads_of_resolve hresolve).1

/-- The new directory then has a path without NUL. -/
theorem exists_newPath? {world : World} {target : String} (h : Recordable shell world)
    (htarget : '\x00' ∉ target.toList) :
    ∃ new, newPath? world (presentPath shell) target = some new ∧ '\x00' ∉ new.toList := by
  unfold newPath?
  split
  · next hempty => exact h.2 hempty
  · refine ⟨_, rfl, ?_⟩
    exact Path.not_mem_normalise (by decide) (by decide)
      (Path.not_mem_join (by decide) h.1 htarget)

/-- **A change that can be made and recorded succeeds.** -/
theorem exists_done_of_recordable {aim : Destination} {world : World} {operands : List String}
    (haim : destination shell.environment operands = .ok aim)
    (hmove : shell.world.changeDirectory aim.target = .ok world) (h : Recordable shell world) :
    ∃ after new, newPath? world (presentPath shell) aim.target = some new ∧
      recordChange { shell with world } (presentPath shell) new = (after, true) ∧
        cd shell operands =
          (after, .done { output := if aim.announced then new ++ "\n" else "" }) := by
  obtain ⟨new, hnew, hnul⟩ := exists_newPath? h (nul_not_mem_target hmove)
  obtain ⟨after, hrecord⟩ : ∃ after,
      recordChange { shell with world } (presentPath shell) new = (after, true) :=
    recordChange_of_no_nul h.1 hnul
  exact ⟨after, new, hnew, hrecord, by simp [cd, haim, hmove, hnew, hrecord]⟩

/-- Where every change that can be made can be recorded, a failure comes before
anything has changed. -/
theorem cd_of_recordable {operands : List String}
    (h : ∀ aim world, destination shell.environment operands = .ok aim →
      shell.world.changeDirectory aim.target = .ok world → Recordable shell world) :
    (∃ fault, cd shell operands = (shell, .failed fault)) ∨
      ∃ after output, cd shell operands = (after, .done { output }) := by
  cases haim : destination shell.environment operands with
  | error fault => exact .inl ⟨fault, by simp [cd, haim]⟩
  | ok aim =>
    cases hmove : shell.world.changeDirectory aim.target with
    | error error => exact .inl ⟨.changeDirectory aim.target, by simp [cd, haim, hmove]⟩
    | ok world =>
      obtain ⟨after, new, -, -, hdone⟩ := exists_done_of_recordable haim hmove (h aim world haim hmove)
      exact .inr ⟨after, _, hdone⟩

end CommandShell.Builtin
