/-
CommandShell.Proofs.Shell.EmbeddedNul — whether a program can be handed the
variables.

The system turns down a request in which a text holds NUL. §1 says that the
variables have no part in that as long as no name and no value holds NUL
(`Environment.FreeOfNul`). §2 follows the variables through a course: whatever
is run, they change by requests to set and to unset (`kept_ofVariables`), and
those let no NUL in. A value that holds NUL is therefore one that the shell was
given at its start (`nul_from_start`). It was not refused there, as it is
everywhere else, and while it stays no program can be started at all
(`environment_given_nul`); where the shell is given no such value there
will be none (`environment_free_of_nul`).
-/
import CommandShell.Proofs.Environment.History
import CommandShell.Proofs.Shell.Launch
import CommandShell.Proofs.Shell.Touch

namespace CommandShell

/-! ## §1 What is turned down -/

/-- No name and no value holds NUL. -/
def Environment.FreeOfNul (env : Environment) : Prop :=
  ∀ entry ∈ env.entries, '\x00' ∉ entry.1.toList ∧ '\x00' ∉ entry.2.toList

theorem Environment.FreeOfNul.lines {env : Environment} (h : env.FreeOfNul) :
    ∀ line ∈ env.lines, '\x00' ∉ line.toList := by
  intro text htext
  obtain ⟨entry, hentry, rfl⟩ := List.mem_map.mp htext
  obtain ⟨hname, hvalue⟩ := h entry hentry
  simp [line, hname, hvalue]

theorem World.lookup_ne_embeddedNul {path : String} (h : '\x00' ∉ path.toList) (world : World) :
    world.lookup path ≠ .error .embeddedNul := by
  have hresolve : world.resolve true path ≠ .error .embeddedNul := by
    unfold resolve
    rw [if_neg (by simpa using h)]
    split
    · simp
    · cases world.walk true (Path.endsInSlash path) (startOf world.workingDirectory path)
        (Path.components path) linkLimit <;> simp [Except.mapError]
  unfold lookup
  split
  · next error herror => exact fun heq => hresolve (herror.trans (by cases heq; rfl))
  · split <;> simp

/-- Whether a request is turned down for a NUL depends on the path of the
program and on the words of the command alone. -/
def Attempt.NulInWords (attempt : Attempt) : Prop :=
  ∀ world, attempt.start world = .embeddedNul ↔
    '\x00' ∈ attempt.executable.toList ∨ ∃ word ∈ attempt.arguments, '\x00' ∈ word.toList

theorem Attempt.nulInWords {attempt : Attempt}
    (h : ∀ line ∈ attempt.environment, '\x00' ∉ line.toList) : attempt.NulInWords := by
  intro world
  have hholds : (holdsNul attempt.executable || attempt.arguments.any holdsNul ||
      attempt.environment.any holdsNul) = true ↔
      '\x00' ∈ attempt.executable.toList ∨ ∃ word ∈ attempt.arguments, '\x00' ∈ word.toList := by
    have hlines : attempt.environment.any holdsNul = false := by
      simpa [holdsNul] using h
    simp [hlines, holdsNul]
  rw [← hholds]
  unfold start
  split
  · next hnul => simp [hnul]
  · next hnul =>
    have hexecutable : '\x00' ∉ attempt.executable.toList :=
      fun hmem => hnul (hholds.mpr (.inl hmem))
    refine iff_of_false ?_ hnul
    have hlookup := World.lookup_ne_embeddedNul hexecutable world
    split
    · next herror => exact absurd herror hlookup
    · simp
    · next file _ =>
      split
      · unfold Program.start
        split <;> simp
      · simp
    · simp

/-! ## §2 The variables all along -/

open Environment (Reaches)

/-- The variables come from those at the start, and are handed on as they are. -/
def Invariant.ofVariables (start : Environment) : Invariant where
  state shell := start.Reaches shell.environment
  attempt attempt := ∃ env, start.Reaches env ∧ attempt.environment = env.lines
  status _ := True

namespace Invariant

theorem kept_ofVariables (start : Environment) : (ofVariables start).Kept where
  prepared {shell} hstate words := by
    obtain ⟨environment, _, _, _, hshell, hreaches, -⟩ := Shell.touches_runPrepared shell words
    refine ⟨?_, fun attempt hmem => ?_, fun _ _ => trivial⟩
    · rw [hshell]
      exact hstate.trans hreaches
    · rw [Shell.attempts_runPrepared, Option.mem_toList] at hmem
      exact ⟨shell.environment, hstate, (Shell.of_attempt?_eq_some hmem).2⟩
  fault _ := trivial
  lastStatus _ := trivial
  settled hstate _ := hstate
  numbered hstate _ := hstate

end Invariant

/-! ## §3 Where a NUL comes from -/

theorem Course.reaches {worlds : World → Prop} {start shell : Shell}
    (h : Course worlds start shell) : start.environment.Reaches shell.environment := by
  have hkept := Invariant.kept_ofVariables start.environment
  have hstart : (Invariant.ofVariables start.environment).state start := Reaches.refl _
  exact hkept.course hstart (fun _ _ hstate _ => hstate) h

/-- **A value that holds NUL is one that the shell was given at its start**, and
no name ever holds one. -/
theorem nul_from_start {worlds : World → Prop} {pairs : List (String × String)}
    {start shell : Shell} (hstart : start.environment = .ofPairs pairs)
    (h : Course worlds start shell) :
    ∀ entry ∈ shell.environment.entries, '\x00' ∉ entry.1.toList ∧
      ('\x00' ∈ entry.2.toList → entry ∈ (Environment.ofPairs pairs).entries) := by
  have hreaches : (Environment.ofPairs pairs).Reaches shell.environment := hstart ▸ h.reaches
  have hwell := Environment.wellFormed_of_reaches hreaches
  exact fun entry hentry => ⟨(hwell.valid entry hentry).2.2, hreaches.mem_of_nul hentry⟩

theorem Environment.freeOfNul_of_reaches {pairs : List (String × String)}
    (hpairs : ∀ pair ∈ pairs, ValidName pair.1 → '\x00' ∉ pair.2.toList) {env : Environment}
    (h : (ofPairs pairs).Reaches env) : env.FreeOfNul := by
  intro entry hentry
  refine ⟨((wellFormed_of_reaches h).valid entry hentry).2.2, fun hnul => ?_⟩
  obtain ⟨hgiven, hname⟩ := mem_of_mem_ofPairs (h.mem_of_nul hentry hnul)
  exact hpairs entry hgiven hname hnul

/-- **A program can always be handed the variables**, if the shell was given no
value that holds NUL. In every state of a course no name and no value of a
variable holds one, nor do they before and after each command of a line. So
whether a request to start a program is turned down for a NUL depends on the
words of its command and on the path of the program alone. -/
theorem environment_free_of_nul (programName : String) (processId : Int)
    {pairs : List (String × String)}
    (hpairs : ∀ pair ∈ pairs, ValidName pair.1 → '\x00' ∉ pair.2.toList) (world : World)
    {shell : Shell}
    (h : Course (fun _ => True)
      { programName, processId, environment := .ofPairs pairs, world,
        builtins := Builtin.standard } shell) :
    shell.environment.FreeOfNul ∧
      (∀ outcome, shell.Runs outcome →
        outcome.shell.environment.FreeOfNul ∧
          ∀ attempt ∈ outcome.transcript.attempts, attempt.NulInWords) ∧
      ∀ line, ∀ dispatch ∈ shell.dispatches line,
        dispatch.state.environment.FreeOfNul ∧ dispatch.outcome.shell.environment.FreeOfNul ∧
          ∀ attempt ∈ dispatch.outcome.transcript.attempts,
            attempt.arguments = dispatch.prepared ∧ attempt.NulInWords := by
  have hkept := Invariant.kept_ofVariables (.ofPairs pairs)
  have hstate : (Invariant.ofVariables (.ofPairs pairs)).state shell := h.reaches
  have hfree : ∀ {env}, (Environment.ofPairs pairs).Reaches env → env.FreeOfNul :=
    Environment.freeOfNul_of_reaches hpairs
  have hattempt : ∀ attempt, (Invariant.ofVariables (.ofPairs pairs)).attempt attempt →
      attempt.NulInWords := by
    rintro attempt ⟨env, hreaches, hlines⟩
    exact Attempt.nulInWords (hlines ▸ (hfree hreaches).lines)
  refine ⟨hfree hstate, fun outcome hrun => ?_, fun line dispatch hmem => ?_⟩
  · have hholds := hkept.runs hstate hrun
    exact ⟨hfree hholds.state, fun attempt hmem => hattempt attempt (hholds.attempts attempt hmem)⟩
  · obtain ⟨hbefore, hholds⟩ := hkept.dispatches hstate line dispatch hmem
    refine ⟨hfree hbefore, hfree hholds.state, fun attempt hattempts => ⟨?_, ?_⟩⟩
    · have hrequest : dispatch.outcome.transcript.attempts =
          (dispatch.state.attempt? dispatch.prepared).toList :=
        Shell.attempts_runCommand dispatch.state dispatch.words
      rw [hrequest, Option.mem_toList] at hattempts
      exact (Shell.of_attempt?_eq_some hattempts).1
    · exact hattempt attempt (hholds.attempts attempt hattempts)

/-- A program is started from a line on which another one cannot be, since one
of its words holds NUL. -/
theorem environment_free_of_nul_word :
    let world : World :=
      { root := .directory true [("bin", .directory true [("x", .file { executable := true })])] }
    let shell : Shell :=
      { programName := "minish", processId := 1,
        environment := .ofPairs [("PATH", "/bin"), ("A=", "b\x00c")], world,
        builtins := Builtin.standard }
    let outcome := shell.executeLine "x a\x00b ; setenv A 1 ; x"
    outcome.shell.environment.FreeOfNul ∧
      outcome.transcript.attempts =
        [⟨"/bin/x", ["x", "a\x00b"], ["PATH=/bin"]⟩, ⟨"/bin/x", ["x"], ["PATH=/bin", "A=1"]⟩] ∧
      ∀ attempt ∈ outcome.transcript.attempts, attempt.NulInWords := by
  intro world shell outcome
  have hpairs : ∀ pair ∈ [("PATH", "/bin"), ("A=", "b\x00c")],
      ValidName pair.1 → '\x00' ∉ pair.2.toList := by decide
  obtain ⟨-, hruns, -⟩ := environment_free_of_nul "minish" 1 hpairs world .start
  obtain ⟨hfree, hattempts⟩ := hruns outcome (.line "x a\x00b ; setenv A 1 ; x")
  exact ⟨hfree, by decide +kernel, hattempts⟩

/-- A shell that is given a value with NUL in it cannot start any program. -/
theorem environment_given_nul :
    let world : World :=
      { root := .directory true [("bin", .directory true [("x", .file { executable := true })])] }
    let shell : Shell :=
      { programName := "minish", processId := 1,
        environment := .ofPairs [("A", "b\x00c"), ("PATH", "/bin")], world,
        builtins := Builtin.standard }
    let outcome := shell.executeLine "x"
    let attempt : Attempt := ⟨"/bin/x", ["x"], ["A=b\x00c", "PATH=/bin"]⟩
    ¬ shell.environment.FreeOfNul ∧ outcome.transcript.attempts = [attempt] ∧
      attempt.start world = .embeddedNul ∧ outcome.ending = .returned 126 := by
  intro world shell outcome attempt
  have hentry : ("A", "b\x00c") ∈ shell.environment.entries := by decide
  have hnul : '\x00' ∈ "b\x00c".toList := by decide
  exact ⟨fun hfree => (hfree _ hentry).2 hnul, by decide +kernel, by decide +kernel,
    by decide +kernel⟩

end CommandShell
