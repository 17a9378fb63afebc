/-
CommandShell.Proofs.Shell.AndOrList — a line means the and-or lists that it
writes.

§1 gives the meaning of a line on its own terms. The commands are cut before
every semicolon, each part is read as a tree that leans to the left
(`AndOr.trees`), and a tree is evaluated from its leaves: the command on the
right of `&&` or `||` is dispatched or not as the value on the left says
(`AndOr.run`). The evaluation keeps the status of the last command that was
dispatched beside the shell, and a command is dispatched with that status
put into the shell, so it is this status that `$?` stands for.

§2 says what holds of every evaluation, and §3 that running the commands of a
line one by one, as `Shell.runCommands` does, comes to the same
(`outcome_runAll_trees`). The step of the induction is a tree that grows by one
command: the status that the loop carries is the value of the tree so far.
-/
import CommandShell.Proofs.Shell.Dispatch
import CommandShell.Proofs.Syntax.Grammar
import CommandShell.Shell.Line

namespace CommandShell

/-! ## §1 The meaning of a line -/

/-- A command that is dispatched: the shell it comes to, the status of the
last command dispatched before it, and its words. -/
structure Dispatch where
  shell : Shell
  last : Int
  words : List String

namespace Dispatch

/-- The words of the command as they are run: `$?` stands for the status of
the last command before it. -/
def prepared (dispatch : Dispatch) : List String :=
  { dispatch.shell.scope with status := dispatch.last }.expand
    (dispatch.shell.aliases.expand dispatch.words)

/-- What comes of the command. -/
def outcome (dispatch : Dispatch) : Outcome :=
  { dispatch.shell with lastStatus := dispatch.last }.runCommand dispatch.words

end Dispatch

/-- Commands joined by `&&` and `||`, grouped to the left. -/
inductive AndOr
  | simple (words : List String)
  | and (left : AndOr) (right : List String)
  | or (left : AndOr) (right : List String)
  deriving Repr, DecidableEq

namespace AndOr

/-- The tree with one command more. -/
def join (left : AndOr) (command : Command) : AndOr :=
  match command.connector with
  | some .or => .or left command.words
  | _ => .and left command.words

/-- Commands cut before every semicolon, each part with its first command
apart. -/
def chains : List Command → List (Command × List Command)
  | [] => []
  | command :: rest =>
    match chains rest with
    | [] => [(command, [])]
    | (next, more) :: others =>
      if next.connector = some .semicolon then (command, []) :: (next, more) :: others
      else (command, next :: more) :: others

/-- The tree of a chain of commands. -/
def ofChain (chain : Command × List Command) : AndOr :=
  chain.2.foldl join (.simple chain.1.words)

/-- The trees that commands write. -/
def trees (commands : List Command) : List AndOr :=
  (chains commands).map ofChain

/-- An evaluation: its outcome, in which a returned status is the value, the
status of the last command dispatched, and all commands dispatched. -/
structure Evaluation where
  outcome : Outcome
  last : Int
  dispatches : List Dispatch := []

namespace Evaluation

/-- Nothing is dispatched. -/
def pass (shell : Shell) (last value : Int) : Evaluation where
  outcome := ⟨shell, [], .returned value⟩
  last := last

/-- One command is dispatched. -/
def dispatch (shell : Shell) (last : Int) (words : List String) : Evaluation :=
  let dispatch : Dispatch := ⟨shell, last, words⟩
  { outcome := dispatch.outcome
    last := match dispatch.outcome.ending with
      | .returned status => status
      | _ => last
    dispatches := [dispatch] }

/-- Goes on from an evaluation that gave a value, with the shell, the last
status and the value that it left; a shell that is being left dispatches
nothing more. -/
def andThen (evaluation : Evaluation) (next : Shell → Int → Int → Evaluation) : Evaluation :=
  match evaluation.outcome.ending with
  | .left _ | .broken _ => evaluation
  | .returned value =>
    let after := next evaluation.outcome.shell evaluation.last value
    { after with
      outcome := after.outcome.after evaluation.outcome.transcript
      dispatches := evaluation.dispatches ++ after.dispatches }

end Evaluation

/-- Evaluates a tree. -/
def run (shell : Shell) (last : Int) : AndOr → Evaluation
  | .simple words => .dispatch shell last words
  | .and left right =>
    (left.run shell last).andThen fun shell last value =>
      if value = 0 then .dispatch shell last right else .pass shell last value
  | .or left right =>
    (left.run shell last).andThen fun shell last value =>
      if value ≠ 0 then .dispatch shell last right else .pass shell last value

/-- Evaluates trees in order. The value is that of the last one; without any
it is the one given. -/
def runAll (shell : Shell) (last value : Int) : List AndOr → Evaluation
  | [] => .pass shell last value
  | tree :: rest =>
    (tree.run shell last).andThen fun shell last value => runAll shell last value rest

/-! ## §2 Every evaluation -/

/-- What holds of an evaluation that began with the last status in the shell:
the value it gives is the last status, in and beside the shell; the commands
that began are the ones it dispatched, with their words prepared; and if the
shell is left, it is by the last of them. -/
structure Sound (evaluation : Evaluation) : Prop where
  settled : ∀ value, evaluation.outcome.ending = .returned value →
    evaluation.last = value ∧ evaluation.outcome.shell.lastStatus = value
  dispatched : evaluation.outcome.transcript.dispatched =
    evaluation.dispatches.map Dispatch.prepared
  left : ∀ status, evaluation.outcome.ending = .left status →
    ∃ earlier dispatch, evaluation.dispatches = earlier ++ [dispatch] ∧
      dispatch.outcome.ending = .left status
  regular : evaluation.outcome.Regular

theorem sound_pass {shell : Shell} {last : Int} (h : shell.lastStatus = last) :
    Sound (.pass shell last last) where
  settled value hvalue := by
    obtain rfl : last = value := by simpa [Evaluation.pass] using hvalue
    exact ⟨rfl, h⟩
  dispatched := rfl
  left status hstatus := by simp [Evaluation.pass] at hstatus
  regular := .inl ⟨last, rfl⟩

theorem sound_dispatch (shell : Shell) (last : Int) (words : List String) :
    Sound (.dispatch shell last words) where
  settled value hvalue := by
    have hvalue : (Dispatch.outcome ⟨shell, last, words⟩).ending = .returned value := hvalue
    refine ⟨?_, Shell.lastStatus_runCommand hvalue⟩
    simp [Evaluation.dispatch, hvalue]
  dispatched := Shell.dispatched_runCommand { shell with lastStatus := last } words
  left status hstatus := ⟨[], ⟨shell, last, words⟩, rfl, hstatus⟩
  regular := Shell.regular_runCommand _ _

theorem Evaluation.outcome_andThen (evaluation : Evaluation)
    (next : Shell → Int → Int → Evaluation) :
    (evaluation.andThen next).outcome =
      evaluation.outcome.andThen fun shell value =>
        (next shell evaluation.last value).outcome := by
  obtain ⟨⟨shell, transcript, ending⟩, last, dispatches⟩ := evaluation
  cases ending <;> rfl

/-- Going on keeps this up, and what comes next may rely on it. -/
theorem Sound.andThen {evaluation : Evaluation} (h : Sound evaluation)
    {next : Shell → Int → Int → Evaluation}
    (hnext : ∀ (shell : Shell) (value : Int), shell.lastStatus = value →
      Sound (next shell value value)) : Sound (evaluation.andThen next) := by
  obtain ⟨⟨shell, transcript, ending⟩, last, dispatches⟩ := evaluation
  cases ending with
  | left status => exact h
  | broken breakdown => exact h
  | returned value =>
    obtain ⟨hlast, hshell⟩ := h.settled value rfl
    simp only at hlast hshell
    subst hlast
    have hafter := hnext shell last hshell
    refine ⟨hafter.settled, ?_, fun status hstatus => ?_, hafter.regular⟩
    · have hbefore : Transcript.dispatched transcript = dispatches.map Dispatch.prepared :=
        h.dispatched
      simp [Evaluation.andThen, hbefore, hafter.dispatched]
    · obtain ⟨earlier, dispatch, hsplit, hleft⟩ := hafter.left status hstatus
      exact ⟨dispatches ++ earlier, dispatch, by simp [Evaluation.andThen, hsplit], hleft⟩

theorem sound_run (tree : AndOr) (shell : Shell) (last : Int) :
    Sound (tree.run shell last) := by
  induction tree with
  | simple words => exact sound_dispatch shell last words
  | and left right ih =>
    refine ih.andThen fun shell value hvalue => ?_
    split
    · exact sound_dispatch shell value right
    · exact sound_pass hvalue
  | or left right ih =>
    refine ih.andThen fun shell value hvalue => ?_
    split
    · exact sound_dispatch shell value right
    · exact sound_pass hvalue

theorem sound_runAll (trees : List AndOr) {shell : Shell} {last : Int}
    (h : shell.lastStatus = last) : Sound (runAll shell last last trees) := by
  induction trees generalizing shell last with
  | nil => exact sound_pass h
  | cons tree rest ih =>
    exact (sound_run tree shell last).andThen fun shell value hvalue => ih hvalue

/-! ## §3 Running commands one by one -/

/-- A tree that has been read so far, and the commands that are left. -/
def grow (tree : AndOr) (rest : List Command) : List AndOr :=
  match chains rest with
  | [] => [tree]
  | (next, more) :: others =>
    if next.connector = some .semicolon then tree :: ofChain (next, more) :: others.map ofChain
    else (next :: more).foldl join tree :: others.map ofChain

theorem trees_cons (command : Command) (rest : List Command) :
    trees (command :: rest) = grow (.simple command.words) rest := by
  unfold trees grow
  rw [chains]
  split
  · rfl
  · split <;> rfl

theorem grow_cons (tree : AndOr) (command : Command) (rest : List Command) :
    grow tree (command :: rest) =
      if command.connector = some .semicolon then tree :: grow (.simple command.words) rest
      else grow (tree.join command) rest := by
  unfold grow
  rw [chains]
  cases chains rest with
  | nil => rfl
  | cons chain others =>
    obtain ⟨next, more⟩ := chain
    by_cases hnext : next.connector = some .semicolon
    · simp [hnext, ofChain]
    · simp [hnext, ofChain]

/-- A command that is dispatched with the last status of its shell is run
there. -/
theorem Evaluation.outcome_dispatch {shell : Shell} {last : Int} (h : shell.lastStatus = last)
    (words : List String) :
    (Evaluation.dispatch shell last words).outcome = shell.runCommand words := by
  subst h
  rfl

/-- What a tree that grows by one command comes to: the command is run or
passed over as the value of the tree so far says. -/
theorem outcome_run_join (tree : AndOr) {command : Command} (shell : Shell) (last : Int)
    (hjoin : command.connector = some .and ∨ command.connector = some .or) :
    ((tree.join command).run shell last).outcome =
      (tree.run shell last).outcome.andThen fun shell status =>
        if Shell.skips command.connector status then ⟨shell, [], .returned status⟩
        else shell.runCommand command.words := by
  have hsettled := (sound_run tree shell last).settled
  rcases hjoin with hop | hop
  · simp only [join, hop, run]
    rw [Evaluation.outcome_andThen]
    refine Outcome.andThen_congr fun status hstatus => ?_
    obtain ⟨hlast, hshell⟩ := hsettled status hstatus
    by_cases hzero : status = 0
    · simp [Shell.skips, hzero, hlast, Evaluation.outcome_dispatch (hzero ▸ hshell)]
    · simp [Shell.skips, hzero, Evaluation.pass]
  · simp only [join, hop, run]
    rw [Evaluation.outcome_andThen]
    refine Outcome.andThen_congr fun status hstatus => ?_
    obtain ⟨hlast, hshell⟩ := hsettled status hstatus
    by_cases hzero : status = 0
    · simp [Shell.skips, hzero, Evaluation.pass]
    · simp [Shell.skips, hzero, hlast, Evaluation.outcome_dispatch hshell]

/-- A tree and the commands after it: the loop goes on with the value of the
tree as its status. The induction is on the commands that are left, and the
tree takes in each of them up to the next semicolon. -/
theorem outcome_runAll_grow {rest : List Command}
    (hrest : ∀ command ∈ rest, command.connector ≠ none) (tree : AndOr) (shell : Shell)
    (last value : Int) :
    (runAll shell last value (grow tree rest)).outcome =
      (tree.run shell last).outcome.andThen fun shell status =>
        shell.runCommands status rest := by
  induction rest generalizing tree shell last value with
  | nil =>
    rw [grow, chains, runAll, Evaluation.outcome_andThen]
    rfl
  | cons command rest ih =>
    have hmore : ∀ next ∈ rest, next.connector ≠ none :=
      fun next hnext => hrest next (List.mem_cons_of_mem command hnext)
    rw [grow_cons]
    split
    · next hsemi =>
      rw [runAll, Evaluation.outcome_andThen]
      refine Outcome.andThen_congr fun status hstatus => ?_
      obtain ⟨hlast, hshell⟩ := (sound_run tree shell last).settled status hstatus
      rw [hlast, ih hmore, run, Evaluation.outcome_dispatch hshell]
      simp [Shell.runCommands, Shell.skips, hsemi]
    · next hsemi =>
      have hjoin : command.connector = some .and ∨ command.connector = some .or := by
        have hsome := hrest command (by simp)
        match hop : command.connector with
        | none => exact absurd hop hsome
        | some .semicolon => exact absurd hop hsemi
        | some .and => exact .inl rfl
        | some .or => exact .inr rfl
      rw [ih hmore, outcome_run_join tree shell last hjoin, Outcome.andThen_assoc]
      refine Outcome.andThen_congr fun status _ => ?_
      rw [Shell.runCommands]
      split <;> rfl

/-- The commands of a line run one by one come to what their trees come to. -/
theorem outcome_runAll_trees {commands : List Command} (hlisted : Command.Listed commands)
    (shell : Shell) :
    (runAll shell shell.lastStatus shell.lastStatus (trees commands)).outcome =
      shell.runCommands shell.lastStatus commands := by
  cases commands with
  | nil => rfl
  | cons command rest =>
    have hfirst : command.connector = none := hlisted.first command (by simp)
    have hothers : ∀ next ∈ rest, next.connector ≠ none := hlisted.others
    rw [trees_cons, outcome_runAll_grow hothers, run, Evaluation.outcome_dispatch rfl]
    simp [Shell.runCommands, Shell.skips, hfirst]

end AndOr

open AndOr (runAll trees)

/-- **A line means the and-or lists that it writes.** Running a line that can
be read comes to what the evaluation of its trees comes to: the same state,
the same events in the same order, the same ending. The commands that began
are the ones the evaluation dispatches, their words prepared with the status
of the last command before them in the place of `$?`. A status that is
returned is the last status; if the shell is left, the command that leaves it
is the last one dispatched; and nothing else can happen. -/
theorem executeLine_eq_runAll (shell : Shell) {line : String} {commands : List Command}
    (hread : Command.ofLine line = .ok commands) :
    let numbered := { shell with lineNumber := shell.lineNumber + 1 }
    let meaning := runAll numbered shell.lastStatus shell.lastStatus (trees commands)
    shell.executeLine line = meaning.outcome ∧
      (shell.executeLine line).transcript.dispatched =
        meaning.dispatches.map Dispatch.prepared ∧
      (∀ status, (shell.executeLine line).ending = .returned status →
        (shell.executeLine line).shell.lastStatus = status) ∧
      (∀ status, (shell.executeLine line).ending = .left status →
        ∃ earlier dispatch, meaning.dispatches = earlier ++ [dispatch] ∧
          dispatch.outcome.ending = .left status) ∧
      ((∃ status, (shell.executeLine line).ending = .returned status) ∨
        ∃ status, (shell.executeLine line).ending = .left status) := by
  intro numbered meaning
  have hlisted : Command.Listed commands := (Command.ofTokens_eq_ok_iff.mp hread).1
  have heq : shell.executeLine line = meaning.outcome := by
    have htrees := AndOr.outcome_runAll_trees hlisted numbered
    rw [Shell.executeLine]
    simp only [hread]
    exact htrees.symm
  have hsound : AndOr.Sound meaning := AndOr.sound_runAll (trees commands) rfl
  rw [heq]
  exact ⟨rfl, hsound.dispatched, fun status hstatus => (hsound.settled status hstatus).2,
    hsound.left, hsound.regular⟩

/-- A failing command, one passed over, one that sees the failure in `$?`,
and one after the exit that is never dispatched. -/
theorem executeLine_eq_runAll_exit :
    let shell : Shell :=
      { programName := "minish", processId := 1, environment := {}, world := {},
        builtins := Builtin.standard }
    Command.ofLine "nosuch && env || setenv A $? ; exit && help" =
        .ok [⟨none, ["nosuch"]⟩, ⟨some .and, ["env"]⟩, ⟨some .or, ["setenv", "A", "$?"]⟩,
          ⟨some .semicolon, ["exit"]⟩, ⟨some .and, ["help"]⟩] ∧
      (shell.executeLine "nosuch && env || setenv A $? ; exit && help").transcript.dispatched =
        [["nosuch"], ["setenv", "A", "127"], ["exit"]] ∧
      (shell.executeLine "nosuch && env || setenv A $? ; exit && help").ending = .left 0 := by
  intro shell
  have hread : Command.ofLine "nosuch && env || setenv A $? ; exit && help" =
      .ok [⟨none, ["nosuch"]⟩, ⟨some .and, ["env"]⟩, ⟨some .or, ["setenv", "A", "$?"]⟩,
        ⟨some .semicolon, ["exit"]⟩, ⟨some .and, ["help"]⟩] := by
    decide +kernel
  obtain ⟨heq, hdispatched, -⟩ := executeLine_eq_runAll shell hread
  exact ⟨hread, by rw [hdispatched]; decide +kernel, by rw [heq]; decide +kernel⟩

end CommandShell
