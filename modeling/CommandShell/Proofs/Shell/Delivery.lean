/-
CommandShell.Proofs.Shell.Delivery — what is delivered of a run.

A run that is given streams is compared with the same run where all is taken.
`Streams.TakesAll` says on its own terms that streams take a transcript, and
`Delivered` that a delivery is what they make of an outcome: all of it, if they
take its transcript, and else a beginning of it, up to the first event that they
refuse. §2 shows that this passes from one step to the next
(`Delivered.andThen`), and §3 follows the definitions of the shell from commands
to lines and loops. §4 has what no line changes, delivered or not.
-/
import CommandShell.Proofs.Shell.Frame
import CommandShell.Shell.Delivery

namespace CommandShell

/-! ## §1 Streams -/

namespace Streams

/-- The event is one that the streams have a part in, and they do not take it. -/
def Refuses (streams : Streams) (seen : Transcript) (event : Event) : Prop :=
  event.isWritten = true ∧ streams.takes seen event = false

/-- No event of a transcript is refused when it comes after those before it. -/
def TakesAll (streams : Streams) (seen transcript : Transcript) : Prop :=
  ∀ before event after, transcript = before ++ event :: after →
    ¬ streams.Refuses (seen ++ before) event

variable {streams : Streams} {seen : Transcript}

theorem takesAll_nil : streams.TakesAll seen [] := by
  intro before event after h
  simp at h

theorem takesAll_cons_iff {event : Event} {rest : Transcript} :
    streams.TakesAll seen (event :: rest) ↔
      ¬ streams.Refuses seen event ∧ streams.TakesAll (seen ++ [event]) rest := by
  constructor
  · intro h
    refine ⟨by simpa using h [] event rest rfl, fun before other after hsplit => ?_⟩
    simpa using h (event :: before) other after (by rw [hsplit]; rfl)
  · rintro ⟨hfirst, hrest⟩ before other after hsplit
    cases before with
    | nil =>
      obtain ⟨rfl, -⟩ := List.cons_eq_cons.mp hsplit
      simpa using hfirst
    | cons head before =>
      obtain ⟨rfl, hothers⟩ := List.cons_eq_cons.mp hsplit
      simpa using hrest before other after hothers

theorem takesAll_append_iff {first second : Transcript} :
    streams.TakesAll seen (first ++ second) ↔
      streams.TakesAll seen first ∧ streams.TakesAll (seen ++ first) second := by
  induction first generalizing seen with
  | nil => simp [takesAll_nil]
  | cons event rest ih => simp [takesAll_cons_iff, ih, and_assoc]

/-- Events that the streams have no part in are taken by all. -/
theorem takesAll_of_not_written {transcript : Transcript}
    (h : ∀ event ∈ transcript, event.isWritten = false) : streams.TakesAll seen transcript := by
  rintro before event after rfl ⟨hwritten, -⟩
  rw [h event (by simp)] at hwritten
  cases hwritten

theorem refusal?_cons_of_refuses {event : Event} {rest : Transcript}
    (h : streams.Refuses seen event) :
    streams.refusal? seen (event :: rest) = some (seen, event) := by
  simp [refusal?, h.1, h.2]

theorem refusal?_cons_of_not_refuses {event : Event} {rest : Transcript}
    (h : ¬ streams.Refuses seen event) :
    streams.refusal? seen (event :: rest) = streams.refusal? (seen ++ [event]) rest := by
  rw [refusal?, if_neg]
  simpa [Refuses] using h

theorem takesAll_of_refusal?_eq_none {transcript : Transcript}
    (h : streams.refusal? seen transcript = none) : streams.TakesAll seen transcript := by
  induction transcript generalizing seen with
  | nil => exact takesAll_nil
  | cons event rest ih =>
    by_cases hrefuses : streams.Refuses seen event
    · rw [refusal?_cons_of_refuses hrefuses] at h
      cases h
    · rw [refusal?_cons_of_not_refuses hrefuses] at h
      exact takesAll_cons_iff.mpr ⟨hrefuses, ih h⟩

theorem of_refusal?_eq_some {transcript taken : Transcript} {event : Event}
    (h : streams.refusal? seen transcript = some (taken, event)) :
    ∃ before, taken = seen ++ before ∧ before ++ [event] <+: transcript ∧
      streams.TakesAll seen before ∧ streams.Refuses (seen ++ before) event := by
  induction transcript generalizing seen with
  | nil => cases h
  | cons first rest ih =>
    by_cases hrefuses : streams.Refuses seen first
    · rw [refusal?_cons_of_refuses hrefuses] at h
      cases h
      exact ⟨[], by simp, by simp, takesAll_nil, by simpa using hrefuses⟩
    · rw [refusal?_cons_of_not_refuses hrefuses] at h
      obtain ⟨before, rfl, hbegins, htaken, hevent⟩ := ih h
      refine ⟨first :: before, by simp, ?_, takesAll_cons_iff.mpr ⟨hrefuses, htaken⟩, ?_⟩
      · exact (List.prefix_cons_inj first).mpr hbegins
      · simpa using hevent

end Streams

/-! ## §2 Deliveries -/

open Streams (takesAll_append_iff takesAll_nil)

/-- What the streams make of a run with this outcome. -/
inductive Delivered (streams : Streams) (seen : Transcript) (outcome : Outcome) : Delivery → Prop
  | whole (htaken : streams.TakesAll seen outcome.transcript) :
      Delivered streams seen outcome (.whole outcome)
  | refused {before : Transcript} {event : Event}
      (hbegins : before ++ [event] <+: outcome.transcript)
      (htaken : streams.TakesAll seen before) (hrefused : streams.Refuses (seen ++ before) event)
      (shell : Shell) : Delivered streams seen outcome (.refused shell (seen ++ before) event)

variable {streams : Streams} {seen : Transcript} {outcome : Outcome} {delivery : Delivery}

theorem delivered_deliver (streams : Streams) (seen : Transcript) (outcome : Outcome) :
    Delivered streams seen outcome (outcome.deliver streams seen) := by
  unfold Outcome.deliver
  split
  · next hnone => exact .whole (Streams.takesAll_of_refusal?_eq_none hnone)
  · next taken event hsome =>
    obtain ⟨before, rfl, hbegins, htaken, hrefused⟩ := Streams.of_refusal?_eq_some hsome
    exact .refused hbegins htaken hrefused outcome.shell

namespace Delivered

/-- Where the streams take all that a run writes, it is the same run. -/
theorem eq_whole (h : Delivered streams seen outcome delivery)
    (htakes : streams.TakesAll seen outcome.transcript) : delivery = .whole outcome := by
  cases h with
  | whole _ => rfl
  | refused hbegins _ hrefused shell =>
    obtain ⟨after, hsplit⟩ := hbegins
    exact absurd hrefused (htakes _ _ after (by simp [← hsplit]))

theorem after {events : Transcript} (h : Delivered streams (seen ++ events) outcome delivery)
    (hevents : streams.TakesAll seen events) :
    Delivered streams seen (outcome.after events) (delivery.after events) := by
  cases h with
  | whole htaken => exact .whole (takesAll_append_iff.mpr ⟨hevents, htaken⟩)
  | refused hbegins htaken hrefused shell =>
    rw [Delivery.after, List.append_assoc]
    rw [List.append_assoc] at hrefused
    refine .refused ?_ (takesAll_append_iff.mpr ⟨hevents, htaken⟩) hrefused shell
    rw [Outcome.after_transcript, List.append_assoc]
    exact (List.prefix_append_right_inj events).mpr hbegins

/-- **Deliveries one after the other.** What is delivered of two steps is what
is delivered of the first and, if that returned and was taken, of the second
behind it. -/
theorem andThen (h : Delivered streams seen outcome delivery) {next : Shell → Int → Outcome}
    {following : Transcript → Shell → Int → Delivery}
    (hnext : ∀ seen shell status,
      Delivered streams seen (next shell status) (following seen shell status)) :
    Delivered streams seen (outcome.andThen next) (delivery.andThen seen following) := by
  obtain ⟨shell, transcript, ending⟩ := outcome
  cases h with
  | whole htaken =>
    cases ending with
    | left status => exact .whole htaken
    | broken breakdown => exact .whole htaken
    | returned status =>
      rw [Outcome.andThen_returned]
      exact (hnext (seen ++ transcript) shell status).after htaken
  | refused hbegins htaken hrefused stopped =>
    cases ending with
    | left status => exact .refused hbegins htaken hrefused stopped
    | broken breakdown => exact .refused hbegins htaken hrefused stopped
    | returned status =>
      rw [Outcome.andThen_returned]
      exact .refused (hbegins.trans (List.prefix_append _ _)) htaken hrefused stopped

theorem settle (h : Delivered streams seen outcome delivery) :
    Delivered streams seen
      (outcome.andThen fun shell status =>
        ⟨{ shell with lastStatus := status }, [], .returned status⟩) (delivery.settle seen) :=
  h.andThen fun _ _ _ => .whole takesAll_nil

end Delivered

/-! ## §3 Commands, lines and loops -/

namespace Shell

theorem delivered_deliverCommand (shell : Shell) (streams : Streams) (seen : Transcript)
    (words : List String) :
    Delivered streams seen (shell.runCommand words) (shell.deliverCommand streams seen words) :=
  (delivered_deliver streams seen _).settle

theorem delivered_deliverCommands (shell : Shell) (streams : Streams) (seen : Transcript)
    (status : Int) (commands : List Command) :
    Delivered streams seen (shell.runCommands status commands)
      (shell.deliverCommands streams seen status commands) := by
  induction commands generalizing shell seen status with
  | nil => exact .whole takesAll_nil
  | cons command rest ih =>
    rw [runCommands, deliverCommands]
    split
    · exact ih shell seen status
    · exact (delivered_deliverCommand shell streams seen command.words).andThen
        fun seen shell status => ih shell seen status

/-- **A line is delivered up to the first text that is refused**, and wholly if
none is. -/
theorem delivered_deliverLine (shell : Shell) (streams : Streams) (seen : Transcript)
    (line : String) :
    Delivered streams seen (shell.executeLine line) (shell.deliverLine streams seen line) := by
  unfold executeLine deliverLine
  cases Command.ofLine line with
  | error error => exact (delivered_deliver streams seen _).settle
  | ok commands => exact delivered_deliverCommands _ streams seen _ commands

theorem delivered_deliverLines (shell : Shell) (streams : Streams) (seen : Transcript)
    (lines : List String) :
    Delivered streams seen (shell.runLines lines) (shell.deliverLines streams seen lines) := by
  induction lines generalizing shell seen with
  | nil => exact .whole takesAll_nil
  | cons line rest ih =>
    rw [runLines, deliverLines]
    exact (delivered_deliverLine shell streams seen line).andThen fun seen shell _ => ih shell seen

theorem delivered_deliverInput (shell : Shell) (streams : Streams) (seen : Transcript)
    (reads : List Read) :
    Delivered streams seen (shell.runInput reads) (shell.deliverInput streams seen reads) := by
  have hread : ∀ seen, streams.TakesAll seen [.read] := fun seen =>
    Streams.takesAll_of_not_written (by simp [Event.isWritten])
  induction reads generalizing shell seen with
  | nil => exact .whole (hread seen)
  | cons read rest ih =>
    cases read with
    | interrupt => exact .whole (hread seen)
    | line text =>
      rw [runInput, deliverInput]
      split
      · exact .whole (hread seen)
      · refine .after ?_ (hread seen)
        exact (delivered_deliverLine shell streams _ text).andThen fun seen shell _ => ih shell seen

end Shell

/-! ## §4 The frame -/

@[simp] theorem Outcome.shell_deliver (streams : Streams) (seen : Transcript) (outcome : Outcome) :
    (outcome.deliver streams seen).shell = outcome.shell := by
  unfold deliver
  split <;> rfl

@[simp] theorem Delivery.shell_after (events : Transcript) (delivery : Delivery) :
    (delivery.after events).shell = delivery.shell := by
  cases delivery <;> rfl

namespace Shell

theorem Frame.deliveryAndThen {shell : Shell} (h : Frame shell delivery.shell)
    {next : Transcript → Shell → Int → Delivery}
    (hnext : ∀ seen shell status, Frame shell (next seen shell status).shell)
    (seen : Transcript) : Frame shell (delivery.andThen seen next).shell := by
  cases delivery with
  | refused stopped taken event => exact h
  | whole outcome =>
    unfold Delivery.andThen
    dsimp only
    split
    · exact h
    · exact h
    · rw [Delivery.shell_after]
      exact h.trans (hnext _ _ _)

theorem Frame.settle {shell : Shell} (h : Frame shell delivery.shell) (seen : Transcript) :
    Frame shell (delivery.settle seen).shell :=
  h.deliveryAndThen (fun _ _ _ => ⟨rfl, rfl, rfl, rfl, rfl⟩) seen

theorem frame_deliverCommand (shell : Shell) (streams : Streams) (seen : Transcript)
    (words : List String) : Frame shell (shell.deliverCommand streams seen words).shell := by
  refine Frame.settle ?_ seen
  rw [Outcome.shell_deliver]
  exact frame_runPrepared shell (shell.prepare words)

theorem frame_deliverCommands (shell : Shell) (streams : Streams) (seen : Transcript)
    (status : Int) (commands : List Command) :
    Frame shell (shell.deliverCommands streams seen status commands).shell := by
  induction commands generalizing shell seen status with
  | nil => exact Frame.refl shell
  | cons command rest ih =>
    rw [deliverCommands]
    split
    · exact ih shell seen status
    · exact (frame_deliverCommand shell streams seen command.words).deliveryAndThen
        (fun seen shell status => ih shell seen status) seen

/-- A line is counted, and keeps to the frame otherwise, also where it is
refused a text. -/
theorem frame_deliverLine (shell : Shell) (streams : Streams) (seen : Transcript)
    (line : String) :
    Frame { shell with lineNumber := shell.lineNumber + 1 }
      (shell.deliverLine streams seen line).shell := by
  unfold deliverLine
  dsimp only
  split
  · refine Frame.settle ?_ seen
    rw [Outcome.shell_deliver]
    exact Frame.refl _
  · exact frame_deliverCommands _ streams seen _ _

end Shell

end CommandShell
