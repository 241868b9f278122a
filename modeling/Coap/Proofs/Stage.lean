import Coap.Stage
import Mathlib.Tactic.Common

namespace Coap

/-!
# How stacks compose

A message in transit carries with it all that a stage may change: the state that
the stages share, the message itself and the address cell. A run passes it from
stage to stage. It ends behind the last stage, or at the first stage that stops
the message or gives it up, and then no later stage has a say.

Which stages a run has asked cannot be read off its outcome. Each stage is
therefore also run in a form that writes down that it has been asked.
-/

/-- A message on its way through a stack. -/
structure Transit (σ : Type) where
  state : σ
  message : Message
  cell : Option SocketAddress

namespace Passage

variable {σ : Type}

/-- The message as the next stage receives it. -/
def onward
    (passage : Passage σ)
    (verdict : Verdict) : Transit σ :=
  ⟨passage.state, verdict.replacement.getD passage.message, passage.cell⟩

/-- A run that ends with this passage. -/
def ending
    (passage : Passage σ)
    (result : Except StageError Dispatch) : StackRun σ :=
  ⟨passage.state, passage.cell, result⟩

end Passage

namespace Stage

variable {σ : Type}

/-- What the stage makes of a message in transit. -/
def handle
    (stage : Stage σ)
    (transit : Transit σ) : Passage σ :=
  stage.run transit.state transit.message transit.cell

/-- Run stages over a message in transit. -/
def process
    (stages : List (Stage σ))
    (start : Transit σ) : StackRun σ :=
  runAll stages start.state start.message start.cell

/-! ### One stage -/

/-- A stage that gives the message up ends the run. -/
theorem process_cons_of_error
    {stage : Stage σ}
    (rest : List (Stage σ))
    {start : Transit σ}
    {cause : StageError}
    (handled : (stage.handle start).result = .error cause) :
    process (stage :: rest) start =
      (stage.handle start).ending (.error cause) := by
  simp only [handle] at handled
  simp [process, runAll, handle, handled, Passage.ending]

/-- A stage that stops the message ends the run. -/
theorem process_cons_of_stop
    {stage : Stage σ}
    (rest : List (Stage σ))
    {start : Transit σ}
    {verdict : Verdict}
    (handled : (stage.handle start).result = .ok verdict)
    (stops : verdict.proceed = false) :
    process (stage :: rest) start =
      (stage.handle start).ending
        (.ok ⟨false, verdict.replacement.getD (stage.handle start).message⟩) := by
  simp only [handle] at handled
  simp [process, runAll, handle, handled, stops, Passage.ending]

/-- A stage that lets the message through hands the run on to those behind it. -/
theorem process_cons_of_proceed
    {stage : Stage σ}
    (rest : List (Stage σ))
    {start : Transit σ}
    {verdict : Verdict}
    (handled : (stage.handle start).result = .ok verdict)
    (proceeds : verdict.proceed = true) :
    process (stage :: rest) start =
      process rest ((stage.handle start).onward verdict) := by
  simp only [handle] at handled
  simp [process, runAll, handle, handled, proceeds, Passage.onward]

/-! ### How a run ends -/

/-- Every stage lets the message through. -/
inductive Passes : List (Stage σ) → Transit σ → Transit σ → Prop
  | arrived
      (transit : Transit σ) :
      Passes [] transit transit
  | onward
      {stage : Stage σ}
      {rest : List (Stage σ)}
      {transit final : Transit σ}
      {verdict : Verdict}
      (handled : (stage.handle transit).result = .ok verdict)
      (proceeds : verdict.proceed = true)
      (passes : Passes rest ((stage.handle transit).onward verdict) final) :
      Passes (stage :: rest) transit final

/-- How a run over stages may end, with the stages that it has asked. -/
inductive Concludes
    (stages : List (Stage σ))
    (start : Transit σ) : List (Stage σ) → StackRun σ → Prop
  /-- All stages have let the message through. -/
  | through
      {final : Transit σ}
      (passes : Passes stages start final) :
      Concludes stages start stages
        ⟨final.state, final.cell, .ok ⟨true, final.message⟩⟩
  /-- One has stopped it, as it had rewritten or replaced it. -/
  | stopped
      {earlier spared : List (Stage σ)}
      {last : Stage σ}
      {transit : Transit σ}
      {verdict : Verdict}
      (split : stages = earlier ++ last :: spared)
      (passes : Passes earlier start transit)
      (handled : (last.handle transit).result = .ok verdict)
      (stops : verdict.proceed = false) :
      Concludes stages start (earlier ++ [last])
        ((last.handle transit).ending
          (.ok ⟨false, verdict.replacement.getD (last.handle transit).message⟩))
  /-- One has given it up. -/
  | failed
      {earlier spared : List (Stage σ)}
      {last : Stage σ}
      {transit : Transit σ}
      {cause : StageError}
      (split : stages = earlier ++ last :: spared)
      (passes : Passes earlier start transit)
      (handled : (last.handle transit).result = .error cause) :
      Concludes stages start (earlier ++ [last])
        ((last.handle transit).ending (.error cause))

/--
A stage that lets the message through leaves the rest to the stages behind it.
-/
theorem Concludes.cons
    {stage : Stage σ}
    {rest asked : List (Stage σ)}
    {start : Transit σ}
    {verdict : Verdict}
    {run : StackRun σ}
    (handled : (stage.handle start).result = .ok verdict)
    (proceeds : verdict.proceed = true)
    (concludes :
      Concludes rest ((stage.handle start).onward verdict) asked run) :
    Concludes (stage :: rest) start (stage :: asked) run := by
  cases concludes with
  | through passes =>
      exact .through (.onward handled proceeds passes)
  | stopped split passes stopped stops =>
      subst split
      exact .stopped rfl (.onward handled proceeds passes) stopped stops
  | failed split passes failed =>
      subst split
      exact .failed rfl (.onward handled proceeds passes) failed

/-! ### Which stages are asked -/

/-- The stage in a form that writes down that it has been asked. -/
def recorded (stage : Stage σ) : Stage (σ × List (Stage σ)) where
  name := stage.name
  run state message cell :=
    let passage := stage.run state.1 message cell
    { state := (passage.state, state.2 ++ [stage])
      message := passage.message
      cell := passage.cell
      result := passage.result }

end Stage

/-- The message in transit with a record of the stages asked so far. -/
def Transit.recording
    {σ : Type}
    (transit : Transit σ)
    (log : List (Stage σ)) : Transit (σ × List (Stage σ)) :=
  ⟨(transit.state, log), transit.message, transit.cell⟩

namespace StackRun

variable {σ : Type}

/-- The message that the run lets through, if it does. -/
def exit? (run : StackRun σ) : Option (Transit σ) :=
  match run.result with
  | .ok ⟨true, message⟩ => some ⟨run.state, message, run.cell⟩
  | _ => none

/-- The run with a record of the stages asked. -/
def recording
    (run : StackRun σ)
    (log : List (Stage σ)) : StackRun (σ × List (Stage σ)) :=
  ⟨(run.state, log), run.cell, run.result⟩

theorem exit?_recording
    (run : StackRun σ)
    (log : List (Stage σ)) :
    (run.recording log).exit? = run.exit?.map (·.recording log) := by
  rcases run with ⟨state, cell, _ | ⟨_ | _, message⟩⟩ <;> rfl

end StackRun

namespace Stage

variable {σ : Type}

/-- The stages that a run asks, in order. -/
def asked
    (stages : List (Stage σ))
    (start : Transit σ) : List (Stage σ) :=
  (process (stages.map recorded) (start.recording [])).state.2

/--
A run ends in one of the three ways, and writing down which stages are asked
changes nothing about it.
-/
theorem exists_concludes
    (stages : List (Stage σ))
    (start : Transit σ) :
    ∃ named,
      Concludes stages start named (process stages start) ∧
        ∀ log,
          process (stages.map recorded) (start.recording log) =
            (process stages start).recording (log ++ named) := by
  induction stages generalizing start with
  | nil =>
      refine ⟨[], .through (.arrived start), fun log => ?_⟩
      rw [List.append_nil]
      rfl
  | cons stage rest inductionHypothesis =>
      have atOnce : stage :: rest = [] ++ stage :: rest := rfl
      rcases handled : (stage.handle start).result with cause | verdict
      · refine ⟨[stage], ?_, fun log => ?_⟩
        · rw [process_cons_of_error rest handled]
          exact .failed atOnce (.arrived start) handled
        · rw [process_cons_of_error rest handled]
          exact @process_cons_of_error _ stage.recorded _
            (start.recording log) cause handled
      · by_cases proceeds : verdict.proceed = true
        · obtain ⟨named, concludes, agrees⟩ :=
            inductionHypothesis ((stage.handle start).onward verdict)
          rw [process_cons_of_proceed rest handled proceeds]
          refine ⟨stage :: named, concludes.cons handled proceeds, fun log => ?_⟩
          rw [List.append_cons, ← agrees]
          exact @process_cons_of_proceed _ stage.recorded _
            (start.recording log) verdict handled proceeds
        · have stops : verdict.proceed = false := eq_false_of_ne_true proceeds
          refine ⟨[stage], ?_, fun log => ?_⟩
          · rw [process_cons_of_stop rest handled stops]
            exact .stopped atOnce (.arrived start) handled stops
          · rw [process_cons_of_stop rest handled stops]
            exact @process_cons_of_stop _ stage.recorded _
              (start.recording log) verdict handled stops

/-- Recording adds the stages asked to whatever has been recorded before. -/
theorem process_recorded
    (stages log : List (Stage σ))
    (start : Transit σ) :
    process (stages.map recorded) (start.recording log) =
      (process stages start).recording (log ++ asked stages start) := by
  obtain ⟨named, concludes, agrees⟩ := exists_concludes stages start
  rw [asked, agrees, agrees]
  rfl

/-- A run ends in one of the three ways. -/
theorem concludes_process
    (stages : List (Stage σ))
    (start : Transit σ) :
    Concludes stages start (asked stages start) (process stages start) := by
  obtain ⟨named, concludes, agrees⟩ := exists_concludes stages start
  rw [asked, agrees]
  exact concludes

/-! ### One stack behind another -/

/-- A stack behind another runs exactly if the message gets through the other. -/
theorem process_append
    (first second : List (Stage σ))
    (start : Transit σ) :
    process (first ++ second) start =
      match (process first start).exit? with
      | some transit => process second transit
      | none => process first start := by
  induction first generalizing start with
  | nil =>
      rfl
  | cons stage rest inductionHypothesis =>
      rw [List.cons_append]
      rcases handled : (stage.handle start).result with cause | verdict
      · rw [process_cons_of_error _ handled, process_cons_of_error _ handled]
        rfl
      · by_cases proceeds : verdict.proceed = true
        · rw [process_cons_of_proceed _ handled proceeds,
            process_cons_of_proceed _ handled proceeds]
          exact inductionHypothesis _
        · have stops : verdict.proceed = false := eq_false_of_ne_true proceeds
          rw [process_cons_of_stop _ handled stops,
            process_cons_of_stop _ handled stops]
          rfl

/-- The stages of the stack behind are asked exactly if the message gets through. -/
theorem asked_append
    (first second : List (Stage σ))
    (start : Transit σ) :
    asked (first ++ second) start =
      asked first start ++
        match (process first start).exit? with
        | some transit => asked second transit
        | none => [] := by
  have joined :=
    process_append (first.map recorded) (second.map recorded) (start.recording [])
  rw [process_recorded, StackRun.exit?_recording, List.nil_append] at joined
  rw [asked, List.map_append, joined]
  cases (process first start).exit? with
  | none =>
      exact (List.append_nil _).symm
  | some transit =>
      simp only [Option.map_some]
      rw [process_recorded]
      rfl

end Stage

/-! ### Stacks -/

/-- The two ways through a stack. -/
inductive Direction where
  | outbound
  | inbound
deriving DecidableEq, Repr

namespace Stack

variable {σ : Type}

/-- The stages that a message passes on its way. -/
def stages
    (stack : Stack σ) : Direction → List (Stage σ)
  | .outbound => stack.send
  | .inbound => stack.receive

/-- One stack behind another, in both directions. -/
instance : Append (Stack σ) where
  append first second :=
    ⟨first.send ++ second.send, first.receive ++ second.receive⟩

theorem stages_append
    (first second : Stack σ)
    (direction : Direction) :
    (first ++ second).stages direction =
      first.stages direction ++ second.stages direction := by
  cases direction <;> rfl

/--
Stacks compose, in both directions. A message passes two stacks one after the
other as it passes the first one and then, exactly if that lets it through, the
second one from where the first one has left it. On the whole way no stage is
asked behind the first one that stops the message or gives it up, and the run
ends with what this one makes of state, message and cell.
-/
theorem process_append_concludes
    (first second : Stack σ)
    (direction : Direction)
    (start : Transit σ) :
    let whole := (first ++ second).stages direction
    let before := Stage.process (first.stages direction) start
    Stage.process whole start =
        (match before.exit? with
          | some transit => Stage.process (second.stages direction) transit
          | none => before) ∧
      Stage.asked whole start =
        Stage.asked (first.stages direction) start ++
          (match before.exit? with
            | some transit => Stage.asked (second.stages direction) transit
            | none => []) ∧
      Stage.Concludes whole start
        (Stage.asked whole start)
        (Stage.process whole start) := by
  intro whole before
  have split : whole = first.stages direction ++ second.stages direction :=
    stages_append first second direction
  refine ⟨?_, ?_, Stage.concludes_process whole start⟩
  · rw [split]
    apply Stage.process_append
  · rw [split]
    apply Stage.asked_append

end Stack

end Coap
