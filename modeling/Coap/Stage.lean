import Coap.Failure

namespace Coap

/-!
# Stages and stacks

Messages pass through a stack of stages in order. A stage may change the message,
redirect it by setting an address cell, put another message in its place, stop
it, or give it up with an error. It may also change a state that it shares with
the other stages. Stacks compose: running two after each other is running their
concatenation, as long as the first one lets the message through.
-/

/-- What a stage decides about a message it does not give up. -/
structure Verdict where
  proceed : Bool
  /-- The message that later stages see in place of this one. -/
  replacement : Option Message := none
deriving DecidableEq, Repr

namespace Verdict

/-- Let the message through. -/
def pass : Verdict :=
  { proceed := true }

/-- Stop the message. -/
def stop : Verdict :=
  { proceed := false }

/-- Let another message through in its place. -/
def replace (message : Message) : Verdict :=
  { proceed := true
    replacement := some message }

end Verdict

/-- What one stage leaves behind. -/
structure Passage (σ : Type) where
  state : σ
  /-- The message as the stage changed it. -/
  message : Message
  /-- Where an outbound message goes, where an inbound one comes from. -/
  cell : Option SocketAddress
  result : Except StageError Verdict

/-- One stage over a shared state. -/
structure Stage (σ : Type) where
  name : String
  run : σ → Message → Option SocketAddress → Passage σ

/-- A message after a stack of stages. -/
structure Dispatch where
  /-- Every stage let the message through. -/
  proceed : Bool
  message : Message
deriving DecidableEq, Repr

/-- What a stack of stages leaves behind. -/
structure StackRun (σ : Type) where
  state : σ
  cell : Option SocketAddress
  result : Except StageError Dispatch

namespace Stage

variable {σ : Type}

/-- Run stages in order until one stops the message or gives it up. -/
def runAll :
    List (Stage σ) →
    σ →
    Message →
    Option SocketAddress →
    StackRun σ
  | [], state, message, cell =>
      { state := state
        cell := cell
        result := .ok ⟨true, message⟩ }
  | stage :: rest, state, message, cell =>
      let passage := stage.run state message cell
      match passage.result with
      | .error cause =>
          { state := passage.state
            cell := passage.cell
            result := .error cause }
      | .ok verdict =>
          let current := verdict.replacement.getD passage.message
          if verdict.proceed then runAll rest passage.state current passage.cell
          else
            { state := passage.state
              cell := passage.cell
              result := .ok ⟨false, current⟩ }

end Stage

/-- The stages of both directions. -/
structure Stack (σ : Type) where
  send : List (Stage σ) := []
  receive : List (Stage σ) := []

namespace Stack

variable {σ : Type}

/-- The names of the outbound stages. -/
def sendNames (stack : Stack σ) : List String :=
  stack.send.map Stage.name

/-- The names of the inbound stages. -/
def receiveNames (stack : Stack σ) : List String :=
  stack.receive.map Stage.name

end Stack

end Coap
