import Coap.Block
import Coap.Message.Basic
import Coap.Table
import Coap.Transfer.Report

namespace Coap

/-!
# Inbound transfers

Blocks arrive in any order and any number of times. The first block that no
other follows tells the last number. The transfer counts as complete once more
blocks have arrived than that number; the data is what the blocks up to the last
one hold, in the order of their numbers.
-/

/-- The state of an inbound transfer. -/
structure ReceiveState where
  /-- The data of each block that has arrived. -/
  blocks : Table UInt32 (List UInt8) := []
  lastBlock : Option UInt32 := none
  received : UInt32 := 0
  duplicates : UInt32 := 0
  /-- The message that brought the first block; its code follows later ones. -/
  initiating : Message
  stats : TransferStats
deriving DecidableEq

namespace ReceiveState

/-- A transfer opened by `initiating`. -/
def start
    (now : Timestamp)
    (initiating : Message) :
    ReceiveState :=
  { initiating := initiating
    stats := TransferStats.startingAt now true }

/-- Whether enough blocks have arrived. -/
def isCompleted (state : ReceiveState) : Bool :=
  match state.lastBlock with
  | some last => decide (last < state.received)
  | none => false

/--
Let the initiating message take the code of a later one, unless that says to go on.
-/
def noteCode
    (state : ReceiveState)
    (code : Code) :
    ReceiveState :=
  if code = .continued then state
  else { state with initiating := { state.initiating with code := code } }

/-- Keep the data of a block that has not arrived before. -/
def keep
    (state : ReceiveState)
    (block : Block) :
    ReceiveState :=
  { state with
    blocks := state.blocks.put block.number block.data
    lastBlock := if block.more then state.lastBlock else some block.number
    received := state.received + 1
    stats := state.stats.onMessage }

/-- Note the time taken if the transfer is complete. -/
def noteCompletion
    (state : ReceiveState)
    (now : Timestamp) :
    ReceiveState :=
  if state.isCompleted then { state with stats := state.stats.onCompleted now }
  else state

/-- Count a block that has arrived before. -/
def countDuplicate (state : ReceiveState) : ReceiveState :=
  { state with
    duplicates := state.duplicates + 1
    stats := state.stats.onResend }

/-- Take in one block carried by a message with `code`. -/
def accept
    (state : ReceiveState)
    (now : Timestamp)
    (block : Block)
    (code : Code) :
    ReceiveState :=
  let state := state.noteCode code
  if (state.blocks.find? block.number).isSome then state.countDuplicate
  else (state.keep block).noteCompletion now

/-- Insert a block before the first one with a larger number. -/
def insertByNumber
    (block : UInt32 × List UInt8) :
    List (UInt32 × List UInt8) →
    List (UInt32 × List UInt8)
  | [] => [block]
  | head :: rest =>
      if block.1 < head.1 then block :: head :: rest
      else head :: insertByNumber block rest

/-- The blocks that have arrived, in the order of their numbers. -/
def blocksInOrder (state : ReceiveState) : List (UInt32 × List UInt8) :=
  state.blocks.foldr insertByNumber []

/-- The data up to the last block, once that one is known. -/
def data? (state : ReceiveState) : Option (List UInt8) :=
  state.lastBlock.map fun last =>
    (state.blocksInOrder.filter fun block => block.1 ≤ last).flatMap Prod.snd

/-- How many bytes have arrived. -/
def dataSize (state : ReceiveState) : Nat :=
  (state.blocks.flatMap Prod.snd).length

/-- What the counters say. -/
def report (state : ReceiveState) : TransferReport :=
  state.stats.report state.dataSize

end ReceiveState

end Coap
