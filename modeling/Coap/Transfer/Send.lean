import Coap.Block
import Coap.Message.Basic
import Coap.Transfer.Report
import Coap.Window

namespace Coap

/-!
# Outbound transfers

The payload is cut into blocks of one size, the last one shorter if need be. A
window over the block numbers decides which block may go out: it starts one full
window before block 0 with every slot confirmed, so the first blocks can be
popped at once; each confirmation in the window's first slots lets it move up,
and each move releases the block at its tail.
-/

/-- The state of an outbound transfer. -/
structure SendState where
  data : List UInt8
  blockSize : Nat
  /-- Which block numbers in the window are confirmed. -/
  window : Window Unit
  /-- The message that is sent in blocks. -/
  whole : Message
  stats : TransferStats
deriving DecidableEq

namespace SendState

/--
What a machine word of 64 bits keeps of a number computed for `length` bytes of
data. A buffer holds fewer than `2 ^ 63` bytes; of a longer list, which no buffer
holds, the number stays as it is.
-/
def word
    (length number : Nat) :
    Nat :=
  if length < UInt64.size / 2 then number % UInt64.size else number

/--
How many blocks of `blockSize` bytes hold `length` bytes. The sum is one of machine
words; with a block size close to the largest word it wraps around.
-/
def blockCount
    (length blockSize : Nat) :
    Nat :=
  word length (length + blockSize - 1) / blockSize

/--
Start a transfer behind a window of at most `windowSize` blocks. The block size
must be positive; `start?` checks that.
-/
def start
    (now : Timestamp)
    (data : List UInt8)
    (windowSize blockSize : Nat)
    (whole : Message) :
    SendState :=
  let size := min windowSize (blockCount data.length blockSize)
  { data := data
    blockSize := blockSize
    window := Window.filled size (-(size : Int)) ()
    whole := whole
    stats := TransferStats.startingAt now false }

/-- Start a transfer, unless the block size is zero and cannot cut anything. -/
def start?
    (now : Timestamp)
    (data : List UInt8)
    (windowSize blockSize : Nat)
    (whole : Message) :
    Option SendState :=
  if blockSize = 0 then none
  else some (start now data windowSize blockSize whole)

/-- The block with a number, if the data reaches that far. -/
def block?
    (state : SendState)
    (number : Nat) :
    Option Block :=
  let first := number * state.blockSize
  if state.data.length ≤ first then none
  else
    some
      (Block.ofData
        (UInt32.ofNat number)
        ((state.data.drop first).take state.blockSize)
        (decide (first + state.blockSize < state.data.length)))

/-- The next block the window releases; past the end of the data there is none. -/
def pop? (state : SendState) : Option Block × SendState :=
  match state.window.advance with
  | (none, _) => (none, state)
  | (some _, window) =>
      (state.block? window.tail.toNat, { state with window := window })

/-- Pop blocks until there is none, at most `limit` of them. -/
def popMany :
    Nat →
    SendState →
    List Block × SendState
  | 0, state => ([], state)
  | limit + 1, state =>
      match state.pop? with
      | (none, state) => ([], state)
      | (some block, state) =>
          let (others, state) := popMany limit state
          (block :: others, state)

/--
Pop blocks until there is none. Every pop uses up one of the leading filled slots
of the window, so their number bounds the pops.
-/
def popAll (state : SendState) : List Block × SendState :=
  popMany state.window.leadingFilled state

/-- Note that block `number` is confirmed. -/
def confirm
    (state : SendState)
    (number : UInt32) :
    SendState :=
  { state with window := state.window.set (number.toNat : Int) () }

/--
Note that the blocks from `first` up to but not including `last` are confirmed.
-/
def confirmRange
    (state : SendState)
    (first last : Nat) :
    SendState :=
  (List.range (last - first)).foldl
    (fun state index => state.confirm (UInt32.ofNat (first + index)))
    state

/-- How many blocks are confirmed without a gap from block 0. -/
def confirmedCount (state : SendState) : Nat :=
  (state.window.offset + state.window.leadingFilled).toNat

/--
Whether the confirmed blocks cover all data; the product is one of machine words.
-/
def isCompleted (state : SendState) : Bool :=
  decide
    (state.data.length ≤
      word state.data.length (state.confirmedCount * state.blockSize))

/-- The number of blocks in the window. -/
def windowSize (state : SendState) : Nat :=
  state.window.size

/-- What the counters say. -/
def report (state : SendState) : TransferReport :=
  state.stats.report state.data.length

/-- Count a message. -/
def onMessage (state : SendState) : SendState :=
  { state with stats := state.stats.onMessage }

/-- Count a resend. -/
def onResend (state : SendState) : SendState :=
  { state with stats := state.stats.onResend }

/-- Note the time taken. -/
def onCompleted
    (state : SendState)
    (now : Timestamp) :
    SendState :=
  { state with stats := state.stats.onCompleted now }

end SendState

end Coap
