import Coap.Decimal.Rounding
import Coap.Time

namespace Coap

/-!
# Statistics of transfers

A transfer counts its messages and its resends and notes how long it took. A
report is what the counters say at one moment.
-/

/-- Counters of one transfer. -/
structure TransferStats where
  started : Timestamp
  /-- How long the transfer took, in nanoseconds, once it is complete. -/
  elapsed : Option Nat := none
  messages : UInt32 := 0
  resends : UInt32 := 0
  incoming : Bool
deriving DecidableEq, Repr

/-- Telemetry of one transfer. -/
structure TransferReport where
  dataSize : Nat
  /-- How long the transfer took, in nanoseconds, once it is complete. -/
  elapsed : Option Nat
  /-- Bytes per second, once it is complete. -/
  speed : Option Nat
  /-- Resends among all messages in percent, if there were any messages. -/
  loss : Option Decimal.Signed
  messages : UInt32
  resends : UInt32
  incoming : Bool
deriving DecidableEq, Repr

namespace TransferStats

/-- The counters of a transfer that starts now. -/
def startingAt
    (now : Timestamp)
    (incoming : Bool) :
    TransferStats :=
  { started := now
    incoming := incoming }

/-- Count a message. -/
def onMessage (stats : TransferStats) : TransferStats :=
  { stats with messages := stats.messages + 1 }

/-- Count a resend. -/
def onResend (stats : TransferStats) : TransferStats :=
  { stats with resends := stats.resends + 1 }

/-- Note the time taken; later calls keep the first one. -/
def onCompleted
    (stats : TransferStats)
    (now : Timestamp) :
    TransferStats :=
  { stats with elapsed := some (stats.elapsed.getD (now.since stats.started)) }

/--
Bytes per second over a length of time; the bytes themselves if no time passed. The
quotient is one of binary numbers. Its fraction is cut off, and what does not fit 64
bits becomes the largest number that does.
-/
def bytesPerSecond
    (dataSize nanos : Nat) :
    Nat :=
  if nanos = 0 then dataSize
  else
    let bytes := Decimal.Fraction.nearestBinary ⟨dataSize, 1⟩
    let quotient := (bytes.div (Decimal.Fraction.seconds nanos)).nearestBinary
    min quotient.floor (UInt64.size - 1)

/-- What the counters say about a transfer of `dataSize` bytes. -/
def report
    (stats : TransferStats)
    (dataSize : Nat) :
    TransferReport :=
  { dataSize := dataSize
    elapsed := stats.elapsed
    speed := stats.elapsed.map (bytesPerSecond dataSize)
    loss :=
      if stats.messages = 0 then none
      else
        some
          { magnitude :=
              ⟨stats.resends.toNat * 100, (stats.resends + stats.messages).toNat⟩ }
    messages := stats.messages
    resends := stats.resends
    incoming := stats.incoming }

end TransferStats

end Coap
