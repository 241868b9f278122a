import Coap.Transfer.Report

namespace Coap

/-!
# Quantities for people

Sizes are written in the largest unit of 1024 steps that they reach, lengths of
time in milliseconds, seconds, or minutes and seconds. A transfer is summed up in
one line.
-/

namespace Quantity

/-- A size in a unit of bytes, with two places. -/
def inUnit
    (bytes unit : Nat)
    (name : String) :
    String :=
  let nearest := Decimal.Fraction.nearestBinary ⟨bytes, 1⟩
  Decimal.Fraction.display
    ⟨nearest.numerator, nearest.denominator * unit⟩ 2 ++ " " ++ name

/-- A number of bytes. -/
def bytes (count : Nat) : String :=
  if 1073741824 ≤ count then inUnit count 1073741824 "GB"
  else if 1048576 ≤ count then inUnit count 1048576 "MB"
  else if 1024 ≤ count then inUnit count 1024 "KB"
  else toString count ++ " B"

/-- A number of bytes per second. -/
def speed (bytesPerSecond : Nat) : String :=
  bytes bytesPerSecond ++ "/s"

/-- A length of time given in nanoseconds. -/
def duration (nanos : Nat) : String :=
  if Nanos.toMillis nanos < 1000 then toString (Nanos.toMillis nanos) ++ "ms"
  else
    let secs := Nanos.toSecs nanos
    if 0 < secs / 60 then
      toString (secs / 60) ++ "m " ++ Decimal.natural 2 (secs % 60) ++ "s"
    else (Decimal.Fraction.seconds nanos).fixed 2 ++ "s"

end Quantity

namespace TransferReport

/-- The transfer in one line. -/
def text (report : TransferReport) : String :=
  let direction := if report.incoming then "received" else "sent"
  let took :=
    report.elapsed.elim "" fun nanos => ", took " ++ Quantity.duration nanos
  let speed := report.speed.elim "" fun speed => " (" ++ Quantity.speed speed ++ ")"
  let loss := report.loss.elim "" fun loss => ", loss " ++ loss.display 1 ++ "%"
  direction ++ " " ++ Quantity.bytes report.dataSize ++ " in " ++
    toString report.messages ++
    " blocks, " ++ toString report.resends ++ " resends" ++ took ++ speed ++ loss

end TransferReport

end Coap
