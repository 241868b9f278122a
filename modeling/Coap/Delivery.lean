import Coap.Transfer.Report

namespace Coap

/-!
# Delivery telemetry

For each token the pool counts how often a message was handed out for sending,
directly or through a proxy, and how many of those hand-outs repeated an earlier
one. A fragmented exchange adds the report of its transfer.
-/

/-- Telemetry of one token. -/
structure Delivery where
  /-- Hand-outs that repeated an earlier one. -/
  retransmits : UInt32 := 0
  /-- Hand-outs through a proxy. -/
  viaProxy : UInt32 := 0
  /-- Hand-outs straight to the destination. -/
  direct : UInt32 := 0
  transfer : Option TransferReport := none
deriving DecidableEq, Repr

namespace Delivery

/-- The number of hand-outs. -/
def attempts (delivery : Delivery) : UInt32 :=
  delivery.viaProxy + delivery.direct

/-- Retransmits among all hand-outs in percent. -/
def retransmitPercent (delivery : Delivery) : Decimal.Fraction :=
  if delivery.attempts = 0 then ⟨0, 1⟩
  else ⟨delivery.retransmits.toNat * 100, delivery.attempts.toNat⟩

/-- Count one hand-out. -/
def countHandOut
    (delivery : Delivery)
    (throughProxy retransmit : Bool) :
    Delivery :=
  { delivery with
    viaProxy := delivery.viaProxy + (if throughProxy then 1 else 0)
    direct := delivery.direct + (if throughProxy then 0 else 1)
    retransmits := delivery.retransmits + (if retransmit then 1 else 0) }

end Delivery

end Coap
