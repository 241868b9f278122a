namespace Coap

/-!
# Wire errors

Why a message cannot be written as a datagram, or a datagram cannot be read as a
message.
-/

/-- The causes, with the quantities their texts report. -/
inductive WireError where
  | insufficientData (expected actual : Nat)
  | invalidVersion (version : Nat)
  | invalidTokenLength (length : Nat)
  | tokenTooLong (length : Nat)
  | unknownCode (byte : UInt8)
  | reservedNibble
  | truncatedHeader
  | truncatedOption (number : UInt16) (expected actual : Nat)
  | optionNumberOverflow
  | optionTooLarge (size : Nat)
  | uintTooLong (length : Nat)
  | emptyPayload
deriving DecidableEq, Repr

/-- The text of a cause. -/
def WireError.message : WireError → String
  | .insufficientData expected actual =>
      s!"Insufficient data: expected {expected} bytes, got {actual}"
  | .invalidVersion version => s!"Unsupported protocol version: {version}"
  | .invalidTokenLength length => s!"Invalid token length: {length}"
  | .tokenTooLong length => s!"Token too long: {length} bytes"
  | .unknownCode byte => s!"Unknown message code: {byte.toNat}"
  | .reservedNibble => "Reserved option nibble"
  | .truncatedHeader => "Option header truncated"
  | .truncatedOption number expected actual =>
      s!"Option {number.toNat} truncated: expected {expected} bytes, got {actual}"
  | .optionNumberOverflow => "Option number overflow"
  | .optionTooLarge size => s!"Option delta or length too large: {size}"
  | .uintTooLong length => s!"Integer option too long: {length} bytes"
  | .emptyPayload => "Payload marker without payload"

end Coap
