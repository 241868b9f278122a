import Coap.Message.Option
import Coap.Text.Lossy
import Coap.Wire.Number

namespace Coap.Wire

/-!
# Option values on the wire

A value is written by its own kind and read by the format of its number. Text
that is not well-formed UTF-8 and bytes where none are due are read as plain
bytes, so only an integer of more than eight bytes is refused.
-/

/-- The bytes of a value. -/
def encodeValue : OptionValue → List UInt8
  | .empty => []
  | .uint value => shortBigEndian value
  | .text value => Text.toBytes value
  | .bytes value => value

/-- Read a value in a format. -/
def decodeValue
    (format : OptionFormat)
    (bytes : List UInt8) :
    Except WireError OptionValue :=
  match format with
  | .empty => .ok (if bytes = [] then .empty else .bytes bytes)
  | .uint =>
      if 8 < bytes.length then .error (.uintTooLong bytes.length)
      else .ok (.uint (UInt64.ofNat (ofBigEndian bytes)))
  | .text => .ok ((Text.ofBytes? bytes).elim (.bytes bytes) .text)
  | .bytes => .ok (.bytes bytes)

end Coap.Wire
