import Coap.Message.Basic
import Coap.Wire.Value

namespace Coap.Wire

/-!
# Writing datagrams

A datagram is a four-byte header, the token, the options in ascending order of
their numbers and, if there is a payload, a marker byte with the payload behind
it. An option is written with the distance of its number from the previous one.
-/

/-- How many bytes the fixed header has. -/
def headerSize : Nat :=
  4

/-- The protocol version in every header. -/
def version : Nat :=
  1

/-- The byte that separates the options from the payload. -/
def payloadMarker : UInt8 :=
  0xFF

/-- Insert an option before the first one with a larger or equal number. -/
def insertByNumber
    (option : MessageOption) :
    List MessageOption →
    List MessageOption
  | [] => [option]
  | head :: rest =>
      if option.number.toUInt16 ≤ head.number.toUInt16 then option :: head :: rest
      else head :: insertByNumber option rest

/-- Options in ascending order of their numbers; equal numbers keep their order. -/
def sortByNumber (options : List MessageOption) : List MessageOption :=
  options.foldr insertByNumber []

/-- The bytes of one option, given the number of the option before it. -/
def encodeOption
    (previous : UInt16)
    (option : MessageOption) :
    Except WireError (List UInt8) := do
  let value := encodeValue option.value
  let delta ← extend (option.number.toUInt16.toNat - previous.toNat)
  let length ← extend value.length
  return UInt8.ofNat (delta.nibble * 16 + length.nibble) :: delta.bytes ++
    length.bytes ++ value

/-- The bytes of options that are in ascending order. -/
def encodeOptions
    (previous : UInt16) :
    List MessageOption →
    Except WireError (List UInt8)
  | [] => .ok []
  | option :: rest => do
      let bytes ← encodeOption previous option
      let others ← encodeOptions option.number.toUInt16 rest
      return bytes ++ others

/-- The header of a message, with the length of its token. -/
def encodeHeader
    (message : Message)
    (tokenLength : Nat) :
    List UInt8 :=
  UInt8.ofNat (version * 64 + message.kind.bits * 16 + tokenLength) ::
    message.code.toByte :: bigEndian 2 message.id.toNat

/-- The marker and the payload; nothing for an empty payload. -/
def encodePayload (payload : List UInt8) : List UInt8 :=
  if payload = [] then [] else payloadMarker :: payload

/-- The datagram of a message. -/
def encode (message : Message) : Except WireError (List UInt8) :=
  let token := message.token.elim [] Token.bytes
  if Token.maxLength < token.length then .error (.tokenTooLong token.length)
  else do
    let options ← encodeOptions 0 (sortByNumber message.options)
    return encodeHeader message token.length ++ token ++ options ++
      encodePayload message.body

end Coap.Wire
