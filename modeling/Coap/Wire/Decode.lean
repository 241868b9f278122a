import Coap.Wire.Encode

namespace Coap.Wire

/-!
# Reading datagrams

A datagram is read from the front. Each option announces its distance from the
previous number and its length; a marker byte in its place announces the payload,
which must not be empty. A message read from a datagram has no address.
-/

/-- What follows the token: the options, and the payload if there is one. -/
structure Content where
  options : List MessageOption
  payload : Option (List UInt8)
deriving DecidableEq, Repr

/-- Put one more option in front. -/
def Content.cons
    (option : MessageOption)
    (content : Content) :
    Content :=
  { content with options := option :: content.options }

/--
An option read from the front, its number on the wire, and the bytes after it.
-/
structure OptionRead where
  option : MessageOption
  number : UInt16
  rest : List UInt8
deriving DecidableEq, Repr

/--
Read the option whose first byte is `first`, given the number of the option
before it and the bytes after `first`.
-/
def readOption
    (previous : UInt16)
    (first : UInt8)
    (bytes : List UInt8) :
    Except WireError OptionRead :=
  match readExtended (first.toNat / 16) bytes with
  | .error cause => .error cause
  | .ok (delta, afterDelta) =>
      match readExtended (first.toNat % 16) afterDelta with
      | .error cause => .error cause
      | .ok (length, afterLength) =>
          if 65535 < previous.toNat + delta then .error .optionNumberOverflow
          else
            let number := UInt16.ofNat (previous.toNat + delta)
            if afterLength.length < length then
              .error (.truncatedOption number length afterLength.length)
            else
              let kind := OptionNumber.ofUInt16 number
              match decodeValue kind.format (afterLength.take length) with
              | .error cause => .error cause
              | .ok value => .ok ⟨⟨kind, value⟩, number, afterLength.drop length⟩

theorem length_readOption_le
    {previous : UInt16}
    {first : UInt8}
    {bytes : List UInt8}
    {read : OptionRead}
    (success : readOption previous first bytes = .ok read) :
    read.rest.length ≤ bytes.length := by
  unfold readOption at success
  split at success
  · cases success
  · next delta afterDelta deltaRead =>
      split at success
      · cases success
      · next length afterLength lengthRead =>
          split at success
          · cases success
          · simp only at success
            split at success
            · cases success
            · split at success
              · cases success
              · cases success
                have first := length_readExtended_le deltaRead
                have second := length_readExtended_le lengthRead
                simp only [List.length_drop]
                omega

/-- Read options and payload, given the number of the option before them. -/
def readContent
    (previous : UInt16)
    (bytes : List UInt8) :
    Except WireError Content :=
  match bytes with
  | [] => .ok ⟨[], none⟩
  | first :: rest =>
      if first = payloadMarker then
        if rest = [] then .error .emptyPayload else .ok ⟨[], some rest⟩
      else
        match success : readOption previous first rest with
        | .error cause => .error cause
        | .ok read =>
            have := length_readOption_le success
            (readContent read.number read.rest).map (Content.cons read.option)
termination_by bytes.length
decreasing_by
  simp only [List.length_cons]
  omega

/-- Read the token and what follows it, once the header has been read. -/
def readBody
    (size : Nat)
    (kind : MessageType)
    (code : Code)
    (id : MessageId)
    (tokenLength : Nat)
    (bytes : List UInt8) :
    Except WireError Message :=
  if bytes.length < tokenLength then
    .error (.insufficientData (headerSize + tokenLength) size)
  else
    (readContent 0 (bytes.drop tokenLength)).map fun content =>
      { id := id
        kind := kind
        code := code
        token := if tokenLength = 0 then none else some ⟨bytes.take tokenLength⟩
        payload := content.payload
        options := content.options }

/-- The message of a datagram. -/
def decode (datagram : List UInt8) : Except WireError Message :=
  match datagram with
  | first :: second :: third :: fourth :: rest =>
      let tokenLength := first.toNat % 16
      if first.toNat / 64 ≠ version then .error (.invalidVersion (first.toNat / 64))
      else if Token.maxLength <
          tokenLength then .error (.invalidTokenLength tokenLength)
      else
        match Code.ofByte? second with
        | none => .error (.unknownCode second)
        | some code =>
            readBody datagram.length (MessageType.ofBits (first.toNat / 16)) code
              (UInt16.ofNat (ofBigEndian [third, fourth])) tokenLength rest
  | _ => .error (.insufficientData headerSize datagram.length)

end Coap.Wire
