namespace Coap

/-!
# Options

An option is a number with a value. The number decides how the value is written
on the wire and whether a message may carry the option more than once. The value
is of a kind of its own, which need not be the one the number calls for.
-/

/-- How an option value is written on the wire. -/
inductive OptionFormat where
  | empty
  | uint
  | text
  | bytes
deriving DecidableEq, Repr

/-- Option numbers; every number without a meaning here is `other`. -/
inductive OptionNumber where
  | ifMatch
  | uriHost
  | eTag
  | ifNoneMatch
  | observe
  | uriPort
  | locationPath
  | uriPath
  | contentFormat
  | maxAge
  | uriQuery
  | accept
  | locationQuery
  | block2
  | block1
  | size2
  | proxyUri
  | proxyScheme
  | size1
  | uriScheme
  /-- How many blocks the sender of a transfer may keep in flight. -/
  | windowSize
  | windowChangeable
  | proxySecurityId
  | cookie
  | handshakeType
  | sessionNotFound
  | sessionExpired
  | coapsUri
  | other (number : UInt16)
deriving DecidableEq, Repr

namespace OptionNumber

/-- The numbers with a meaning, in ascending order. -/
def known : List OptionNumber :=
  [.ifMatch, .uriHost, .eTag, .ifNoneMatch, .observe, .uriPort, .locationPath,
    .uriPath, .contentFormat, .maxAge, .uriQuery, .accept, .locationQuery, .block2,
    .block1, .size2, .proxyUri, .proxyScheme, .size1, .uriScheme, .windowSize,
    .windowChangeable, .proxySecurityId, .cookie, .handshakeType, .sessionNotFound,
    .sessionExpired, .coapsUri]

/-- The number on the wire. -/
def toUInt16 : OptionNumber → UInt16
  | .ifMatch => 1
  | .uriHost => 3
  | .eTag => 4
  | .ifNoneMatch => 5
  | .observe => 6
  | .uriPort => 7
  | .locationPath => 8
  | .uriPath => 11
  | .contentFormat => 12
  | .maxAge => 14
  | .uriQuery => 15
  | .accept => 17
  | .locationQuery => 20
  | .block2 => 23
  | .block1 => 27
  | .size2 => 28
  | .proxyUri => 35
  | .proxyScheme => 39
  | .size1 => 60
  | .uriScheme => 2111
  | .windowSize => 3001
  | .windowChangeable => 3002
  | .proxySecurityId => 3004
  | .cookie => 3036
  | .handshakeType => 3999
  | .sessionNotFound => 4001
  | .sessionExpired => 4003
  | .coapsUri => 4005
  | .other number => number

/-- The option a wire number means. -/
def ofUInt16 (number : UInt16) : OptionNumber :=
  (known.find? fun option => option.toUInt16 == number).getD (.other number)

/--
A number is canonical if its wire number means it: no `other`
stands for a known one.
-/
def IsCanonical (number : OptionNumber) : Prop :=
  ofUInt16 number.toUInt16 = number

instance (number : OptionNumber) : Decidable number.IsCanonical :=
  inferInstanceAs (Decidable (ofUInt16 number.toUInt16 = number))

/-- The format of the values of an option. -/
def format : OptionNumber → OptionFormat
  | .ifNoneMatch | .windowChangeable => .empty
  | .observe | .uriPort | .contentFormat | .maxAge | .accept | .block2
  | .block1 | .size2
  | .size1 | .uriScheme | .windowSize | .proxySecurityId | .handshakeType
  | .sessionNotFound | .sessionExpired => .uint
  | .uriHost | .locationPath | .uriPath | .uriQuery | .locationQuery | .proxyUri
  | .proxyScheme => .text
  | .ifMatch | .eTag | .cookie | .coapsUri | .other _ => .bytes

/-- Whether a message may carry the option more than once. -/
def isRepeatable : OptionNumber → Bool
  | .ifMatch | .eTag | .locationPath | .uriPath | .uriQuery | .locationQuery
  | .other _ => true
  | _ => false

/-- The name of a number; all numbers without a meaning share one. -/
def name : OptionNumber → String
  | .ifMatch => "IfMatch"
  | .uriHost => "UriHost"
  | .eTag => "ETag"
  | .ifNoneMatch => "IfNoneMatch"
  | .observe => "Observe"
  | .uriPort => "UriPort"
  | .locationPath => "LocationPath"
  | .uriPath => "UriPath"
  | .contentFormat => "ContentFormat"
  | .maxAge => "MaxAge"
  | .uriQuery => "UriQuery"
  | .accept => "Accept"
  | .locationQuery => "LocationQuery"
  | .block2 => "Block2"
  | .block1 => "Block1"
  | .size2 => "Size2"
  | .proxyUri => "ProxyUri"
  | .proxyScheme => "ProxyScheme"
  | .size1 => "Size1"
  | .uriScheme => "UriScheme"
  | .windowSize => "SelectiveRepeatWindowSize"
  | .windowChangeable => "WindowChangeable"
  | .proxySecurityId => "ProxySecurityId"
  | .cookie => "Cookie"
  | .handshakeType => "HandshakeType"
  | .sessionNotFound => "SessionNotFound"
  | .sessionExpired => "SessionExpired"
  | .coapsUri => "CoapsUri"
  | .other _ => "Other"

@[simp]
theorem toUInt16_ofUInt16 (number : UInt16) :
    (ofUInt16 number).toUInt16 = number := by
  unfold ofUInt16
  cases found : known.find? fun option => option.toUInt16 == number with
  | none => rfl
  | some option =>
      have matched := List.find?_some found
      simpa using matched

theorem isCanonical_ofUInt16 (number : UInt16) :
    (ofUInt16 number).IsCanonical := by
  unfold IsCanonical
  rw [toUInt16_ofUInt16]

end OptionNumber

/-- The value of an option. -/
inductive OptionValue where
  | empty
  | uint (value : UInt64)
  | text (value : String)
  | bytes (value : List UInt8)
deriving DecidableEq, Repr

namespace OptionValue

/-- The integer of an integer value. -/
def asUint? : OptionValue → Option UInt64
  | .uint value => some value
  | _ => none

/-- The text of a text value. -/
def asText? : OptionValue → Option String
  | .text value => some value
  | _ => none

end OptionValue

/-- One option of a message. -/
structure MessageOption where
  number : OptionNumber
  value : OptionValue
deriving DecidableEq, Repr

/-- An option with an integer value. -/
def MessageOption.uint
    (number : OptionNumber)
    (value : UInt64) :
    MessageOption :=
  { number := number
    value := .uint value }

/-- An option with a text value. -/
def MessageOption.text
    (number : OptionNumber)
    (value : String) :
    MessageOption :=
  { number := number
    value := .text value }

end Coap
