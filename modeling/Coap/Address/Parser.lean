import Coap.Address.Basic
import Coap.Text.Hex

namespace Coap.Address

/-!
# Reading socket addresses

`a.b.c.d:port` or `[groups]:port`, with an optional `%scope` inside the brackets.
A byte of the dotted form has one to three digits and no leading zero. A group
has one to four hexadecimal digits; `::` stands for one or more zero groups; the
last two groups may be written in dotted form. A reader takes the longest run of
digits at its place, gives back its value and the rest, or refuses.
-/

/-- The value of a decimal digit. -/
def decimalDigit? (char : Char) : Option Nat :=
  if char.isDigit then some (char.toNat - '0'.toNat) else none

/-- The digits at the head of a text, as values, and the rest. -/
def spanDigits
    (digit? : Char → Option Nat) :
    List Char →
    List Nat × List Char
  | [] => ([], [])
  | char :: rest =>
      match digit? char with
      | some value =>
          let (values, after) := spanDigits digit? rest
          (value :: values, after)
      | none => ([], char :: rest)

/-- The number written by some digits. -/
def ofDigits
    (radix : Nat)
    (digits : List Nat) :
    Nat :=
  digits.foldl (fun value digit => value * radix + digit) 0

/--
How a number may be written: its radix, most digits, leading zeros, and bound.
-/
structure NumberForm where
  radix : Nat
  maxDigits : Option Nat
  leadingZeros : Bool
  bound : Nat

/-- One byte of the dotted form. -/
def octetForm : NumberForm :=
  { radix := 10
    maxDigits := some 3
    leadingZeros := false
    bound := 256 }

/-- One group of an IPv6 address. -/
def groupForm : NumberForm :=
  { radix := 16
    maxDigits := some 4
    leadingZeros := true
    bound := 65536 }

/-- A port number. -/
def portForm : NumberForm :=
  { radix := 10
    maxDigits := none
    leadingZeros := true
    bound := 65536 }

/-- A scope number. -/
def scopeForm : NumberForm :=
  { radix := 10
    maxDigits := none
    leadingZeros := true
    bound := 4294967296 }

/-- Read a number of the given form. -/
def readNumber?
    (form : NumberForm)
    (text : List Char) :
    Option (Nat × List Char) :=
  let digit? := if form.radix = 16 then Hex.valueOf? else decimalDigit?
  let (digits, rest) := spanDigits digit? text
  let value := ofDigits form.radix digits
  let tooLong : Bool := match form.maxDigits with
    | some most => decide (most < digits.length)
    | none => false
  let padded : Bool :=
    !form.leadingZeros && digits.head? == some 0 && 1 < digits.length
  if digits = [] ∨ tooLong ∨ padded ∨ form.bound ≤ value then none
  else some (value, rest)

/-- Read one expected character. -/
def readChar?
    (expected : Char) :
    List Char →
    Option (List Char)
  | [] => none
  | char :: rest => if char = expected then some rest else none

/-- Read the dotted form of four bytes. -/
def readV4?
    (text : List Char) :
    Option (Vector UInt8 4 × List Char) := do
  let (a, text) ← readNumber? octetForm text
  let (b, text) ← readNumber? octetForm (← readChar? '.' text)
  let (c, text) ← readNumber? octetForm (← readChar? '.' text)
  let (d, text) ← readNumber? octetForm (← readChar? '.' text)
  return (#v[UInt8.ofNat a, UInt8.ofNat b, UInt8.ofNat c, UInt8.ofNat d], text)

/--
Groups read from the head of a text, whether they end in dotted form, and the rest.
-/
structure GroupsRead where
  groups : List UInt16
  endsDotted : Bool
  rest : List Char

/-- Pass the colon that separates a group from the one before it. -/
def passSeparator?
    (isFirst : Bool)
    (text : List Char) :
    Option (List Char) :=
  if isFirst then some text else readChar? ':' text

/-- The two groups that four bytes make. -/
def groupsOfOctets (octets : Vector UInt8 4) : List UInt16 :=
  [UInt16.ofNat (octets[0].toNat * 256 + octets[1].toNat),
    UInt16.ofNat (octets[2].toNat * 256 + octets[3].toNat)]

/-- Read groups separated by colons, at most `room` of them. -/
def readGroups :
    Nat →
    Bool →
    List Char →
    GroupsRead
  | 0, _, text => ⟨[], false, text⟩
  | room + 1, isFirst, text =>
      let dotted? :=
        if room = 0 then none else (passSeparator? isFirst text).bind readV4?
      match dotted? with
      | some (octets, rest) => ⟨groupsOfOctets octets, true, rest⟩
      | none =>
          match (passSeparator? isFirst text).bind (readNumber? groupForm) with
          | none => ⟨[], false, text⟩
          | some (group, rest) =>
              let tail := readGroups room false rest
              { tail with groups := UInt16.ofNat group :: tail.groups }

/-- Eight groups as a vector; shorter lists are filled with zeros at the end. -/
def groupsVector (groups : List UInt16) : Vector UInt16 8 :=
  Vector.ofFn fun index => groups.getD index.val 0

/-- Read an IPv6 address. -/
def readV6?
    (text : List Char) :
    Option (Vector UInt16 8 × List Char) := do
  let front := readGroups 8 true text
  if front.groups.length = 8 then
    return (groupsVector front.groups, front.rest)
  if front.endsDotted then none
  let rest ← readChar? ':' (← readChar? ':' front.rest)
  let back := readGroups (8 - (front.groups.length + 1)) true rest
  let zeros := List.replicate (8 - front.groups.length - back.groups.length) 0
  return (groupsVector (front.groups ++ zeros ++ back.groups), back.rest)

/-- Read a colon and a port. -/
def readPort?
    (text : List Char) :
    Option (UInt16 × List Char) := do
  let (port, rest) ← readNumber? portForm (← readChar? ':' text)
  return (UInt16.ofNat port, rest)

/-- Read an optional scope; none is scope zero. -/
def readScope (text : List Char) : UInt32 × List Char :=
  match (readChar? '%' text).bind (readNumber? scopeForm) with
  | some (scope, rest) => (UInt32.ofNat scope, rest)
  | none => (0, text)

/-- Read an IPv4 socket address. -/
def readSocketV4?
    (text : List Char) :
    Option (SocketAddress × List Char) := do
  let (octets, text) ← readV4? text
  let (port, text) ← readPort? text
  return (⟨.v4 octets, port⟩, text)

/-- Read an IPv6 socket address. -/
def readSocketV6?
    (text : List Char) :
    Option (SocketAddress × List Char) := do
  let text ← readChar? '[' text
  let (groups, text) ← readV6? text
  let (scope, text) := readScope text
  let text ← readChar? ']' text
  let (port, text) ← readPort? text
  return (⟨.v6 groups scope, port⟩, text)

end Coap.Address

namespace Coap

/-- The socket address a whole text spells. -/
def SocketAddress.ofText? (text : String) : Option SocketAddress :=
  let chars := text.toList
  match (Address.readSocketV4? chars).orElse fun _ =>
    Address.readSocketV6? chars with
  | some (address, []) => some address
  | _ => none

end Coap
