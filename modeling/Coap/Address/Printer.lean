import Coap.Address.Basic
import Coap.Text.Hex

namespace Coap

/-!
# Text of socket addresses

The canonical text of RFC 5952: groups in lower-case hexadecimal without leading
zeros, the first longest run of at least two zero groups written as `::`, and an
IPv4-mapped address with its last four bytes in dotted form. In a socket address
an IPv6 address stands in brackets.
-/

/-- A run of zero groups: where it starts and how many groups it has. -/
structure ZeroRun where
  start : Nat
  count : Nat
deriving DecidableEq, Repr

namespace ZeroRun

/--
The first longest run of zeros, given the position of the head of the list, the
run that ends just before it, and the longest run so far.
-/
def longestFrom :
    Nat →
    ZeroRun →
    ZeroRun →
    List UInt16 →
    ZeroRun
  | _, _, best, [] => best
  | position, current, best, group :: rest =>
      if group = 0 then
        let extended : ZeroRun :=
          if current.count = 0 then ⟨position, 1⟩
          else ⟨current.start, current.count + 1⟩
        let longest := if best.count < extended.count then extended else best
        longestFrom (position + 1) extended longest rest
      else longestFrom (position + 1) ⟨0, 0⟩ best rest

/-- The first longest run of zeros. -/
def longest (groups : List UInt16) : ZeroRun :=
  longestFrom 0 ⟨0, 0⟩ ⟨0, 0⟩ groups

end ZeroRun

namespace IpAddress

/-- Groups in hexadecimal, separated by colons. -/
def joinGroups (groups : List UInt16) : String :=
  ":".intercalate (groups.map fun group => String.ofList (Hex.ofNat group.toNat))

/-- Four bytes in decimal, separated by points. -/
def dotted (octets : List UInt8) : String :=
  ".".intercalate (octets.map fun octet => toString octet.toNat)

/-- The two bytes of a group, higher one first. -/
def groupBytes (group : UInt16) : List UInt8 :=
  [(group >>> 8).toUInt8, group.toUInt8]

/-- The text of the groups of an IPv6 address. -/
def groupsText (groups : List UInt16) : String :=
  if groups.take 6 = [0, 0, 0, 0, 0, 0xffff] then
    "::ffff:" ++ dotted ((groups.drop 6).flatMap groupBytes)
  else
    let run := ZeroRun.longest groups
    if 1 < run.count then
      joinGroups (groups.take run.start) ++ "::" ++
        joinGroups (groups.drop (run.start + run.count))
    else joinGroups groups

end IpAddress

/-- The canonical text of a socket address. -/
def SocketAddress.text (address : SocketAddress) : String :=
  match address.ip with
  | .v4 octets =>
      IpAddress.dotted octets.toList ++ ":" ++ toString address.port.toNat
  | .v6 groups scope =>
      let zone := if scope = 0 then "" else "%" ++ toString scope.toNat
      "[" ++ IpAddress.groupsText groups.toList ++ zone ++ "]:" ++
        toString address.port.toNat

end Coap
