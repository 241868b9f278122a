namespace Coap

/-!
# Socket addresses

A peer is named by an IP address and a port. An IPv6 address is held as its
eight groups, highest first, with the scope of a link-local address, zero for
none.
-/

/-- An IP address of either family. -/
inductive IpAddress where
  | v4 (octets : Vector UInt8 4)
  | v6 (groups : Vector UInt16 8) (scope : UInt32)
deriving DecidableEq, Repr

/-- An IP address with a port. -/
structure SocketAddress where
  ip : IpAddress
  port : UInt16
deriving DecidableEq, Repr

/-- The IPv4 address `a.b.c.d` with `port`. -/
def SocketAddress.v4
    (a b c d : UInt8)
    (port : UInt16) :
    SocketAddress :=
  { ip := .v4 #v[a, b, c, d]
    port := port }

end Coap
