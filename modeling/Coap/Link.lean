import Coap.Engine.Loop

namespace Coap

/-!
# Two engines on a link

Two engines share a clock and exchange datagrams over a link that may lose,
duplicate and reverse them. Each has its own counter of identifiers, unless both run
in one process, whose counter they then share. Carrying goes in rounds: each side in
turn sends what is due, and its datagrams are taken to the other side. It ends when
two rounds in a row had nothing to carry.
-/

/-- The two sides of a link. -/
inductive Side where
  | a
  | b
deriving DecidableEq, Repr

namespace Side

/-- The opposite side. -/
def other : Side → Side
  | .a => .b
  | .b => .a

/-- The letter of a side. -/
def name : Side → String
  | .a => "a"
  | .b => "b"

/-- The address of a side. -/
def address : Side → SocketAddress
  | .a => SocketAddress.v4 10 0 0 1 5683
  | .b => SocketAddress.v4 10 0 0 2 5683

end Side

/-- Two engines with the same clock. -/
structure Link where
  a : Engine
  b : Engine
  /-- Both engines draw their identifiers from one counter. -/
  sharesIds : Bool
  /-- How many datagrams have been numbered. -/
  numbered : Nat := 0

/-- What happens to datagrams, named by their numbers. -/
structure LinkFaults where
  drop : List Nat := []
  duplicate : List Nat := []
  /-- Lose every datagram whose number this divides; zero loses none. -/
  dropEvery : Nat := 0
  /-- Carry the datagrams of a round in reverse order. -/
  reverse : Bool := false

/-- A datagram that was carried, or lost if it has no copies. -/
structure Carriage where
  number : Nat
  origin : Side
  copies : Nat
  bytes : List UInt8

namespace LinkFaults

/-- How many copies of a datagram arrive. -/
def copies
    (faults : LinkFaults)
    (number : Nat)
    (target destination : SocketAddress) :
    Nat :=
  if number ∈ faults.drop then 0
  else if 0 < faults.dropEvery ∧ number % faults.dropEvery = 0 then 0
  else if target ≠ destination then 0
  else if number ∈ faults.duplicate then 2
  else 1

end LinkFaults

namespace Carriage

/-- The number, more flag and class of a block option, or a dash. -/
def blockText
    (message : Message)
    (option : OptionNumber) :
    String :=
  match message.uint? option with
  | none => "-"
  | some raw =>
      toString (raw.toNat / 16) ++ "/" ++ toString (raw.toNat / 8 % 2) ++ "/" ++
        toString (raw.toNat % 8)

/-- One line that tells what was carried. -/
def text (carriage : Carriage) : String :=
  let route :=
    toString carriage.number ++ " " ++ carriage.origin.name ++ ">" ++
      carriage.origin.other.name ++
      " x" ++ toString carriage.copies ++ " "
  match Wire.decode carriage.bytes with
  | .error cause => route ++ cause.message
  | .ok message =>
      route ++ message.summary ++ " b1=" ++ blockText message .block1 ++
        " b2=" ++ blockText message .block2

end Carriage

namespace Link

/-- Two fresh engines in one process. -/
def create
    (poolConfig : PoolConfig)
    (arqConfig : ArqConfig)
    (nextId : MessageId) :
    Link :=
  { a := Engine.create poolConfig arqConfig nextId
    b := Engine.create poolConfig arqConfig nextId
    sharesIds := true }

/-- The engine of a side. -/
def engine
    (link : Link) :
    Side →
    Engine
  | .a => link.a
  | .b => link.b

/--
The counter of an engine after another one has drawn identifiers up to `nextId`.
-/
def counterAfter
    (link : Link)
    (nextId own : MessageId) :
    MessageId :=
  if link.sharesIds then nextId else own

/--
An engine after the clock and the counters have moved to where `engine` left them.
-/
def follow
    (link : Link)
    (engine other : Engine) :
    Engine :=
  { other with
    now := engine.now
    nextId := link.counterAfter engine.nextId other.nextId }

/-- Replace the engine of a side; the other one follows it. -/
def setEngine
    (link : Link)
    (side : Side)
    (engine : Engine) :
    Link :=
  match side with
  | .a => { link with a := engine, b := link.follow engine link.b }
  | .b => { link with b := engine, a := link.follow engine link.a }

/-- Forget what both sides have passed on and told; datagrams that wait stay. -/
def clearReports (link : Link) : Link :=
  { link with
    a := link.a.clearReports
    b := link.b.clearReports }

/-- Let a datagram arrive a number of times. -/
def arrive
    (source : SocketAddress)
    (bytes : List UInt8) :
    Nat →
    Engine →
    Engine
  | 0, engine => engine
  | copies + 1, engine => arrive source bytes copies (engine.process bytes source).2

/-- Number one datagram of `origin` and take it to the other side. -/
def carry
    (faults : LinkFaults)
    (origin : Side)
    (link : Link)
    (datagram : Datagram) :
    Carriage × Link :=
  let number := link.numbered + 1
  let copies := faults.copies number datagram.target origin.other.address
  let arrived :=
    arrive origin.address datagram.bytes copies (link.engine origin.other)
  ({ number := number
     origin := origin
     copies := copies
     bytes := datagram.bytes },
    { link with numbered := number }.setEngine origin.other arrived)

/-- Take datagrams of `origin` to the other side in order. -/
def carryAll
    (faults : LinkFaults)
    (origin : Side)
    (link : Link) :
    List Datagram →
    List Carriage × Link
  | [] => ([], link)
  | datagram :: rest =>
      let (carriage, link) := link.carry faults origin datagram
      let (others, link) := carryAll faults origin link rest
      (carriage :: others, link)

/-- The most polls of a side in one round. -/
def pollLimit : Nat :=
  100000

/-- Let a side send what is due, and take all its datagrams to the other side. -/
def turn
    (faults : LinkFaults)
    (origin : Side)
    (link : Link) :
    List Carriage × Link :=
  let (_, engine) := Engine.pollAll pollLimit (link.engine origin)
  let datagrams := if faults.reverse then engine.sent.reverse else engine.sent
  (link.setEngine origin { engine with sent := [] }).carryAll faults
    origin datagrams

/-- What was carried, in how many rounds, and the link afterwards. -/
structure Pumping where
  carriages : List Carriage
  rounds : Nat
  link : Link

/--
Carry for at most the given number of rounds. `quiet` counts the rounds just
before that had nothing to carry.
-/
def pump
    (faults : LinkFaults) :
    Nat →
    Nat →
    Link →
    Pumping
  | 0, _, link => ⟨[], 0, link⟩
  | rounds + 1, quiet, link =>
      if 2 ≤ quiet then ⟨[], 0, link⟩
      else
        let (first, link) := link.turn faults .a
        let (second, link) := link.turn faults .b
        let carriages := first ++ second
        let quiet := if carriages.isEmpty then quiet + 1 else 0
        let others := pump faults rounds quiet link
        { others with
          carriages := carriages ++ others.carriages
          rounds := others.rounds + 1 }

end Link

end Coap
