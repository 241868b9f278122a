import Coap.Engine.Loop
import Coap.Supervisor

namespace Coap

/-!
# Endpoints

An endpoint is an engine with the calls that applications make. Messages without
a token get a fresh one from a supply that the endpoint is given. A request is told
one outcome, through its handler or in a mailbox. While the endpoint is running, its
loops take in the datagrams that have arrived and send what is due; stopping tells
everyone who still waits.
-/

/-- The settings of an endpoint; lengths are in nanoseconds. -/
structure EndpointConfig where
  bind : SocketAddress := SocketAddress.v4 0 0 0 0 0
  broadcast : Bool := false
  pool : PoolConfig := {}
  arq : ArqConfig := {}
  supervisor : SupervisorConfig := {}
  /-- How long the send loop sleeps when nothing is due. -/
  idleInterval : Nat := Nanos.ofMillis 50
deriving DecidableEq, Repr

/--
The tokens that an endpoint draws, in order; nothing is known but their length.
-/
structure TokenSupply where
  token : Nat → Token
  length_token : ∀ number, (token number).bytes.length = Token.maxLength

/-- Tokens that count up from a first one. -/
def TokenSupply.counting (first : UInt64) : TokenSupply where
  token number := ⟨Wire.bigEndian 8 (first + UInt64.ofNat number).toNat⟩
  length_token _ := rfl

/-- The endpoint. -/
structure Endpoint where
  config : EndpointConfig
  engine : Engine
  localAddress : SocketAddress
  running : Bool := false
  /-- Datagrams that have arrived and wait for the receive loop. -/
  arrived : List (List UInt8 × SocketAddress) := []
  nextMailbox : Nat := 0
  tokens : TokenSupply
  /-- How many tokens have been drawn. -/
  drawn : Nat := 0

namespace Endpoint

/-- The reason told to everyone who waits when the endpoint stops. -/
def stoppedReason : String :=
  "Coala stopped"

/-- An endpoint that has not been started. -/
def create
    (config : EndpointConfig)
    (localAddress : SocketAddress)
    (nextId : MessageId)
    (tokens : TokenSupply) :
    Endpoint :=
  { config := config
    engine := Engine.create config.pool config.arq nextId
    localAddress := localAddress
    tokens := tokens }

/-- Give a message without a token a fresh one. -/
def withToken
    (endpoint : Endpoint)
    (message : Message) :
    Message × Endpoint :=
  match message.token with
  | some _ => (message, endpoint)
  | none =>
      ({ message with token := some (endpoint.tokens.token endpoint.drawn) },
        { endpoint with drawn := endpoint.drawn + 1 })

/-- Queue a message with a destination, and who waits for its acknowledgement. -/
def enqueue
    (endpoint : Endpoint)
    (message : Message)
    (ack : Option AckHandler)
    (hooks : Hooks) :
    Except EndpointError MessageId × Endpoint :=
  if message.target?.isNone then (.error (.noDestination message.id), endpoint)
  else
    let engine :=
      match ack with
      | some handler => endpoint.engine.register message.id handler
      | none => endpoint.engine
    (.ok message.id, { endpoint with engine := engine.enqueue message hooks })

/-- Queue a message; `ack` is told about its acknowledgement. -/
def send
    (endpoint : Endpoint)
    (message : Message)
    (ack : Option AckHandler) :
    Except EndpointError MessageId × Endpoint :=
  let (message, endpoint) := endpoint.withToken message
  endpoint.enqueue message ack {}

/-- Stop waiting for the response with a token. -/
def forget
    (endpoint : Endpoint)
    (token : TokenKey) :
    Endpoint :=
  { endpoint with engine := (endpoint.engine.forget token).2 }

/-- Queue a request; `who` is told its outcome once. -/
def sendRequest
    (endpoint : Endpoint)
    (message : Message)
    (who : Listener) :
    Except EndpointError MessageId × Endpoint :=
  let (message, endpoint) := endpoint.withToken message
  let (handler, engine) := endpoint.engine.guardHandler who
  let endpoint := { endpoint with engine := engine.expect message.key handler }
  match endpoint.enqueue message none { response := some handler } with
  | (.ok id, endpoint) => (.ok id, endpoint)
  | (.error cause, endpoint) => (.error cause, endpoint.forget message.key)

/-- Queue a request whose outcome goes to a fresh mailbox. -/
def request
    (endpoint : Endpoint)
    (message : Message) :
    Except EndpointError Nat × Endpoint :=
  let number := endpoint.nextMailbox
  let endpoint := { endpoint with nextMailbox := number + 1 }
  let (sent, endpoint) := endpoint.sendRequest message (.mailbox number)
  (sent.map fun _ => number, endpoint)

/-- The outcome in a mailbox, which is taken out. -/
def collect
    (endpoint : Endpoint)
    (number : Nat) :
    Option Event × Endpoint :=
  let isMine (event : Event) : Bool := event.who == .mailbox number
  let events := endpoint.engine.events
  (events.find? isMine,
    { endpoint with
      engine := { endpoint.engine with events := events.eraseP isMine } })

/-- The answer to a request: on its acknowledgement, or as a message of its own. -/
def responseTo
    (request : Message)
    (code : Code)
    (payload : Option (List UInt8))
    (freshId : MessageId) :
    Message :=
  let response : Message :=
    if request.kind = .confirmable then request.ackTo request.address code
    else
      { id := freshId
        kind := .confirmable
        code := code
        token := request.token
        address := request.address }
  { response with
    proxy := request.proxy
    payload := payload }

/-- Answer a request. -/
def respond
    (endpoint : Endpoint)
    (request : Message)
    (code : Code)
    (payload : Option (List UInt8)) :
    Except EndpointError MessageId × Endpoint :=
  let (freshId, endpoint) :=
    if request.kind = .confirmable then (request.id, endpoint)
    else
      let (id, engine) := endpoint.engine.drawId
      (id, { endpoint with engine := engine })
  endpoint.enqueue (responseTo request code payload freshId) none {}

/-- Stop sending a message and waiting for its outcome; whether it was queued. -/
def cancel
    (endpoint : Endpoint)
    (message : Message) :
    Bool × Endpoint :=
  let engine := endpoint.engine.dropAck message.id
  let (_, engine) := engine.forget message.key
  let (entry, engine) := engine.take message.id
  (entry.isSome, { endpoint with engine := engine })

/--
The telemetry of a token, with the inbound transfer in progress if there is one.
-/
def deliveryOf
    (endpoint : Endpoint)
    (token : TokenKey) :
    Option Delivery × Endpoint :=
  let receiving := endpoint.engine.receiveReport? token
  let (delivery, engine) := endpoint.engine.deliveryOf token
  let endpoint := { endpoint with engine := engine }
  match receiving with
  | none => (delivery, endpoint)
  | some report =>
      (some { delivery.getD {} with transfer := some report }, endpoint)

/-- The number of queued messages. -/
def pending (endpoint : Endpoint) : Nat :=
  endpoint.engine.pool.size

/-- Start the loops. -/
def start (endpoint : Endpoint) : Except EndpointError Unit × Endpoint :=
  if endpoint.running then (.error .alreadyStarted, endpoint)
  else (.ok (), { endpoint with running := true })

/-- Tell everyone who waits that the endpoint stops, and end the loops. -/
def stop (endpoint : Endpoint) : Endpoint :=
  { endpoint with
    engine := (endpoint.engine.drainPool stoppedReason).failAllAcks stoppedReason
    running := false }

/-- Let time pass. -/
def advance
    (endpoint : Endpoint)
    (length : Nat) :
    Endpoint :=
  { endpoint with engine := endpoint.engine.advance length }

/-- A datagram arrives. -/
def arrive
    (endpoint : Endpoint)
    (bytes : List UInt8)
    (source : SocketAddress) :
    Endpoint :=
  { endpoint with arrived := endpoint.arrived ++ [(bytes, source)] }

/-- The most polls that settling makes. -/
def settleLimit : Nat :=
  100000

/--
Poll until nothing is due, at most `limit` times. A poll that finds nothing may
still schedule resends, so only the second one in a row tells that nothing is
due.
-/
def pollUntilQuiet :
    Nat →
    Engine →
    Engine
  | 0, engine => engine
  | limit + 1, engine =>
      match engine.poll with
      | (true, engine) => pollUntilQuiet limit engine
      | (false, engine) =>
          match engine.poll with
          | (true, engine) => pollUntilQuiet limit engine
          | (false, engine) => engine

/-- Take in one datagram and send what is due then. -/
def takeIn
    (engine : Engine)
    (datagram : List UInt8 × SocketAddress) :
    Engine :=
  pollUntilQuiet settleLimit
    (engine.process (datagram.1.take Engine.receiveBuffer) datagram.2).2

/--
The events told to the application so far, which are taken out of the records.
-/
def takeEvents (endpoint : Endpoint) : List Event × Endpoint :=
  let isObserved (event : Event) : Bool :=
    match event.who with
    | .observer _ => true
    | .mailbox _ => false
  let events := endpoint.engine.events
  (events.filter isObserved,
    { endpoint with
      engine := { endpoint.engine with
        events := events.filter fun event => !isObserved event } })

/-- The datagrams sent so far, which are taken out of the records. -/
def takeSent (endpoint : Endpoint) : List Datagram × Endpoint :=
  (endpoint.engine.sent,
    { endpoint with engine := { endpoint.engine with sent := [] } })

/--
At most `count` messages passed on so far, which are taken out of the records.
-/
def takeInbound
    (endpoint : Endpoint)
    (count : Nat) :
    List Message × Endpoint :=
  (endpoint.engine.inbound.take count,
    { endpoint with
      engine :=
        { endpoint.engine with inbound := endpoint.engine.inbound.drop count } })

/-- If running, take in every datagram that has arrived and send what is due. -/
def settle (endpoint : Endpoint) : Endpoint :=
  if endpoint.running then
    let engine := pollUntilQuiet settleLimit endpoint.engine
    { endpoint with
      engine := endpoint.arrived.foldl takeIn engine
      arrived := [] }
  else endpoint

end Endpoint

end Coap
