import Mathlib.Tactic.Common
import Coap.Endpoint
import Coap.Message.Path
import Coap.Proofs.Link.Scene
import Coap.Proofs.Link.Transfer

namespace Coap

/-!
# Conversations

The application of a fresh endpoint asks, and that of another one answers. The
request and the answer may each fit a single datagram or go in blocks, and an answer
goes on the acknowledgement of a request that came as a single datagram, else as a
message of its own.
-/

/-- The settings of an endpoint leave room for a window of fragments. -/
structure EndpointConfig.IsUsable (config : EndpointConfig) : Prop where
  maxPayload : 1 ≤ config.arq.maxPayload
  windowPositive : 1 ≤ config.arq.windowSize
  windowSmall : config.arq.windowSize < 65536
  room : config.arq.windowSize < config.pool.capacity
  patient : config.pool.IsPatient

/-- A request of one fresh endpoint and the answer of another one. -/
structure Conversation where
  clientConfig : EndpointConfig
  serverConfig : EndpointConfig
  /-- The identifier that the client draws next. -/
  clientId : MessageId
  /-- The one that the server draws next, unless both draw from one counter. -/
  serverId : MessageId
  /-- Both endpoints are in one process. -/
  sharesIds : Bool
  clientTokens : TokenSupply
  serverTokens : TokenSupply
  request : Message
  /-- Who is told the outcome. -/
  who : Listener
  code : Code
  answer : Option (List UInt8)

namespace Conversation

variable (conversation : Conversation)

def client : Endpoint :=
  Endpoint.create conversation.clientConfig Side.a.address conversation.clientId
    conversation.clientTokens

def server : Endpoint :=
  Endpoint.create conversation.serverConfig Side.b.address conversation.serverId
    conversation.serverTokens

/-- The link between both endpoints. -/
def fresh : Link where
  a := conversation.client.engine
  b := conversation.server.engine
  sharesIds := conversation.sharesIds

/-- The link once the request is queued. -/
def asked : Link :=
  conversation.fresh.setEngine .a
    (conversation.client.sendRequest conversation.request conversation.who).2.engine

/-- The identifier that the server draws next once the request is queued. -/
def serverCounter : MessageId :=
  if conversation.sharesIds then conversation.clientId else conversation.serverId

/-- The call with which the server answers a message. -/
def respond
    (link : Link)
    (received : Message) :
    Except EndpointError MessageId × Endpoint :=
  { conversation.server with engine := link.b }.respond received conversation.code
    conversation.answer

/-- The link once the answer is queued. -/
def answered
    (link : Link)
    (received : Message) :
    Link :=
  link.setEngine .b (conversation.respond link received).2.engine

/-- How many bytes the answer has. -/
def answerLength : Nat :=
  (conversation.answer.getD []).length

/--
A confirmable request that can be written and read, with a token and without options
of a transfer of its own, and a success as its answer. It goes to the server,
whether as its destination or as its proxy.
-/
structure IsRegular : Prop where
  client : conversation.clientConfig.IsUsable
  server : conversation.serverConfig.IsUsable
  isRequest : conversation.request.isRequest = true
  confirmable : conversation.request.kind = .confirmable
  tokened : ∃ token, conversation.request.token = some token ∧
    1 ≤ token.bytes.length ∧ token.bytes.length ≤ 8
  routed : conversation.request.target? = some Side.b.address
  plain : conversation.request.IsPlain
  readable : ∃ bytes read,
    Wire.encode conversation.request = .ok bytes ∧ Wire.decode bytes = .ok read
  requestFits :
    SendState.blocksFor conversation.request.bodyLength
      conversation.clientConfig.arq.maxPayload ≤ 2 ^ 28
  answerFits :
    SendState.blocksFor conversation.answerLength
      conversation.serverConfig.arq.maxPayload ≤ 2 ^ 28
  isSuccess : conversation.code.isSuccess = true

/-- Regular, whatever the code of its answer. -/
def IsPosed : Prop :=
  { conversation with code := .content }.IsRegular

/-- The request is too long for a single datagram. -/
def AsksInBlocks : Prop :=
  conversation.clientConfig.arq.maxPayload < conversation.request.bodyLength

/-- The answer is too long for a single datagram. -/
def AnswersInBlocks : Prop :=
  conversation.serverConfig.arq.maxPayload < conversation.answerLength

/--
The garbage period of the request is a duration, and it is not resent at once if
it fits a single datagram. Transfers are kept while their blocks arrive, and the
identifier of the request is not one of those that the server draws for the first
window of its answer.
-/
structure IsUndisturbed : Prop where
  spans : conversation.clientConfig.pool.Spans conversation.request
  waits : ¬ conversation.AsksInBlocks → conversation.request.longResponse = true →
    0 < conversation.clientConfig.pool.resendLongPeriod
  keepsRequest : conversation.AsksInBlocks →
    0 < conversation.serverConfig.arq.receiveIdle
  keepsAnswer : conversation.AnswersInBlocks →
    0 < conversation.clientConfig.arq.receiveIdle
  apart : ¬ conversation.AsksInBlocks → conversation.AnswersInBlocks →
    min conversation.serverConfig.arq.windowSize
        (SendState.blocksFor conversation.answerLength
          conversation.serverConfig.arq.maxPayload) ≤
      (conversation.request.id - conversation.serverCounter).toNat

/-! ## What both sides show -/

def clientSetting : Setting where
  token := conversation.request.key
  peer := Side.b.address
  now := Timestamp.start
  pool := conversation.clientConfig.pool
  arq := conversation.clientConfig.arq

def serverSetting : Setting where
  token := conversation.request.key
  peer := Side.a.address
  now := Timestamp.start
  pool := conversation.serverConfig.pool
  arq := conversation.serverConfig.arq

/-- The guarded handler of the request. -/
def handler : ResponseHandler where
  who := conversation.who
  guard := some 0

def hooks : Hooks where
  response := some conversation.handler

/-- The request when it is queued. -/
def posted : PoolEntry :=
  PoolEntry.create Timestamp.start conversation.request conversation.hooks

/-- The client waits for the answer. -/
def waiting (entry : PoolEntry) : Scene where
  queue := [entry]
  named := some conversation.request.id
  awaited := some conversation.handler

variable {conversation}

theorem IsRegular.isPosed (regular : conversation.IsRegular) :
    conversation.IsPosed :=
  { regular with isSuccess := (by decide : Code.content.isSuccess = true) }

/-- A fresh client waits for the answer as soon as it has asked. -/
theorem asked_shows
    (regular : conversation.IsRegular)
    (undisturbed : conversation.IsUndisturbed) :
    conversation.asked.Shows .a conversation.clientSetting
      conversation.serverSetting conversation.clientId conversation.serverCounter
      (conversation.waiting conversation.posted) {} := by
  obtain ⟨token, token_eq, _⟩ := regular.tokened
  have client := Engine.shows_create conversation.request.key Side.b.address
    conversation.clientConfig.pool conversation.clientConfig.arq
      conversation.clientId
  have guarded :
      { Engine.create conversation.clientConfig.pool conversation.clientConfig.arq
          conversation.clientId with nextGuard :=
            1 }.Shows conversation.clientSetting
        conversation.clientId {} :=
    { client with }
  have room : 0 < conversation.clientConfig.pool.capacity :=
    Nat.lt_of_le_of_lt (Nat.zero_le _) regular.client.room
  have queued := (guarded.expect rfl conversation.handler).enqueue
    (rfl : conversation.request.key =
      conversation.clientSetting.token) undisturbed.spans
    (by simp) room conversation.hooks
  refine Link.Shows.setEngine ?_
    (Engine.shows_create conversation.request.key Side.a.address
      conversation.serverConfig.pool
      conversation.serverConfig.arq conversation.serverId) rfl
  unfold Endpoint.sendRequest Endpoint.withToken Endpoint.enqueue
  rw [token_eq]
  dsimp only
  rw [regular.routed]
  exact queued

/-! ## The request -/

theorem IsRegular.isTokened (regular : conversation.IsRegular) :
    Wire.IsTokened conversation.request := by
  obtain ⟨token, token_eq, filled, _⟩ := regular.tokened
  exact ⟨token, token_eq, List.length_pos_iff.mp filled⟩

theorem IsRegular.isReadable (regular : conversation.IsRegular) :
    Wire.IsReadable conversation.request := by
  obtain ⟨bytes, read, written, reading⟩ := regular.readable
  exact Wire.isReadable_of_decode written reading

/-- What the client acknowledges while it waits goes to the server. -/
theorem IsRegular.routesTo (regular : conversation.IsRegular) :
    Engine.RoutesTo conversation.request Side.b.address where
  proxy := by
    intro proxy isProxy
    have routed := regular.routed
    unfold Message.target? at routed
    rw [isProxy, Option.some_or] at routed
    exact Option.some.inj routed
  short := by
    intro option found
    exact (regular.isReadable.options option (List.mem_of_find?_eq_some found)).1

/-- The server has been handed the request. -/
structure IsReceived
    (conversation : Conversation)
    (message : Message) :
    Prop where
  token_eq : message.token = conversation.request.token
  path_eq : message.path = Wire.readPath conversation.request
  payload_eq : message.payload =
    conversation.request.payload.filter fun payload => payload ≠ []
  address_eq : message.address = some Side.a.address
  unproxied : message.proxy = none

/-- It was handed over as it came, and an acknowledgement may copy its options. -/
structure IsReceivedWhole
    (conversation : Conversation)
    (message : Message) :
    Prop where
  kind_eq : message.kind = .confirmable
  id_eq : message.id = conversation.request.id
  copies : ∀ cell code, ∀ option ∈ (message.ackTo cell code).options,
    (Wire.encodeValue option.value).length ≤ Wire.maxExtended ∧
      ¬ Wire.IsOverlong option

/-- The request waits in the queue and need not be sent again. -/
structure IsWaiting
    (conversation : Conversation)
    (entry : PoolEntry) :
    Prop where
  message_eq : entry.message = conversation.request
  createdAt_eq : entry.createdAt = Timestamp.start
  rests : entry.decision conversation.clientConfig.pool Timestamp.start = .rest

/-- The request has been sent, and nothing more is due on either side. -/
structure HasAsked
    (conversation : Conversation)
    (link : Link)
    (clientId serverId : MessageId)
    (entry : PoolEntry)
    (received : Message) :
    Prop where
  isWaiting : conversation.IsWaiting entry
  isReceived : conversation.IsReceived received
  shows : link.Shows .a conversation.clientSetting conversation.serverSetting
    clientId serverId
    (conversation.waiting entry) { inbound := [received] }

theorem HasAsked.silent
    {link : Link}
    {clientId serverId : MessageId}
    {entry : PoolEntry}
    {received : Message}
    (hasAsked : conversation.HasAsked link clientId serverId entry received) :
    ∀ side, link.turn {} side = ([], link) := by
  refine hasAsked.shows.silent rfl ?_ (by simp) rfl rfl
  intro other member
  rw [List.mem_singleton.mp member]
  exact hasAsked.isWaiting.rests

/-- The server reads the request as it was written. -/
theorem exists_received
    (regular : conversation.IsRegular) :
    ∃ bytes received,
      Wire.encode conversation.request = .ok bytes ∧
        Wire.decode bytes = .ok received ∧
        received.isRequest = true ∧ received.uint? .windowSize = none ∧
        conversation.IsReceived { received with address := some Side.a.address } ∧
        conversation.IsReceivedWhole
          { received with address := some Side.a.address } := by
  obtain ⟨bytes, written, reading⟩ := regular.isReadable.exists_bytes
  refine ⟨bytes, _, written, reading, regular.isRequest,
    regular.plain.windowless_of_decode written reading, ?_, ?_⟩
  · exact
      { token_eq := regular.isTokened.filter_eq
        path_eq := rfl
        payload_eq := rfl
        address_eq := rfl
        unproxied := rfl }
  · exact
      { kind_eq := regular.confirmable
        id_eq := rfl
        copies := fun _ _ _ isCopied =>
          Engine.isReadable_of_mem_ackTo written reading isCopied }

/-- A request that fits a single datagram is handed over as it came. -/
theorem exists_asked_of_single
    (regular : conversation.IsRegular)
    (undisturbed : conversation.IsUndisturbed)
    (single : ¬ conversation.AsksInBlocks) :
    ∃ quiet entry received,
      conversation.asked.Settles quiet ∧
        conversation.HasAsked quiet conversation.clientId
          conversation.serverCounter entry received ∧
        conversation.IsReceivedWhole received := by
  obtain ⟨bytes, received, written, reading, isRequest, windowless,
    isReceived, isWhole⟩ :=
    exists_received regular
  have shows := asked_shows regular undisturbed
  have waits := regular.client.patient.resendWait_pos (undisturbed.waits single)
  have polled :=
    shows.near.pollAll_of_single regular.client.patient waits rfl rfl rfl
      (Nat.not_lt.mp single) regular.routed written
  rw [if_pos regular.confirmable] at polled
  have hands (engine : Engine)
      (showsServer : engine.Shows conversation.serverSetting
        conversation.serverCounter {}) :=
    showsServer.handOver_of_request
      (isRequest : { received with
        address := some Side.a.address }.isRequest = true)
      (some Side.a.address)
  obtain ⟨carries, turned⟩ :=
    shows.turn_of_message rfl polled rfl reading windowless hands
  have hasAsked : conversation.HasAsked
      (conversation.asked.turn {} .a).2 conversation.clientId
      conversation.serverCounter (conversation.posted.handedOut Timestamp.start)
      { received with address := some Side.a.address } :=
    ⟨⟨rfl, rfl, PoolEntry.decision_handedOut regular.client.patient waits _⟩,
      isReceived, turned⟩
  refine ⟨_, _, _, ?_, hasAsked, isWhole⟩
  exact Link.settles_of_first carries
    (Link.settlesFrom_of_silent hasAsked.silent .b)

/-- A payload with bytes in it is not taken for an absent one. -/
theorem filter_eq_some_body
    {payload : Option (List UInt8)}
    (nonempty : payload.getD [] ≠ []) :
    (payload.filter fun payload => payload ≠ []) = some (payload.getD []) := by
  cases payload with
  | none => exact (nonempty rfl).elim
  | some bytes =>
      rw [Option.filter_some, if_pos (by simpa using nonempty), Option.getD_some]

/-- The request as a parcel. -/
def requestParcel
    (conversation : Conversation)
    (serial : Nat) :
    Parcel where
  setting := conversation.clientSetting
  whole := conversation.request
  hooks := conversation.hooks
  serial := serial
  base := conversation.clientId
  rest := { awaited := some conversation.handler }

/-- The server as its recipient. -/
def requestRecipient (conversation : Conversation) : Recipient where
  setting := conversation.serverSetting
  rest := {}
  done message := { inbound := [message] }

theorem requestParcel_isSound
    (regular : conversation.IsRegular)
    (undisturbed : conversation.IsUndisturbed)
    (long : conversation.AsksInBlocks)
    (serial : Nat) :
    (conversation.requestParcel serial).IsSound where
  key_eq := rfl
  tokened := regular.isTokened
  routed := regular.routed
  confirmable := regular.confirmable
  plain := regular.plain
  readable := regular.isReadable
  positive := regular.client.maxPayload
  long := long
  fits := regular.requestFits
  windowPositive := regular.client.windowPositive
  windowSmall := regular.client.windowSmall
  room := regular.client.room
  patient := regular.client.patient
  spans := undisturbed.spans

theorem requestParcel_suits
    (regular : conversation.IsRegular)
    (undisturbed : conversation.IsUndisturbed)
    (long : conversation.AsksInBlocks)
    (serial : Nat) :
    (conversation.requestParcel serial).Suits conversation.requestRecipient where
  token_eq := rfl
  positive := undisturbed.keepsRequest long
  routes := by
    intro id named
    cases named
  rests := by simp [requestRecipient]
  doneRests := by simp [requestRecipient]
  hands := by
    intro engine nextId message datagrams shows isHandedOver
    have token_eq : message.token = conversation.request.token :=
      isHandedOver.token_eq
    have key_eq : message.key = conversation.serverSetting.token :=
      Message.key_eq token_eq
    have tokened : message.token.isSome := by
      rw [token_eq]
      exact regular.isTokened.isSome
    have isSuccess : message.code.isSuccess = true := by
      rw [isHandedOver.code_eq]
      rfl
    exact shows.handOver_of_unexpected isHandedOver.kind_eq key_eq tokened
      isSuccess rfl rfl (some conversation.requestRecipient.setting.peer)

/-- A request that goes in blocks is handed over as one message. -/
theorem exists_asked_of_long
    (regular : conversation.IsRegular)
    (undisturbed : conversation.IsUndisturbed)
    (long : conversation.AsksInBlocks) :
    ∃ quiet clientId serverId entry received,
      conversation.asked.Settles quiet ∧
        conversation.HasAsked quiet clientId serverId entry received ∧
        received.kind = .acknowledgement := by
  have delivers (serial : Nat) : Link.Delivers .a
      { conversation.requestParcel 0 with
        serial := serial } conversation.requestRecipient :=
    ⟨requestParcel_isSound regular undisturbed long serial,
      requestParcel_suits regular undisturbed long serial, rfl, rfl, rfl⟩
  have shows := asked_shows regular undisturbed
  obtain ⟨serial, fragments, releasing⟩ :=
    Link.exists_isReleasing_of_confirmable delivers shows.near shows.far
  obtain ⟨quiet, leads, hasCarried⟩ := releasing.exists_last (delivers serial)
  obtain ⟨received, serverId, isHandedOver, showsQuiet⟩ := hasCarried.delivered
  have payload_eq : received.payload =
      conversation.request.payload.filter fun payload => payload ≠ [] := by
    rw [filter_eq_some_body
      (List.length_pos_iff.mp (Nat.lt_of_le_of_lt (Nat.zero_le _) long))]
    exact isHandedOver.payload_eq
  have hasAsked : conversation.HasAsked quiet _ serverId
      conversation.posted.suppressed received :=
    ⟨⟨rfl, rfl, PoolEntry.decision_suppressed regular.client.patient rfl⟩,
      ⟨isHandedOver.token_eq, isHandedOver.path_eq, payload_eq,
        isHandedOver.address_eq, isHandedOver.unproxied⟩,
      showsQuiet⟩
  refine ⟨quiet, _, serverId, _, received, ?_, hasAsked, isHandedOver.kind_eq⟩
  exact leads quiet (Link.settlesFrom_of_silent hasAsked.silent .a)

end Conversation

end Coap
