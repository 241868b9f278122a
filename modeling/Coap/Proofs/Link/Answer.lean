import Mathlib.Tactic.Common
import Coap.Proofs.Link.Conversation

namespace Coap.Conversation

/-!
# Answers

The server answers the message that it was handed. The answer reaches the handler of
the request whole, on the acknowledgement, as a message of its own, or in blocks.
-/

variable {conversation : Conversation} {link quiet : Link}
variable {clientId serverId nextId : MessageId}
variable {entry : PoolEntry} {received : Message}

/-! ## The answer -/

/-- The answer as a message of some type. -/
def reply
    (conversation : Conversation)
    (kind : MessageType)
    (id : MessageId) :
    Message where
  id := id
  kind := kind
  code := conversation.code
  token := conversation.request.token
  address := some Side.a.address
  payload := conversation.answer

/-- The message is that, apart from options which tell nothing about a transfer. -/
structure IsReply
    (conversation : Conversation)
    (kind : MessageType)
    (id : MessageId)
    (message : Message) :
    Prop where
  kind_eq : message.kind = kind
  id_eq : message.id = id
  code_eq : message.code = conversation.code
  token_eq : message.token = conversation.request.token
  routed : message.target? = some Side.a.address
  payload_eq : message.payload = conversation.answer
  prompt : message.longResponse = false
  plain : message.IsPlain
  readable : Wire.IsReadable message

namespace IsReply

variable {kind : MessageType} {id : MessageId} {message : Message}

theorem key_eq (isReply : conversation.IsReply kind id message) :
    message.key = conversation.serverSetting.token :=
  Message.key_eq isReply.token_eq

theorem body_eq (isReply : conversation.IsReply kind id message) :
    message.body = conversation.answer.getD [] := by
  unfold Message.body
  rw [isReply.payload_eq]

theorem bodyLength_eq (isReply : conversation.IsReply kind id message) :
    message.bodyLength = conversation.answerLength := by
  unfold Message.bodyLength answerLength
  rw [isReply.body_eq]

theorem isTokened
    (isReply : conversation.IsReply kind id message)
    (posed : conversation.IsPosed) :
    Wire.IsTokened message := by
  obtain ⟨token, token_eq, nonempty⟩ := posed.isTokened
  exact ⟨token, isReply.token_eq.trans token_eq, nonempty⟩

/-- An answer asks for nothing that takes long. -/
theorem spans
    (isReply : conversation.IsReply kind id message)
    (config : PoolConfig) :
    config.Spans message := by
  intro long
  rw [isReply.prompt] at long
  cases long

/-- An acknowledgement is sent in blocks as a message of its own. -/
theorem transferMessage
    (isReply : conversation.IsReply .acknowledgement id message) :
    conversation.IsReply .confirmable id (Engine.transferMessage message) := by
  have acknowledges : ¬ message.kind = .confirmable := by
    rw [isReply.kind_eq]
    decide
  unfold Engine.transferMessage Message.removeOption
  rw [if_neg acknowledges]
  exact
    { isReply with
      kind_eq := rfl
      plain :=
        fun option member => isReply.plain option (List.mem_of_mem_filter member)
      readable :=
        { tokenShort := isReply.readable.tokenShort
          options := fun option member =>
            isReply.readable.options option (List.mem_of_mem_filter member) } }

end IsReply

/-- A request that came as a single datagram is answered on its acknowledgement. -/
theorem isReply_responseTo_of_whole
    (posed : conversation.IsPosed)
    (isReceived : conversation.IsReceived received)
    (isWhole : conversation.IsReceivedWhole received)
    (freshId : MessageId) :
    conversation.IsReply .acknowledgement conversation.request.id
      (Endpoint.responseTo received conversation.code conversation.answer
        freshId) := by
  have plain := received.isPlain_ackTo received.address conversation.code
  have copies := isWhole.copies received.address conversation.code
  unfold Endpoint.responseTo
  rw [if_pos isWhole.kind_eq]
  rw [Message.ackTo_eq] at plain copies ⊢
  refine ⟨rfl, isWhole.id_eq, rfl, isReceived.token_eq, ?_, rfl, rfl,
    plain, ?_, copies⟩
  · unfold Message.target?
    rw [isReceived.unproxied, isReceived.address_eq]
    rfl
  · dsimp only
    rw [isReceived.token_eq]
    exact posed.isReadable.tokenShort

/-- A request that came in blocks is answered by a message of its own. -/
theorem isReply_responseTo_of_assembled
    (posed : conversation.IsPosed)
    (isReceived : conversation.IsReceived received)
    (isAck : received.kind = .acknowledgement)
    (freshId : MessageId) :
    conversation.IsReply .confirmable freshId
      (Endpoint.responseTo received conversation.code conversation.answer
        freshId) := by
  have response_eq :
      Endpoint.responseTo received conversation.code conversation.answer freshId =
        conversation.reply .confirmable freshId := by
    unfold Endpoint.responseTo
    rw [if_neg (by rw [isAck]; decide), isReceived.token_eq, isReceived.address_eq,
      isReceived.unproxied]
    rfl
  rw [response_eq]
  exact
    { kind_eq := rfl
      id_eq := rfl
      code_eq := rfl
      token_eq := rfl
      routed := rfl
      payload_eq := rfl
      prompt := rfl
      plain := by
        intro option member
        cases member
      readable := ⟨posed.isReadable.tokenShort, by simp [reply]⟩ }

/-- The server has an answer in its queue. -/
def posting
    (message received : Message) :
    Scene where
  queue := [PoolEntry.create Timestamp.start message {}]
  named := some message.id
  inbound := [received]

/-- The answer is queued at the server, and the client waits for it. -/
structure HasAnswered
    (conversation : Conversation)
    (link : Link)
    (serverId : MessageId)
    (entry : PoolEntry)
    (received : Message)
    (kind : MessageType)
    (id : MessageId)
    (message : Message) :
    Prop where
  isReply : conversation.IsReply kind id message
  isWaiting : conversation.IsWaiting entry
  shows : ∃ clientId,
    link.Shows .b conversation.serverSetting conversation.clientSetting
      serverId clientId (posting message received) (conversation.waiting entry)

/-- A call that queues the answer succeeds. -/
theorem IsReply.enqueue_eq
    {kind : MessageType}
    {id : MessageId}
    {message : Message}
    (isReply : conversation.IsReply kind id message)
    (server : Endpoint) :
    server.enqueue message none {} =
      (.ok id, { server with engine := server.engine.enqueue message {} }) := by
  unfold Endpoint.enqueue
  rw [isReply.routed, isReply.id_eq]
  rfl

/-- Queueing the answer leaves the other side as it is. -/
theorem HasAsked.hasAnswered
    (posed : conversation.IsPosed)
    (hasAsked : conversation.HasAsked quiet clientId serverId entry received)
    {kind : MessageType}
    {id : MessageId}
    {message : Message}
    (isReply : conversation.IsReply kind id message)
    {engine : Engine}
    (shows : engine.Shows conversation.serverSetting nextId
      { inbound := [received] }) :
    conversation.HasAnswered
      (quiet.setEngine .b (engine.enqueue message {})) nextId entry received
      kind id message where
  isReply := isReply
  isWaiting := hasAsked.isWaiting
  shows := by
    have room : 0 < conversation.serverConfig.pool.capacity :=
      Nat.lt_of_le_of_lt (Nat.zero_le _) posed.server.room
    have queued := shows.enqueue isReply.key_eq (isReply.spans _) (by simp) room {}
    exact ⟨_, Link.Shows.setEngine queued hasAsked.shows.near rfl⟩

theorem answered_of_whole
    (posed : conversation.IsPosed)
    (hasAsked : conversation.HasAsked quiet clientId serverId entry received)
    (isWhole : conversation.IsReceivedWhole received) :
    (conversation.respond quiet received).1 = .ok conversation.request.id ∧
      ∃ message, conversation.HasAnswered
        (conversation.answered quiet received) serverId entry
        received .acknowledgement conversation.request.id message := by
  have isReply :=
    isReply_responseTo_of_whole posed hasAsked.isReceived isWhole received.id
  have call_eq : conversation.respond quiet received =
      { conversation.server with engine := quiet.b }.enqueue
        (Endpoint.responseTo received conversation.code conversation.answer
          received.id) none
        {} := by
    unfold respond Endpoint.respond
    rw [if_pos isWhole.kind_eq]
  rw [isReply.enqueue_eq] at call_eq
  unfold answered
  rw [call_eq]
  exact ⟨rfl, _, hasAsked.hasAnswered posed isReply hasAsked.shows.far⟩

theorem answered_of_assembled
    (posed : conversation.IsPosed)
    (hasAsked : conversation.HasAsked quiet clientId serverId entry received)
    (isAck : received.kind = .acknowledgement) :
    (conversation.respond quiet received).1 = .ok serverId ∧
      ∃ message, conversation.HasAnswered
        (conversation.answered quiet received) (serverId + 1)
        entry received .confirmable serverId message := by
  have drawn : quiet.b.nextId = serverId := hasAsked.shows.far.nextId_eq
  have drawnShows :
      { quiet.b with nextId := serverId + 1 }.Shows conversation.serverSetting
      (serverId + 1) { inbound := [received] } :=
    { hasAsked.shows.far with nextId_eq := rfl }
  have isReply :=
    isReply_responseTo_of_assembled posed hasAsked.isReceived isAck serverId
  have call_eq : conversation.respond quiet received =
      { conversation.server with
        engine := { quiet.b with nextId := serverId + 1 } }.enqueue
        (Endpoint.responseTo received conversation.code conversation.answer
          serverId) none {} := by
    unfold respond Endpoint.respond
    rw [if_neg (by rw [isAck]; decide)]
    unfold Engine.drawId
    dsimp only
    rw [drawn]
  rw [isReply.enqueue_eq] at call_eq
  unfold answered
  rw [call_eq]
  exact ⟨rfl, _, hasAsked.hasAnswered posed isReply drawnShows⟩

/-! ## The outcome -/

/-- The handler has been told a response. -/
def told
    (conversation : Conversation)
    (response : Message) :
    Scene where
  claimed := [0]
  events := [.answered conversation.who response]

/-- The handler has been told something. -/
def hasHeard (event : Event) : Scene where
  claimed := [0]
  events := [event]

/-- The link settles, and the handler of the request has been told the answer. -/
def Concludes
    (conversation : Conversation)
    (link : Link)
    (received : Message) :
    Prop :=
  ∃ final response serverId clientId queue named,
    link.Settles final ∧
      response.payload = (conversation.answer.filter fun payload => payload ≠ []) ∧
      final.Shows .b conversation.serverSetting conversation.clientSetting
        serverId clientId
        { queue := queue
          named := named
          inbound := [received] }
        (conversation.told response)

/-- The link settles, and the handler of the request has been told just this. -/
def EndsWith
    (conversation : Conversation)
    (link : Link)
    (received : Message)
    (event : Event) :
    Prop :=
  ∃ final serverId clientId queue named,
    link.Settles final ∧
      final.Shows .b conversation.serverSetting conversation.clientSetting
        serverId clientId
        { queue := queue
          named := named
          inbound := [received] }
        (hasHeard event)

/-- The answer as it arrives: in blocks it loses its code. -/
structure Arrives
    (conversation : Conversation)
    (response : Message) :
    Prop where
  notReset : response.kind ≠ .reset
  payload_eq : response.payload =
    conversation.answer.filter fun payload => payload ≠ []
  code_of_single : ¬ conversation.AnswersInBlocks →
    response.code = conversation.code
  code_of_blocks : conversation.AnswersInBlocks → response.code = .content

/-- The link settles, and the handler has been told of the answer as it arrived. -/
def Informs
    (conversation : Conversation)
    (link : Link)
    (received : Message) :
    Prop :=
  ∃ response event,
    conversation.Arrives response ∧
      Engine.IsToldOf conversation.handler response event ∧
      conversation.EndsWith link received event

/-- A success arrives as one. -/
theorem Arrives.isSuccess
    {response : Message}
    (arrives : conversation.Arrives response)
    (isSuccess : conversation.code.isSuccess = true) :
    response.code.isSuccess = true := by
  by_cases long : conversation.AnswersInBlocks
  · rw [arrives.code_of_blocks long]
    rfl
  · rw [arrives.code_of_single long]
    exact isSuccess

theorem Informs.concludes
    (informs : conversation.Informs link received)
    (regular : conversation.IsRegular) :
    conversation.Concludes link received := by
  obtain ⟨response, event, arrives, isTold, final, serverId, clientId,
    queue, named, settles,
    shows⟩ := informs
  have isSuccess := arrives.isSuccess regular.isSuccess
  obtain rfl :=
    (Engine.isToldOf_iff_of_success arrives.notReset isSuccess).mp isTold
  exact ⟨final, response, serverId, clientId, queue, named, settles,
    arrives.payload_eq, shows⟩

/-- The client has nothing to send as long as it waits. -/
theorem silent_of_waiting
    (isWaiting : conversation.IsWaiting entry)
    {scene : Scene}
    (shows : link.Shows .b conversation.serverSetting conversation.clientSetting
      serverId clientId scene (conversation.waiting entry)) :
    link.turn {} .a = ([], link) := by
  refine shows.swap.turn_of_resting rfl ?_ rfl
  intro other member
  rw [List.mem_singleton.mp member]
  exact isWaiting.rests

/-- An acknowledgement is told to the handler of the request that it answers. -/
theorem exists_handOver_of_acknowledgement
    (posed : conversation.IsPosed)
    (isWaiting : conversation.IsWaiting entry)
    {engine : Engine}
    {datagrams : List Datagram}
    (shows : engine.Shows conversation.clientSetting nextId
      { conversation.waiting entry with sent := datagrams })
    {message : Message}
    (isAck : message.kind = .acknowledgement)
    (id_eq : message.id = conversation.request.id)
    (token_eq : message.token = conversation.request.token)
    (isResponse : message.isRequest = false)
    (nonempty : message.code ≠ .empty) :
    ∃ event, Engine.IsToldOf conversation.handler message event ∧
      (engine.handOver message (some Side.b.address)).2.Shows
        conversation.clientSetting nextId
        { hasHeard event with sent := datagrams } := by
  have key_eq : message.key = conversation.clientSetting.token :=
    Message.key_eq token_eq
  have tokened : message.token.isSome := by
    rw [token_eq]
    exact posed.isTokened.isSome
  have answered : ∀ other ∈ [entry], Pool.idOf other = message.id := by
    intro other member
    rw [List.mem_singleton.mp member, id_eq, ← isWaiting.message_eq]
    rfl
  exact shows.exists_handOver_of_answer isAck key_eq tokened isResponse
    nonempty rfl answered
    (rfl : _ = some conversation.handler)
      (rfl : conversation.handler.guard = some 0)
    (by simp [waiting]) (some Side.b.address)

/-! ## Answers that fit a single datagram -/

/-- The answer as the client reads it. -/
structure IsResponse
    (conversation : Conversation)
    (kind : MessageType)
    (id : MessageId)
    (response : Message) :
    Prop where
  kind_eq : response.kind = kind
  id_eq : response.id = id
  code_eq : response.code = conversation.code
  token_eq : response.token = conversation.request.token
  payload_eq : response.payload =
    conversation.answer.filter fun payload => payload ≠ []
  windowless : response.uint? .windowSize = none

theorem IsReply.exists_response
    {kind : MessageType}
    {id : MessageId}
    {message : Message}
    (isReply : conversation.IsReply kind id message)
    (posed : conversation.IsPosed) :
    ∃ bytes response,
      Wire.encode message = .ok bytes ∧
        Wire.decode bytes = .ok response ∧
          conversation.IsResponse kind id response := by
  obtain ⟨bytes, written, reading⟩ := isReply.readable.exists_bytes
  refine ⟨bytes, _, written, reading, ?_⟩
  exact
    { kind_eq := isReply.kind_eq
      id_eq := isReply.id_eq
      code_eq := isReply.code_eq
      token_eq := (isReply.isTokened posed).filter_eq.trans isReply.token_eq
      payload_eq := congrArg (Option.filter _) isReply.payload_eq
      windowless := isReply.plain.windowless_of_decode written reading }

namespace IsResponse

variable {kind : MessageType} {id : MessageId} {response : Message}

theorem addressed (isResponse : conversation.IsResponse kind id response) :
    conversation.IsResponse kind id
      { response with address := some Side.b.address } :=
  { isResponse with }

theorem isResponse
    (isResponse : conversation.IsResponse kind id response)
    (coded : conversation.code.codeClass ≠ 0) :
    response.isRequest = false := by
  unfold Message.isRequest Code.isRequest
  rw [isResponse.code_eq, beq_eq_false_iff_ne.mpr coded]
  rfl

theorem nonempty
    (isResponse : conversation.IsResponse kind id response)
    (coded : conversation.code.codeClass ≠ 0) :
    response.code ≠ .empty := by
  rw [isResponse.code_eq]
  intro empty
  rw [empty] at coded
  exact coded rfl

end IsResponse

/-- What came as a single datagram is the answer as it arrives. -/
theorem arrives_of_isResponse
    (single : ¬ conversation.AnswersInBlocks)
    {kind : MessageType}
    (notReset : kind ≠ .reset)
    {id : MessageId}
    {response : Message}
    (isResponse : conversation.IsResponse kind id response) :
    conversation.Arrives response where
  notReset := by
    rw [isResponse.kind_eq]
    exact notReset
  payload_eq := isResponse.payload_eq
  code_of_single := fun _ => isResponse.code_eq
  code_of_blocks := fun long => (single long).elim

/-- An answer that fits a single datagram is sent by the next poll. -/
theorem IsReply.pollAll_of_single
    {kind : MessageType}
    {id : MessageId}
    {message : Message}
    (isReply : conversation.IsReply kind id message)
    (posed : conversation.IsPosed)
    (single : ¬ conversation.AnswersInBlocks)
    {engine : Engine}
    (shows : engine.Shows conversation.serverSetting nextId
      (posting message received))
    {bytes : List UInt8}
    (written : Wire.encode message = .ok bytes) :
    (engine.pollAll Link.pollLimit).2.Shows conversation.serverSetting nextId
      (if message.kind = .confirmable then
          { inbound := [received]
            queue := [(PoolEntry.create Timestamp.start message {}).handedOut
              Timestamp.start]
            named := some message.id
            sent := [⟨Side.a.address, bytes⟩] }
        else
          { inbound := [received]
            sent := [⟨Side.a.address, bytes⟩] }) := by
  have short : message.bodyLength ≤ conversation.serverSetting.arq.maxPayload := by
    rw [isReply.bodyLength_eq]
    exact Nat.not_lt.mp single
  have waits := posed.server.patient.resendWait_pos fun long =>
    absurd (isReply.prompt.symm.trans long) Bool.false_ne_true
  exact shows.pollAll_of_single posed.server.patient waits rfl rfl isReply.key_eq
    short isReply.routed written

/-- An answer on the acknowledgement of the request. -/
theorem informs_of_piggybacked
    (posed : conversation.IsPosed)
    (coded : conversation.code.codeClass ≠ 0)
    (single : ¬ conversation.AnswersInBlocks)
    {message : Message}
    (hasAnswered : conversation.HasAnswered link serverId entry received
      .acknowledgement conversation.request.id message) :
    conversation.Informs link received := by
  obtain ⟨isReply, isWaiting, clientId, shows⟩ := hasAnswered
  obtain ⟨bytes, response, written, reading, isResponse⟩ :=
    isReply.exists_response posed
  have polled := isReply.pollAll_of_single posed single shows.near written
  rw [if_neg (by simp [isReply.kind_eq])] at polled
  have hands (engine : Engine)
      (showsClient : engine.Shows conversation.clientSetting clientId
        (conversation.waiting entry)) :=
    @exists_handOver_of_acknowledgement conversation clientId entry posed
      isWaiting engine [] showsClient { response with
        address := some Side.b.address } isResponse.kind_eq
      isResponse.id_eq isResponse.token_eq (isResponse.isResponse coded)
      (isResponse.nonempty coded)
  obtain ⟨carries, event, isTold, turned⟩ :=
    shows.exists_turn_of_message rfl polled rfl reading isResponse.windowless hands
  have silent := turned.silent rfl (by simp) (by simp [hasHeard]) rfl rfl
  have arrives := arrives_of_isResponse single (by decide) isResponse.addressed
  refine ⟨_, event, arrives, isTold, _, serverId, clientId, [], none, ?_, turned⟩
  exact Link.settles_of_second (silent_of_waiting isWaiting shows) carries
    (Link.settlesFrom_of_silent silent .a)

/-- The acknowledgement of an answer as the server reads it. -/
structure IsResponseAck
    (conversation : Conversation)
    (id : MessageId)
    (ack : Message) :
    Prop where
  kind_eq : ack.kind = .acknowledgement
  id_eq : ack.id = id
  code_eq : ack.code = .empty
  token_eq : ack.token = conversation.request.token
  windowless : ack.uint? .windowSize = none

theorem exists_responseAck
    (posed : conversation.IsPosed)
    {message response : Message}
    {bytes : List UInt8}
    (written : Wire.encode message = .ok bytes)
    (reading : Wire.decode bytes = .ok response)
    {id : MessageId}
    (isResponse : conversation.IsResponse .confirmable id response) :
    ∃ ackBytes ack,
      Wire.encode (response.ackTo (some Side.b.address) .empty) = .ok ackBytes ∧
        Wire.decode ackBytes = .ok ack ∧ conversation.IsResponseAck id ack := by
  have plain := response.isPlain_ackTo (some Side.b.address) .empty
  have copies (option : MessageOption)
      (isCopied : option ∈ (response.ackTo (some Side.b.address) .empty).options) :=
    Engine.isReadable_of_mem_ackTo written reading isCopied
  have tokenShort := Engine.tokenShort_of_decode written reading
  rw [Message.ackTo_eq] at plain copies ⊢
  have readable : Wire.IsReadable
      { id := response.id
        kind := .acknowledgement
        code := .empty
        token := response.token
        address := some Side.b.address
        options := (response.ackTo (some Side.b.address) .empty).options } :=
    ⟨tokenShort, copies⟩
  obtain ⟨ackBytes, ackWritten, ackReading⟩ := readable.exists_bytes
  refine ⟨ackBytes, _, ackWritten, ackReading, ?_⟩
  obtain ⟨token, token_eq, nonempty⟩ := posed.isTokened
  have tokened : Wire.IsTokened response :=
    ⟨token, isResponse.token_eq.trans token_eq, nonempty⟩
  exact
    { kind_eq := rfl
      id_eq := isResponse.id_eq
      code_eq := rfl
      token_eq := tokened.filter_eq.trans isResponse.token_eq
      windowless := plain.windowless_of_decode ackWritten ackReading }

/-- An answer of its own is told to the handler and acknowledged. -/
theorem exists_handOver_of_response
    (posed : conversation.IsPosed)
    (coded : conversation.code.codeClass ≠ 0)
    (isWaiting : conversation.IsWaiting entry)
    {engine : Engine}
    (shows : engine.Shows conversation.clientSetting nextId
      (conversation.waiting entry))
    {id : MessageId}
    {response : Message}
    (isResponse : conversation.IsResponse .confirmable id response)
    {bytes : List UInt8}
    (written : Wire.encode
      (response.ackTo (some Side.b.address) .empty) = .ok bytes) :
    ∃ event, Engine.IsToldOf conversation.handler response event ∧
      (engine.handOver response (some Side.b.address)).2.Shows
        conversation.clientSetting nextId
        { hasHeard event with sent := [⟨Side.b.address, bytes⟩] } := by
  have key_eq : response.key = conversation.clientSetting.token :=
    Message.key_eq isResponse.token_eq
  have tokened : response.token.isSome := by
    rw [isResponse.token_eq]
    exact posed.isTokened.isSome
  have named_eq : (conversation.waiting entry).named = some (Pool.idOf entry) := by
    unfold Pool.idOf
    rw [isWaiting.message_eq]
    rfl
  exact shows.exists_handOver_of_separate isResponse.kind_eq key_eq tokened
    (isResponse.isResponse coded) (isResponse.nonempty coded) rfl named_eq
    (rfl : _ = some conversation.handler)
      (rfl : conversation.handler.guard = some 0)
    (by simp [waiting]) written

/-- Its acknowledgement takes the answer out of the queue of the server. -/
theorem handOver_of_responseAck
    (posed : conversation.IsPosed)
    {engine : Engine}
    {id : MessageId}
    {message : Message}
    (isReply : conversation.IsReply .confirmable id message)
    (shows : engine.Shows conversation.serverSetting nextId
      { inbound := [received]
        queue :=
          [(PoolEntry.create Timestamp.start message {}).handedOut Timestamp.start]
        named := some message.id })
    {ack : Message}
    (isAck : conversation.IsResponseAck id ack) :
    (engine.handOver { ack with address := some Side.a.address }
      (some Side.a.address)).2.Shows
      conversation.serverSetting nextId { inbound := [received] } := by
  have tokened : ack.token.isSome := by
    rw [isAck.token_eq]
    exact posed.isTokened.isSome
  have handed :=
    @Engine.Shows.handOver_of_emptyAck engine conversation.serverSetting nextId _
      { ack with address := some Side.a.address } shows isAck.kind_eq tokened
        isAck.code_eq rfl
      (some Side.a.address)
  simpa [isAck.id_eq, isReply.id_eq, PoolEntry.create, PoolEntry.handedOut,
    Pool.idOf, Option.filter_some] using handed

/-- An answer of its own, which is acknowledged. -/
theorem informs_of_separate
    (posed : conversation.IsPosed)
    (coded : conversation.code.codeClass ≠ 0)
    (single : ¬ conversation.AnswersInBlocks)
    {id : MessageId}
    {message : Message}
    (hasAnswered : conversation.HasAnswered link serverId entry
      received .confirmable id message) :
    conversation.Informs link received := by
  obtain ⟨isReply, isWaiting, clientId, shows⟩ := hasAnswered
  obtain ⟨bytes, response, written, reading, isResponse⟩ :=
    isReply.exists_response posed
  obtain ⟨ackBytes, ack, ackWritten, ackReading, isAck⟩ :=
    exists_responseAck posed written reading isResponse
  have polled := isReply.pollAll_of_single posed single shows.near written
  rw [if_pos isReply.kind_eq] at polled
  -- the client is told the answer and acknowledges it
  have hands (engine : Engine)
      (showsClient : engine.Shows conversation.clientSetting clientId
        (conversation.waiting entry)) :=
    exists_handOver_of_response posed coded isWaiting showsClient
      isResponse.addressed ackWritten
  obtain ⟨carries, event, isTold, turned⟩ :=
    shows.exists_turn_of_message rfl polled rfl reading isResponse.windowless hands
  -- the server takes the answer out of its queue
  have ackPolled := turned.far
  have rests := ackPolled.poll_of_resting (by simp [hasHeard])
  rw [← Engine.pollAll_of_silent rests Link.pollLimit] at ackPolled
  have ackHands (engine : Engine)
      (showsServer : engine.Shows conversation.serverSetting serverId
        { inbound := [received]
          queue := [(PoolEntry.create Timestamp.start message {}).handedOut
            Timestamp.start]
          named := some message.id }) :=
    handOver_of_responseAck posed isReply showsServer isAck
  obtain ⟨ackCarries, finalShows⟩ :=
    turned.swap.turn_of_message rfl ackPolled rfl ackReading
      isAck.windowless ackHands
  have silent := finalShows.silent rfl (by simp [hasHeard]) (by simp) rfl rfl
  have arrives := arrives_of_isResponse single (by decide) isResponse.addressed
  refine ⟨_, event, arrives, isTold, _, serverId, clientId, [], none, ?_,
    finalShows.swap⟩
  refine Link.settles_of_second (silent_of_waiting isWaiting shows) carries ?_
  exact Link.settles_of_first ackCarries (Link.settlesFrom_of_silent silent .b)

/-! ## Answers in blocks -/

/-- The answer as a parcel. -/
def answerParcel
    (conversation : Conversation)
    (received message : Message)
    (base : MessageId)
    (serial : Nat) :
    Parcel where
  setting := conversation.serverSetting
  whole := message
  hooks := {}
  serial := serial
  base := base
  rest := { inbound := [received] }

/-- The client as its recipient. -/
def answerRecipient
    (conversation : Conversation)
    (entry : PoolEntry) :
    Recipient where
  setting := conversation.clientSetting
  rest := conversation.waiting entry
  done := conversation.told

/-- It takes as many blocks as the bytes of the answer fill. -/
theorem total_answerParcel
    {kind : MessageType}
    {id : MessageId}
    {message : Message}
    (isReply : conversation.IsReply kind id message)
    (received : Message)
    (base : MessageId)
    (serial : Nat) :
    (conversation.answerParcel received message base serial).total =
      SendState.blocksFor conversation.answerLength
        conversation.serverConfig.arq.maxPayload := by
  rw [← isReply.bodyLength_eq]
  rfl

theorem answerParcel_isSound
    (posed : conversation.IsPosed)
    (long : conversation.AnswersInBlocks)
    {id : MessageId}
    {message : Message}
    (isReply : conversation.IsReply .confirmable id message)
    (received : Message)
    (base : MessageId)
    (serial : Nat) :
    (conversation.answerParcel received message base serial).IsSound where
  key_eq := isReply.key_eq
  tokened := isReply.isTokened posed
  routed := isReply.routed
  confirmable := isReply.kind_eq
  plain := isReply.plain
  readable := isReply.readable
  positive := posed.server.maxPayload
  long := by
    have length_eq := isReply.bodyLength_eq
    exact Nat.lt_of_lt_of_eq long length_eq.symm
  fits := by
    rw [total_answerParcel isReply]
    exact posed.answerFits
  windowPositive := posed.server.windowPositive
  windowSmall := posed.server.windowSmall
  room := posed.server.room
  patient := posed.server.patient
  spans := isReply.spans _

theorem answerParcel_suits
    (posed : conversation.IsPosed)
    (undisturbed : conversation.IsUndisturbed)
    (long : conversation.AnswersInBlocks)
    (isWaiting : conversation.IsWaiting entry)
    {id : MessageId}
    {message : Message}
    (isReply : conversation.IsReply .confirmable id message)
    (received : Message)
    (base : MessageId)
    (serial : Nat) :
    (conversation.answerParcel received message base serial).Suits
      (conversation.answerRecipient entry) where
  token_eq := rfl
  positive := undisturbed.keepsAnswer long
  routes := by
    intro named named_eq
    cases named_eq
    refine ⟨entry, List.mem_singleton.mpr rfl, ?_, ?_⟩
    · unfold Pool.idOf
      rw [isWaiting.message_eq]
    · rw [isWaiting.message_eq]
      exact posed.routesTo
  rests := by
    intro other member
    rw [List.mem_singleton.mp member]
    exact isWaiting.rests
  doneRests := by simp [answerRecipient, told]
  hands := by
    intro engine nextId message datagrams shows isHandedOver
    have isSuccess : message.code.isSuccess = true := by
      rw [isHandedOver.code_eq]
      rfl
    have notReset : message.kind ≠ .reset := by
      rw [isHandedOver.kind_eq]
      decide
    have token_eq : message.token = conversation.request.token :=
      isHandedOver.token_eq.trans isReply.token_eq
    obtain ⟨isResponse, nonempty⟩ := Engine.Shows.isResponse_of_isSuccess isSuccess
    obtain ⟨event, isTold, handed⟩ :=
      exists_handOver_of_acknowledgement posed isWaiting shows isHandedOver.kind_eq
        isHandedOver.id_eq token_eq isResponse nonempty
    rw [(Engine.isToldOf_iff_of_success notReset isSuccess).mp isTold] at handed
    exact handed

/-- Once its first fragments are on their way, the answer arrives. -/
theorem informs_of_isReleasing
    (posed : conversation.IsPosed)
    (long : conversation.AnswersInBlocks)
    {id base : MessageId}
    {message : Message}
    (isReply : conversation.IsReply .confirmable id message)
    {serial : Nat}
    (delivers : Link.Delivers .b
      (conversation.answerParcel received message base serial)
      (conversation.answerRecipient entry))
    {before fragments : List Datagram}
    (releasing : link.IsReleasing .b
      (conversation.answerParcel received message base serial)
      (conversation.answerRecipient entry) 0 before fragments)
    (silentClient : link.turn {} .a = ([], link)) :
    conversation.Informs link received := by
  have more : 0 < (conversation.answerParcel received message base serial).total :=
    Nat.lt_of_succ_lt (Parcel.one_lt_total delivers.sound)
  obtain ⟨carries, _⟩ := releasing.turn delivers more
  obtain ⟨final, leads, hasCarried⟩ := releasing.exists_last delivers
  obtain ⟨response, own, isHandedOver, shows⟩ := hasCarried.delivered
  have nonempty : conversation.answer.getD [] ≠ [] :=
    List.length_pos_iff.mp (Nat.lt_of_le_of_lt (Nat.zero_le _) long)
  have payload_eq : response.payload =
      conversation.answer.filter fun payload => payload ≠ [] := by
    rw [filter_eq_some_body nonempty, ← isReply.body_eq]
    exact isHandedOver.payload_eq
  have silent := shows.silent rfl
    (by
      intro other member
      rw [List.mem_singleton.mp member]
      exact PoolEntry.decision_suppressed posed.server.patient rfl)
    (by simp [answerRecipient, told]) rfl rfl
  have isSuccess : response.code.isSuccess = true := by
    rw [isHandedOver.code_eq]
    rfl
  have arrives : conversation.Arrives response :=
    { notReset := by
        rw [isHandedOver.kind_eq]
        decide
      payload_eq := payload_eq
      code_of_single := fun single => (single long).elim
      code_of_blocks := fun _ => isHandedOver.code_eq }
  have isTold : Engine.IsToldOf conversation.handler response
      (.answered conversation.who response) :=
    (Engine.isToldOf_iff_of_success arrives.notReset isSuccess).mpr rfl
  refine ⟨response, _, arrives, isTold, final, _, own, _, _, ?_, shows⟩
  exact Link.settles_of_second silentClient carries
    (leads final (Link.settlesFrom_of_silent silent .b))

/-- An answer on the acknowledgement that goes in blocks. -/
theorem informs_of_notice
    (posed : conversation.IsPosed)
    (undisturbed : conversation.IsUndisturbed)
    (single : ¬ conversation.AsksInBlocks)
    (long : conversation.AnswersInBlocks)
    {message : Message}
    (hasAnswered : conversation.HasAnswered link
      conversation.serverCounter entry received
      .acknowledgement conversation.request.id message) :
    conversation.Informs link received := by
  obtain ⟨isReply, isWaiting, clientId, shows⟩ := hasAnswered
  have stillWaiting : conversation.IsWaiting entry.suppressed :=
    ⟨isWaiting.message_eq, isWaiting.createdAt_eq,
      PoolEntry.decision_suppressed posed.client.patient isWaiting.createdAt_eq⟩
  have inBlocks := isReply.transferMessage
  have delivers (serial : Nat) : Link.Delivers .b
      (conversation.answerParcel received (Engine.transferMessage message)
        conversation.serverCounter serial)
      (conversation.answerRecipient entry.suppressed) :=
    ⟨answerParcel_isSound posed long inBlocks _ _ serial,
      answerParcel_suits posed undisturbed long stillWaiting inBlocks _ _
        serial, rfl, rfl, rfl⟩
  have named_eq : some conversation.request.id = some (Pool.idOf entry) := by
    unfold Pool.idOf
    rw [isWaiting.message_eq]
  have apart :
      (conversation.answerParcel received (Engine.transferMessage message)
          conversation.serverCounter 0).released 0 ≤
        (message.id - conversation.serverCounter).toNat := by
    have enough := undisturbed.apart single long
    unfold Parcel.released
    rw [Nat.zero_add, Parcel.window_eq (delivers 0).sound,
      total_answerParcel inBlocks, isReply.id_eq]
    exact Nat.le_trans (Nat.min_le_left _ _) enough
  obtain ⟨serial, notice, fragments, releasing⟩ :=
    @Link.exists_isReleasing_of_acknowledgement link .b
      (conversation.answerParcel received (Engine.transferMessage message)
        conversation.serverCounter 0)
      (conversation.answerRecipient entry.suppressed) delivers
        message rfl isReply.kind_eq
      isReply.plain isReply.readable apart shows.near entry rfl named_eq
        clientId shows.far
  exact informs_of_isReleasing posed long inBlocks (delivers serial) releasing
    (silent_of_waiting isWaiting shows)

/-- An answer of its own that goes in blocks. -/
theorem informs_of_separateBlocks
    (posed : conversation.IsPosed)
    (undisturbed : conversation.IsUndisturbed)
    (long : conversation.AnswersInBlocks)
    {id : MessageId}
    {message : Message}
    (hasAnswered : conversation.HasAnswered link serverId entry
      received .confirmable id message) :
    conversation.Informs link received := by
  obtain ⟨isReply, isWaiting, clientId, shows⟩ := hasAnswered
  have delivers (serial : Nat) : Link.Delivers .b
      (conversation.answerParcel received message serverId serial)
      (conversation.answerRecipient entry) :=
    ⟨answerParcel_isSound posed long isReply _ _ serial,
      answerParcel_suits posed undisturbed long isWaiting isReply _ _
        serial, rfl, rfl, rfl⟩
  obtain ⟨serial, fragments, releasing⟩ :=
    @Link.exists_isReleasing_of_confirmable link .b
      (conversation.answerParcel received message serverId 0)
      (conversation.answerRecipient entry) delivers shows.near clientId shows.far
  exact informs_of_isReleasing posed long isReply (delivers serial) releasing
    (silent_of_waiting isWaiting shows)

/-! ## All answers -/

/--
The server was handed the request: as it came, or put together from its blocks.
-/
def CameAs
    (conversation : Conversation)
    (serverId : MessageId)
    (received : Message) :
    Prop :=
  (¬ conversation.AsksInBlocks ∧ serverId = conversation.serverCounter ∧
      conversation.IsReceivedWhole received) ∨
    received.kind = .acknowledgement

/-- The answer to what the server was handed arrives, whichever way it goes. -/
theorem HasAsked.informs
    (posed : conversation.IsPosed)
    (coded : conversation.code.codeClass ≠ 0)
    (undisturbed : conversation.IsUndisturbed)
    (hasAsked : conversation.HasAsked quiet clientId serverId entry received)
    (came : conversation.CameAs serverId received) :
    (∃ id, (conversation.respond quiet received).1 = .ok id) ∧
      conversation.Informs (conversation.answered quiet received) received := by
  by_cases long : conversation.AnswersInBlocks
  · rcases came with ⟨single, rfl, isWhole⟩ | isAck
    · obtain ⟨calls, message, hasAnswered⟩ :=
        answered_of_whole posed hasAsked isWhole
      exact ⟨⟨_, calls⟩,
        informs_of_notice posed undisturbed single long hasAnswered⟩
    · obtain ⟨calls, message, hasAnswered⟩ :=
        answered_of_assembled posed hasAsked isAck
      exact ⟨⟨_, calls⟩,
        informs_of_separateBlocks posed undisturbed long hasAnswered⟩
  · rcases came with ⟨_, _, isWhole⟩ | isAck
    · obtain ⟨calls, message, hasAnswered⟩ :=
        answered_of_whole posed hasAsked isWhole
      exact ⟨⟨_, calls⟩, informs_of_piggybacked posed coded long hasAnswered⟩
    · obtain ⟨calls, message, hasAnswered⟩ :=
        answered_of_assembled posed hasAsked isAck
      exact ⟨⟨_, calls⟩, informs_of_separate posed coded long hasAnswered⟩

end Coap.Conversation
