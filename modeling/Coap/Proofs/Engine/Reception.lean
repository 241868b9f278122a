import Mathlib.Tactic.Common
import Coap.Proofs.Engine.Inbound
import Coap.Proofs.Engine.Scene

namespace Coap.Engine

/-!
# Messages on their way into a conversation

Behind the block-wise stage an acknowledgement completes the message that it
answers, and a response completes the request that waits for it. What nobody waits
for reaches the application.
-/

/--
A request completes no message, nor does a message that asks for an acknowledgement.
-/
theorem acknowledgementStage_of_unrelated
    {engine : Engine}
    {message : Message}
    (unrelated : (message.isRequest || !message.kind.isAckOrReset) = true)
    (cell : Option SocketAddress) :
    (engine.acknowledgementStage message cell).state = engine := by
  unfold acknowledgementStage
  rw [if_pos unrelated]

/-- No stage holds back a request. -/
theorem handOver_of_isRequest
    {engine : Engine}
    {message : Message}
    (isRequest : message.isRequest = true)
    (cell : Option SocketAddress) :
    (engine.handOver message cell).2 = (engine.deliver message).2 := by
  have unanswering : (engine.acknowledgementStage message cell).state = engine :=
    acknowledgementStage_of_unrelated (by rw [isRequest]; rfl) cell
  unfold handOver responseReceive
  rw [unanswering, isRequest]
  rfl

/--
What a handler is told of the response to its request; the telemetry is left open.
-/
def IsToldOf
    (handler : ResponseHandler)
    (response : Message)
    (event : Event) :
    Prop :=
  match response.failureReason? with
  | none => event = .answered handler.who response
  | some reason =>
      ∃ delivery, event =
        .failed handler.who { reason := reason, delivery := delivery }

section Outcome

variable {handler : ResponseHandler} {response : Message} {event : Event}

/-- A success that is no reset is told as it is. -/
theorem isToldOf_iff_of_success
    (notReset : response.kind ≠ .reset)
    (isSuccess : response.code.isSuccess = true) :
    IsToldOf handler response event ↔ event = .answered handler.who response := by
  unfold IsToldOf Message.failureReason?
  rw [if_neg notReset, isSuccess]
  rfl

/-- Of any other response, code and payload are told as text. -/
theorem isToldOf_iff_of_failure
    (notReset : response.kind ≠ .reset)
    (isFailure : response.code.isSuccess = false) :
    IsToldOf handler response event ↔
      ∃ delivery,
        event = .failed handler.who
          { reason := .response response.statusText, delivery := delivery } := by
  unfold IsToldOf Message.failureReason?
  rw [if_neg notReset, isFailure]
  rfl

end Outcome

namespace Shows

variable {engine : Engine} {setting : Setting} {nextId : MessageId} {scene : Scene}
variable {message : Message}

/-! ## Stages -/

theorem handOver_of_request
    (shows : engine.Shows setting nextId scene)
    (isRequest : message.isRequest = true)
    (cell : Option SocketAddress) :
    (engine.handOver message cell).2.Shows setting nextId
      { scene with inbound := scene.inbound ++ [message] } := by
  rw [handOver_of_isRequest isRequest]
  exact shows.deliver message

/-- An acknowledgement that nobody waits for only completes its message. -/
theorem acknowledgementStage_of_ack
    (shows : engine.Shows setting nextId scene)
    (isResponse : message.isRequest = false)
    (isAck : message.kind = .acknowledgement)
    (watched_eq : scene.watched = [])
    (cell : Option SocketAddress) :
    (engine.acknowledgementStage message cell).state.Shows setting nextId
      { scene with
        queue := scene.queue.filter fun entry => Pool.idOf entry ≠ message.id
        named := scene.named.filter fun name => name ≠ message.id } := by
  have discarded := shows.discard message.id
  unfold acknowledgementStage
  simp only [isResponse, isAck, MessageType.isAckOrReset, Bool.not_true,
    Bool.or_self, Bool.false_eq_true, ↓reduceIte]
  rw [discarded.acks_get watched_eq]
  exact discarded

/-- A confirmable message completes no message. -/
theorem acknowledgementStage_of_confirmable
    (engine : Engine)
    (confirmable : message.kind = .confirmable)
    (cell : Option SocketAddress) :
    (engine.acknowledgementStage message cell).state = engine :=
  acknowledgementStage_of_unrelated (by rw [confirmable]; exact Bool.or_true _) cell

/--
Telemetry is read for a failure, which is told to a handler whose
guard is unclaimed.
-/
theorem exists_tellFailureOf
    (shows : engine.Shows setting nextId scene)
    {handler : ResponseHandler}
    {guard : Nat}
    (guarded : handler.guard = some guard)
    (unclaimed : guard ∉ scene.claimed)
    (token : TokenKey)
    (reason : FailureReason) :
    ∃ delivery,
      (engine.tellFailureOf (some handler) token reason).Shows setting nextId
        { scene with
          claimed := guard :: scene.claimed
          events := scene.events ++
            [.failed handler.who { reason := reason, delivery := delivery }] } := by
  refine ⟨(engine.deliveryOf token).1, ?_⟩
  have unclaimedHere : guard ∉ engine.claimed := by
    rw [shows.claimed_eq]
    exact unclaimed
  unfold tellFailureOf deliveryOf tellFailure tellOutcome
  dsimp only
  rw [guarded]
  dsimp only
  rw [if_neg unclaimedHere]
  exact
    { shows with
      config_eq := shows.config_eq
      pool := shows.pool.with_delivery _
      claimed_eq := congrArg (guard :: ·) shows.claimed_eq
      events_eq := congrArg (· ++ _) shows.events_eq }

/--
The handler that waits for a response is told of it, and its
request leaves the queue.
-/
theorem exists_completeRequest
    (shows : engine.Shows setting nextId scene)
    (queued : scene.queue = [] ∨
      ∃ entry, scene.queue = [entry] ∧ scene.named = some (Pool.idOf entry))
    (key_eq : message.key = setting.token)
    {handler : ResponseHandler}
    {guard : Nat}
    (guarded : handler.guard = some guard)
    (unclaimed : guard ∉ scene.claimed) :
    ∃ event, IsToldOf handler message event ∧
      (engine.completeRequest message handler).Shows setting nextId
        { scene with
          queue := []
          named := none
          claimed := guard :: scene.claimed
          events := scene.events ++ [event] } := by
  have taken : (engine.takeByToken setting.token).2.Shows setting nextId
      { scene with
        queue := []
        named := none } := by
    rcases queued with empty | ⟨entry, alone, named_eq⟩
    · have holds := shows.pool
      rw [empty] at holds
      have unnamed := holds.named_eq_none
      rw [shows.takeByToken_of_none unnamed, ← empty, ← unnamed]
      exact shows
    · obtain ⟨after, taken, showsAfter⟩ :=
        shows.takeByToken_of_named named_eq
          (by rw [alone]; exact List.mem_singleton.mpr rfl)
      rw [taken]
      rw [alone, List.filter_singleton] at showsAfter
      simpa using showsAfter
  unfold completeRequest IsToldOf
  rw [key_eq]
  cases message.failureReason? with
  | none => exact ⟨_, rfl, taken.tellResponse guarded unclaimed message⟩
  | some reason =>
      obtain ⟨delivery, told⟩ :=
        taken.exists_tellFailureOf guarded unclaimed setting.token reason
      exact ⟨_, ⟨delivery, rfl⟩, told⟩

end Shows

/-! ## The response stage -/

section Response

variable {engine acknowledged later : Engine} {message : Message}
variable {cell : Option SocketAddress}

/--
What the response stage sends first: an acknowledgement of a message of its own.
-/
def acknowledgeResponse
    (engine : Engine)
    (message : Message)
    (cell : Option SocketAddress) :
    Except TransportError Unit × Engine :=
  if message.kind = .confirmable then engine.sendNow (message.ackTo cell .empty)
  else (.ok (), engine)

/-- A request, and a message without a token, is no response. -/
theorem responseReceive_of_unrelated
    (unrelated : (message.isRequest || message.token.isNone) = true) :
    engine.responseReceive message cell =
      { state := engine
        message := message
        cell := cell
        result := .ok .pass } := by
  unfold responseReceive
  rw [if_pos unrelated]

/--
If the acknowledgement of a response is not sent, the response goes no further.
-/
theorem responseReceive_of_unsent
    (isResponse : message.isRequest = false)
    (tokened : message.token.isSome)
    {cause : TransportError}
    (acknowledges : engine.acknowledgeResponse message cell =
      (.error cause, acknowledged)) :
    engine.responseReceive message cell =
      { state := acknowledged
        message := message
        cell := cell
        result := .error (.transmit cause) } := by
  unfold acknowledgeResponse at acknowledges
  unfold responseReceive
  simp only [isResponse, Option.isNone_eq_false_iff.mpr tokened, Bool.or_self,
    Bool.false_eq_true, ↓reduceIte, acknowledges]

/-- A response that is awaited completes its request. -/
theorem responseReceive_of_expected
    (isResponse : message.isRequest = false)
    (tokened : message.token.isSome)
    (nonempty : message.code ≠ .empty)
    (acknowledges : engine.acknowledgeResponse message cell =
      (.ok (), acknowledged))
    {handler : ResponseHandler}
    (forgets : acknowledged.forget message.key = (some handler, later)) :
    engine.responseReceive message cell =
      { state := later.completeRequest message handler
        message := message
        cell := cell
        result := .ok .stop } := by
  unfold acknowledgeResponse at acknowledges
  unfold responseReceive
  simp only [isResponse, Option.isNone_eq_false_iff.mpr tokened, Bool.or_self,
    Bool.false_eq_true, ↓reduceIte, acknowledges, nonempty, forgets]

/-- A response that nobody awaits passes. -/
theorem responseReceive_of_unexpected
    (isResponse : message.isRequest = false)
    (tokened : message.token.isSome)
    (nonempty : message.code ≠ .empty)
    (acknowledges : engine.acknowledgeResponse message cell =
      (.ok (), acknowledged))
    (forgets : acknowledged.forget message.key = (none, later)) :
    engine.responseReceive message cell =
      { state := later
        message := message
        cell := cell
        result := .ok .pass } := by
  unfold acknowledgeResponse at acknowledges
  unfold responseReceive
  simp only [isResponse, Option.isNone_eq_false_iff.mpr tokened, Bool.or_self,
    Bool.false_eq_true, ↓reduceIte, acknowledges, nonempty, forgets]

/-- A message without a code is no response. -/
theorem responseReceive_of_empty
    (tokened : message.token.isSome)
    (empty : message.code = .empty)
    (acknowledges : engine.acknowledgeResponse message cell =
      (.ok (), acknowledged)) :
    engine.responseReceive message cell =
      { state := acknowledged
        message := message
        cell := cell
        result := .ok .stop } := by
  have isResponse : message.isRequest = false := by
    unfold Message.isRequest
    rw [empty]
    rfl
  unfold acknowledgeResponse at acknowledges
  unfold responseReceive
  simp only [isResponse, Option.isNone_eq_false_iff.mpr tokened, Bool.or_self,
    Bool.false_eq_true, ↓reduceIte, acknowledges, empty]

end Response

namespace Shows

variable {engine : Engine} {setting : Setting} {nextId : MessageId} {scene : Scene}
variable {message : Message}

/-! ## Through all stages -/

/-- An acknowledgement without a code completes its message. -/
theorem handOver_of_emptyAck
    (shows : engine.Shows setting nextId scene)
    (isAck : message.kind = .acknowledgement)
    (tokened : message.token.isSome)
    (empty : message.code = .empty)
    (watched_eq : scene.watched = [])
    (cell : Option SocketAddress) :
    (engine.handOver message cell).2.Shows setting nextId
      { scene with
        queue := scene.queue.filter fun entry => Pool.idOf entry ≠ message.id
        named := scene.named.filter fun name => name ≠ message.id } := by
  have isResponse : message.isRequest = false := by
    unfold Message.isRequest
    rw [empty]
    rfl
  have staged := shows.acknowledgementStage_of_ack isResponse isAck watched_eq cell
  unfold handOver
  rw [responseReceive_of_empty tokened empty
    (by unfold acknowledgeResponse; rw [isAck]; rfl)]
  exact staged

/-- A success is neither a request nor without a code. -/
theorem isResponse_of_isSuccess
    (isSuccess : message.code.isSuccess = true) :
    message.isRequest = false ∧ message.code ≠ .empty := by
  have successes (code : Code) :
      code.isSuccess = true → code.isRequest = false ∧ code ≠ .empty := by
    cases code <;> decide
  exact successes message.code isSuccess

/-- An acknowledgement that nobody awaits reaches the application. -/
theorem handOver_of_unexpected
    (shows : engine.Shows setting nextId scene)
    (isAck : message.kind = .acknowledgement)
    (key_eq : message.key = setting.token)
    (tokened : message.token.isSome)
    (isSuccess : message.code.isSuccess = true)
    (watched_eq : scene.watched = [])
    (awaited_eq : scene.awaited = none)
    (cell : Option SocketAddress) :
    (engine.handOver message cell).2.Shows setting nextId
      { scene with
        queue := scene.queue.filter fun entry => Pool.idOf entry ≠ message.id
        named := scene.named.filter fun name => name ≠ message.id
        inbound := scene.inbound ++ [message] } := by
  obtain ⟨isResponse, nonempty⟩ := isResponse_of_isSuccess isSuccess
  have staged := shows.acknowledgementStage_of_ack isResponse isAck watched_eq cell
  obtain ⟨later, forgets, showsLater⟩ := staged.forget
  dsimp only at forgets showsLater
  rw [awaited_eq, ← key_eq] at forgets
  unfold handOver
  rw [responseReceive_of_unexpected isResponse tokened nonempty
    (by unfold acknowledgeResponse; rw [isAck]; rfl) forgets]
  have delivered := showsLater.deliver message
  rw [← awaited_eq] at delivered
  exact delivered

/-- An acknowledgement that is awaited is told to whoever waits. -/
theorem exists_handOver_of_answer
    (shows : engine.Shows setting nextId scene)
    (isAck : message.kind = .acknowledgement)
    (key_eq : message.key = setting.token)
    (tokened : message.token.isSome)
    (isResponse : message.isRequest = false)
    (nonempty : message.code ≠ .empty)
    (watched_eq : scene.watched = [])
    (answered : ∀ entry ∈ scene.queue, Pool.idOf entry = message.id)
    {handler : ResponseHandler}
    (awaited_eq : scene.awaited = some handler)
    {guard : Nat}
    (guarded : handler.guard = some guard)
    (unclaimed : guard ∉ scene.claimed)
    (cell : Option SocketAddress) :
    ∃ event, IsToldOf handler message event ∧
      (engine.handOver message cell).2.Shows setting nextId
        { scene with
          queue := []
          named := none
          awaited := none
          claimed := guard :: scene.claimed
          events := scene.events ++ [event] } := by
  have staged := shows.acknowledgementStage_of_ack isResponse isAck watched_eq cell
  have emptied : (scene.queue.filter fun entry => Pool.idOf entry ≠ message.id) =
      [] := by
    rw [List.filter_eq_nil_iff]
    intro entry member
    simp [answered entry member]
  rw [emptied] at staged
  obtain ⟨later, forgets, showsLater⟩ := staged.forget
  dsimp only at forgets showsLater
  rw [awaited_eq, ← key_eq] at forgets
  unfold handOver
  rw [responseReceive_of_expected isResponse tokened nonempty
    (by unfold acknowledgeResponse; rw [isAck]; rfl) forgets]
  exact showsLater.exists_completeRequest (.inl rfl) key_eq guarded unclaimed

/--
A response of its own that is awaited is acknowledged and told to whoever waits.
-/
theorem exists_handOver_of_separate
    (shows : engine.Shows setting nextId scene)
    (confirmable : message.kind = .confirmable)
    (key_eq : message.key = setting.token)
    (tokened : message.token.isSome)
    (isResponse : message.isRequest = false)
    (nonempty : message.code ≠ .empty)
    {entry : PoolEntry}
    (alone : scene.queue = [entry])
    (named_eq : scene.named = some (Pool.idOf entry))
    {handler : ResponseHandler}
    (awaited_eq : scene.awaited = some handler)
    {guard : Nat}
    (guarded : handler.guard = some guard)
    (unclaimed : guard ∉ scene.claimed)
    {source : SocketAddress}
    {bytes : List UInt8}
    (written : Wire.encode (message.ackTo (some source) .empty) = .ok bytes) :
    ∃ event, IsToldOf handler message event ∧
      (engine.handOver message (some source)).2.Shows setting nextId
        { scene with
          queue := []
          named := none
          awaited := none
          claimed := guard :: scene.claimed
          sent := scene.sent ++ [⟨source, bytes⟩]
          events := scene.events ++ [event] } := by
  have routed : (message.ackTo (some source) .empty).target? = some source := by
    rw [Message.ackTo_eq]
    rfl
  obtain ⟨acknowledged, acknowledges, showsAcknowledged⟩ :=
    shows.sendNow routed written
  obtain ⟨later, forgets, showsLater⟩ := showsAcknowledged.forget
  dsimp only at forgets showsLater
  rw [awaited_eq, ← key_eq] at forgets
  unfold handOver
  rw [acknowledgementStage_of_confirmable engine confirmable,
    responseReceive_of_expected isResponse tokened nonempty
      (by unfold acknowledgeResponse; rw [if_pos confirmable]; exact acknowledges)
        forgets]
  exact showsLater.exists_completeRequest
    (.inr ⟨entry, alone, named_eq⟩) key_eq guarded unclaimed

end Shows

end Coap.Engine
