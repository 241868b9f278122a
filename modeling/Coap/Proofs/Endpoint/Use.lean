import Mathlib.Tactic.Common
import Coap.Proofs.Endpoint.Acknowledgement
import Coap.Proofs.Endpoint.Shutdown
import Coap.Proofs.Engine.Expectations

namespace Coap.Endpoint

/-!
# An endpoint in use

Applications queue messages at an endpoint, in four ways, and may cancel them or
stop it. Beyond that they only look, and the network, the clock and the loops go on.
What a use queues is decided by the message and its destination, so that a
discipline is kept in every run whose queued messages it allows.
-/

/-- What is done to an endpoint. -/
inductive Use where
  | call (call : Call)
  | send (message : Message) (ack : Option Listener)
  | request (message : Message)
  | respond (request : Message) (code : Code) (payload : Option (List UInt8))
  | cancel (message : Message)
  | deliveryOf (token : TokenKey)
  | purge
  | stop
deriving DecidableEq

/-- The endpoint after a use. -/
def use
    (endpoint : Endpoint) :
    Use →
    Endpoint
  | .call call => endpoint.perform call
  | .send message ack => (endpoint.send message (ack.map .listener)).2
  | .request message => (endpoint.request message).2
  | .respond request code payload => (endpoint.respond request code payload).2
  | .cancel message => (endpoint.cancel message).2
  | .deliveryOf token => (endpoint.deliveryOf token).2
  | .purge => { endpoint with engine := endpoint.engine.purge.2 }
  | .stop => endpoint.stop

/-- The endpoint after some uses. -/
def useAll
    (endpoint : Endpoint)
    (uses : List Use) :
    Endpoint :=
  uses.foldl use endpoint

/-- The message that a use offers to the pool. -/
def offered?
    (endpoint : Endpoint) :
    Use →
    Option Message
  | .call (.sendRequest message _) => some (endpoint.withToken message).1
  | .send message _ => some (endpoint.withToken message).1
  | .request message => some (endpoint.withToken message).1
  | .respond request code payload =>
      some (responseTo request code payload endpoint.engine.nextId)
  | _ => none

/-- The message that a use queues: one with a destination. -/
def queued?
    (endpoint : Endpoint)
    (use : Use) :
    Option Message :=
  (endpoint.offered? use).filter fun message => message.target?.isSome

/-- The messages that some uses queue, in their order. -/
def queuedBy
    (endpoint : Endpoint) :
    List Use →
    List Message
  | [] => []
  | use :: rest => (endpoint.queued? use).toList ++ (endpoint.use use).queuedBy rest

/-! ## Requests -/

/-- The engine once a request is expected, before it is queued. -/
def expecting
    (endpoint : Endpoint)
    (message : Message)
    (who : Listener) :
    Engine :=
  (endpoint.engine.guardHandler who).2.expect (endpoint.withToken message).1.key
    (endpoint.engine.guardHandler who).1

/-- A request with a destination is expected and queued. -/
theorem sendRequest_of_routed
    (endpoint : Endpoint)
    {message : Message}
    (routed : message.target?.isSome)
    (who : Listener) :
    (endpoint.sendRequest message who).1 = .ok message.id ∧
      (endpoint.sendRequest message who).2.engine =
        (endpoint.expecting message who).enqueue (endpoint.withToken message).1
          { response := some (endpoint.engine.guardHandler who).1 } := by
  obtain ⟨id_eq, target_eq, engine_eq⟩ := endpoint.withToken_frame message
  have hasTarget : (endpoint.withToken message).1.target?.isNone = false := by
    rw [target_eq, Option.isNone_eq_false_iff]
    exact routed
  unfold sendRequest enqueue expecting
  dsimp only
  rw [hasTarget, id_eq, engine_eq]
  exact ⟨rfl, rfl⟩

/-- A request without a destination is expected and forgotten again. -/
theorem sendRequest_of_lost
    (endpoint : Endpoint)
    {message : Message}
    (lost : message.target? = none)
    (who : Listener) :
    (endpoint.sendRequest message who).1 = .error (.noDestination message.id) ∧
      (endpoint.sendRequest message who).2.engine =
        ((endpoint.expecting message who).forget
          (endpoint.withToken message).1.key).2 := by
  obtain ⟨id_eq, target_eq, engine_eq⟩ := endpoint.withToken_frame message
  have hasNone : (endpoint.withToken message).1.target?.isNone = true := by
    rw [target_eq, lost]
    rfl
  unfold sendRequest enqueue expecting
  dsimp only
  rw [hasNone, id_eq, engine_eq]
  exact ⟨rfl, rfl⟩

/-- Looking at the telemetry of a token touches its record. -/
theorem deliveryOf_engine
    (endpoint : Endpoint)
    (token : TokenKey) :
    (endpoint.deliveryOf token).2.engine =
      (endpoint.engine.deliveryOf token).2 := by
  unfold deliveryOf
  dsimp only
  split <;> rfl

section Obeys

variable {endpoint : Endpoint} {arq : ArqConfig} {discipline : Discipline arq}

/-! ## What each use queues -/

/--
The discipline allows an application to queue a message, whoever
waits for its answer.
-/
def Admits
    (discipline : Discipline arq)
    (message : Message) :
    Prop :=
  ∀ response, discipline.queues message.id message { response := response } true

/-- Whatever an application queues, the engine stays tidy. -/
theorem tidy_admits (message : Message) : Admits (.tidy arq) message :=
  fun _ hooked => absurd hooked (Engine.not_isPieceHook none _)

variable (obeys : endpoint.engine.Obeys discipline)
include obeys

theorem enqueue_obeys
    {message : Message}
    (ack : Option AckHandler)
    (response : Option ResponseHandler)
    (admits : message.target?.isSome → Admits discipline message) :
    (endpoint.enqueue message ack { response := response }).2.engine.Obeys
      discipline := by
  unfold enqueue
  cases lost : message.target?.isNone with
  | true => exact obeys
  | false =>
      have allowed := admits (Option.isNone_eq_false_iff.mp lost) response
      cases ack with
      | none => exact obeys.enqueue allowed
      | some handler => exact (obeys.register message.id handler).enqueue allowed

theorem send_obeys
    {message : Message}
    (ack : Option AckHandler)
    (admits : (endpoint.withToken message).1.target?.isSome →
      Admits discipline (endpoint.withToken message).1) :
    (endpoint.send message ack).2.engine.Obeys discipline := by
  have tokened : (endpoint.withToken message).2.engine.Obeys discipline := by
    rw [(endpoint.withToken_frame message).2.2]
    exact obeys
  exact enqueue_obeys tokened ack none admits

theorem sendRequest_obeys
    {message : Message}
    (who : Listener)
    (admits : (endpoint.withToken message).1.target?.isSome →
      Admits discipline (endpoint.withToken message).1) :
    (endpoint.sendRequest message who).2.engine.Obeys discipline := by
  have expecting :
      (endpoint.expecting message who).Obeys discipline := { obeys with }
  obtain ⟨_, target_eq, _⟩ := endpoint.withToken_frame message
  rw [target_eq] at admits
  cases routed : message.target? with
  | none =>
      rw [(endpoint.sendRequest_of_lost routed who).2]
      exact expecting.with_expected _
  | some target =>
      have isRouted : message.target?.isSome := Option.isSome_of_eq_some routed
      rw [(endpoint.sendRequest_of_routed isRouted who).2]
      exact expecting.enqueue (admits isRouted _)

theorem respond_obeys
    {request : Message}
    {code : Code}
    {payload : Option (List UInt8)}
    (admits :
      (responseTo request code payload endpoint.engine.nextId).target?.isSome →
      Admits discipline (responseTo request code payload endpoint.engine.nextId)) :
    (endpoint.respond request code payload).2.engine.Obeys discipline := by
  by_cases confirmable : request.kind = .confirmable
  · -- the answer of a confirmable request has the request's identifier
    have same (id : MessageId) : responseTo request code payload id =
        responseTo request code payload endpoint.engine.nextId := by
      unfold responseTo
      rw [if_pos confirmable]
      simp only [confirmable, ↓reduceIte]
    unfold respond
    simp only [confirmable, ↓reduceIte]
    exact enqueue_obeys obeys none none (same request.id ▸ admits)
  · unfold respond
    simp only [confirmable, ↓reduceIte]
    have drawn : { endpoint with
      engine := endpoint.engine.drawId.2 }.engine.Obeys discipline :=
      { obeys with }
    exact enqueue_obeys drawn none none admits

theorem cancel_obeys (message : Message) :
    (endpoint.cancel message).2.engine.Obeys discipline := by
  have unwatched : (endpoint.engine.dropAck message.id).Obeys discipline :=
    obeys.of_windsDown (Engine.dropAck_windsDown _ _) (.of_eq rfl)
  have forgotten := unwatched.with_expected
    ((endpoint.engine.dropAck message.id).forget message.key).2.expected
  exact forgotten.of_windsDown (Engine.take_windsDown _ message.id)
    (Pool.discard_calms _ message.id)

/--
A discipline is kept by a use that queues nothing, or something that is allowed.
-/
theorem use_obeys
    {use : Use}
    (admits : ∀ message ∈ endpoint.queued? use, Admits discipline message) :
    (endpoint.use use).engine.Obeys discipline := by
  have offered {message : Message}
      (isOffered : endpoint.offered? use = some message)
      (routed : message.target?.isSome) :
      Admits discipline message :=
    admits message (Option.filter_eq_some_iff.mpr ⟨isOffered, routed⟩)
  cases use with
  | call call =>
      cases call with
      | sendRequest message who => exact sendRequest_obeys obeys who (offered rfl)
      | poll => exact obeys.poll
      | receive datagram source => exact obeys.process datagram source
      | advance length => exact { obeys with }
  | send message ack => exact send_obeys obeys _ (offered rfl)
  | request message =>
      have numbered : { endpoint with
          nextMailbox := endpoint.nextMailbox + 1 }.engine.Obeys discipline := obeys
      refine sendRequest_obeys numbered _ (offered (congrArg some ?_))
      -- the mailbox has no part in the token
      unfold withToken
      cases message.token <;> rfl
  | respond request code payload => exact respond_obeys obeys (offered rfl)
  | cancel message => exact cancel_obeys obeys message
  | deliveryOf token =>
      change (endpoint.deliveryOf token).2.engine.Obeys discipline
      rw [deliveryOf_engine]
      exact obeys.of_windsDown (@Engine.deliveryOf_windsDown (fun _ => False) _ _)
        (.of_eq rfl)
  | purge => exact obeys.purge
  | stop => exact (obeys.drainPool stoppedReason).failAllAcks stoppedReason

/-- So it is kept in every run whose queued messages are allowed. -/
theorem useAll_obeys
    {uses : List Use}
    (admits : ∀ message ∈ endpoint.queuedBy uses, Admits discipline message) :
    (endpoint.useAll uses).engine.Obeys discipline := by
  induction uses generalizing endpoint with
  | nil => exact obeys
  | cons use rest inductionHypothesis =>
      refine inductionHypothesis (use_obeys obeys fun message member => ?_)
        fun message member =>
        admits message (List.mem_append_right _ member)
      exact admits message (List.mem_append_left _ (Option.mem_toList.mpr member))

end Obeys

/-! ## Who is expected -/

/--
The endpoint after a run: its engine is tidy, and none who is
expected has to make room.
-/
structure IsUsed
    (endpoint : Endpoint)
    (arq : ArqConfig) :
    Prop where
  tidy : endpoint.engine.Obeys (.tidy arq)
  boundless : endpoint.engine.expected.IsBoundless

theorem enqueue_expected
    (endpoint : Endpoint)
    (message : Message)
    (ack : Option AckHandler)
    (hooks : Hooks) :
    (endpoint.enqueue message ack hooks).2.engine.expected =
      endpoint.engine.expected := by
  unfold enqueue
  split
  · rfl
  · cases ack with
    | none => exact Engine.enqueue_expected _ message hooks
    | some handler => exact Engine.enqueue_expected _ message hooks

namespace IsUsed

variable {endpoint : Endpoint} {arq : ArqConfig}

/-- A fresh endpoint. -/
theorem create
    (config : EndpointConfig)
    (localAddress : SocketAddress)
    (nextId : MessageId)
    (supply : TokenSupply) :
    (create config localAddress nextId supply).IsUsed config.arq where
  tidy := .create config.pool _ nextId
  boundless := .withIdle Engine.responseIdle

theorem sendRequest
    (used : endpoint.IsUsed arq)
    (message : Message)
    (who : Listener) :
    (endpoint.sendRequest message who).2.IsUsed arq where
  tidy := sendRequest_obeys used.tidy who fun _ => tidy_admits _
  boundless := by
    have expecting : (endpoint.expecting message who).expected.IsBoundless :=
      used.boundless.insert _ _ _
    cases routed : message.target? with
    | none =>
        rw [(endpoint.sendRequest_of_lost routed who).2]
        exact expecting.erase _
    | some target =>
        rw [(endpoint.sendRequest_of_routed
          (Option.isSome_of_eq_some routed) who).2, Engine.enqueue_expected]
        exact expecting

theorem perform
    (used : endpoint.IsUsed arq)
    (call : Call) :
    (endpoint.perform call).IsUsed arq := by
  cases call with
  | sendRequest message who => exact used.sendRequest message who
  | poll =>
      exact ⟨used.tidy.poll, Engine.poll_expected used.boundless used.tidy.keyed⟩
  | receive datagram source =>
      exact ⟨used.tidy.process datagram source,
        Engine.process_expected used.boundless datagram source⟩
  | advance length => exact ⟨{ used.tidy with }, used.boundless⟩

theorem use
    (used : endpoint.IsUsed arq)
    (use : Use) :
    (endpoint.use use).IsUsed arq := by
  refine ⟨use_obeys used.tidy fun message _ => tidy_admits message, ?_⟩
  cases use with
  | call call => exact (used.perform call).boundless
  | send message ack =>
      change ((endpoint.withToken message).2.enqueue (endpoint.withToken message).1
        (ack.map .listener) {}).2.engine.expected.IsBoundless
      rw [enqueue_expected, (endpoint.withToken_frame message).2.2]
      exact used.boundless
  | request message =>
      have numbered : { endpoint with
          nextMailbox := endpoint.nextMailbox + 1 }.IsUsed arq :=
        ⟨used.tidy, used.boundless⟩
      exact (numbered.sendRequest message (.mailbox endpoint.nextMailbox)).boundless
  | respond request code payload =>
      change (endpoint.respond request code payload).2.engine.expected.IsBoundless
      unfold respond
      dsimp only
      rw [enqueue_expected]
      split
      · exact used.boundless
      · exact used.boundless
  | cancel message => exact used.boundless.erase message.key
  | deliveryOf token =>
      change (endpoint.deliveryOf token).2.engine.expected.IsBoundless
      rw [deliveryOf_engine]
      exact used.boundless
  | purge => exact used.boundless.purge endpoint.engine.now
  | stop =>
      change (((endpoint.engine.drainPool stoppedReason).failAllAcks
        stoppedReason).expected ).IsBoundless
      rw [(Engine.failAllAcks_windsDown _ stoppedReason).expected_eq,
        (Engine.drainPool_windsDown _ stoppedReason).expected_eq]
      exact used.boundless

theorem useAll
    (used : endpoint.IsUsed arq)
    (uses : List Use) :
    (endpoint.useAll uses).IsUsed arq :=
  List.foldlRecOn (motive := fun endpoint =>
    endpoint.IsUsed arq) uses Endpoint.use used
    fun _ before use _ => before.use use

end IsUsed

end Coap.Endpoint
