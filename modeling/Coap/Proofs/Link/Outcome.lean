import Mathlib.Tactic.Common
import Coap.Proofs.Link.Answer

namespace Coap.Conversation

/-!
# Requests are answered once

On a link without faults every request reaches the other application once, and every
answer reaches its handler once, whatever their lengths. Three things stand in the
way: an inbound transfer that goes idle at once, an identifier that a request shares
with a fragment of its answer, and a request that expects a long response where no
duration is as long as its garbage period.
-/

variable {conversation : Conversation} {quiet : Link}
variable {clientId serverId : MessageId}
variable {entry : PoolEntry} {received : Message}

/--
The link settles twice. After the request the server has been handed one message,
with its token, path and payload; after the answer the handler of the request has
been told once, and nothing is left of either message at the client, nor of any
transfer on either side. A payload without bytes counts as absent, and a path
counts as it is read, which is as it was if it is made of texts. No call has
failed on the way.
-/
def IsAnswered (conversation : Conversation) : Prop :=
  (conversation.client.sendRequest conversation.request conversation.who).1 =
      .ok conversation.request.id ∧
    ∃ quiet received,
      conversation.asked.Settles quiet ∧
      quiet.b.inbound = [received] ∧
      received.token = conversation.request.token ∧
      received.path = Wire.readPath conversation.request ∧
      (Wire.HasTextPath conversation.request →
        received.path = conversation.request.path) ∧
      received.payload =
        (conversation.request.payload.filter fun payload => payload ≠ []) ∧
      (∃ id, (conversation.respond quiet received).1 = .ok id) ∧
      ∃ final response,
        (conversation.answered quiet received).Settles final ∧
        final.b.inbound = [received] ∧
        final.a.events = [.answered conversation.who response] ∧
        response.payload =
          (conversation.answer.filter fun payload => payload ≠ []) ∧
        final.a.pool.size = 0 ∧ final.a.acks.size = 0 ∧ final.b.acks.size = 0 ∧
        ∀ side, (final.engine side).outgoing = [] ∧
          (final.engine side).incoming.size = 0 ∧
          (final.engine side).faulted = false

/-- A success is told to the handler whole, whichever way it goes. -/
theorem HasAsked.concludes
    (regular : conversation.IsRegular)
    (undisturbed : conversation.IsUndisturbed)
    (hasAsked : conversation.HasAsked quiet clientId serverId entry received)
    (came : conversation.CameAs serverId received) :
    (∃ id, (conversation.respond quiet received).1 = .ok id) ∧
      conversation.Concludes (conversation.answered quiet received) received := by
  have coded : conversation.code.codeClass ≠ 0 := by
    rw [beq_iff_eq.mp regular.isSuccess]
    decide
  obtain ⟨responds, informs⟩ :=
    hasAsked.informs regular.isPosed coded undisturbed came
  exact ⟨responds, informs.concludes regular⟩

/-- Nothing is left of a conversation in a side that shows nothing of it. -/
theorem nothing_left
    {engine : Engine}
    {setting : Setting}
    {nextId : MessageId}
    {scene : Scene}
    (shows : engine.Shows setting nextId scene)
    (watched_eq : scene.watched = [])
    (sending_eq : scene.sending = none)
    (receiving_eq : scene.receiving = none) :
    engine.acks.size = 0 ∧ engine.outgoing = [] ∧ engine.incoming.size = 0 ∧
      engine.faulted = false := by
  refine ⟨?_, ?_, ?_, shows.faulted_eq⟩
  · rw [shows.acks.size_eq, watched_eq]
    rfl
  · rw [shows.outgoing_eq, sending_eq]
    rfl
  · rw [shows.incoming.size_eq, receiving_eq]
    rfl

theorem isAnswered_of_hasAsked
    (regular : conversation.IsRegular)
    (undisturbed : conversation.IsUndisturbed)
    (settles : conversation.asked.Settles quiet)
    (hasAsked : conversation.HasAsked quiet clientId serverId entry received)
    (came : conversation.CameAs serverId received) :
    conversation.IsAnswered := by
  obtain ⟨token, token_eq, _⟩ := regular.tokened
  obtain ⟨responds, final, response, _, _, queue, named, settlesAgain,
    payload_eq, shows⟩ :=
    hasAsked.concludes regular undisturbed came
  have isReceived := hasAsked.isReceived
  have client := nothing_left shows.far rfl rfl rfl
  have server := nothing_left shows.near rfl rfl rfl
  refine ⟨?_, quiet, received, settles, hasAsked.shows.far.inbound_eq,
    isReceived.token_eq, isReceived.path_eq,
    fun texts => isReceived.path_eq.trans texts.readPath_eq, isReceived.payload_eq,
    responds, final, response, settlesAgain, shows.near.inbound_eq,
    shows.far.events_eq, payload_eq, shows.far.pool.size_eq, client.1, server.1, ?_⟩
  · unfold Endpoint.sendRequest Endpoint.withToken Endpoint.enqueue
    rw [token_eq]
    dsimp only
    rw [regular.routed]
    rfl
  · intro side
    cases side with
    | a => exact client.2
    | b => exact server.2

/-! ## Conversations that fail -/

/--
Nothing is answered if the link comes to rest and the server has not been handed
exactly one message.
-/
theorem not_isAnswered_of_misheard
    {rounds : Nat}
    (atRest : (Link.pump {} rounds 0 conversation.asked).link.IsAtRest)
    (misheard :
      (Link.pump {} rounds 0 conversation.asked).link.b.inbound.length ≠ 1) :
    ¬ conversation.IsAnswered := by
  rintro ⟨_, quiet, received, settles, inbound_eq, _⟩
  rw [← settles.unique (Link.settles_pump atRest), inbound_eq] at misheard
  exact misheard rfl

/--
Where the link comes to rest again, the handler has been told
something, and no call failed.
-/
theorem IsAnswered.of_rest
    (isAnswered : conversation.IsAnswered)
    {rounds : Nat}
    (atRest : (Link.pump {} rounds 0 conversation.asked).link.IsAtRest)
    (heard : (Link.pump {} rounds 0 conversation.asked).link.b.inbound = [received])
    (more : Nat)
    (atRestAgain : (Link.pump {} more 0 (conversation.answered
      (Link.pump {} rounds 0 conversation.asked).link received)).link.IsAtRest) :
    (Link.pump {} more 0 (conversation.answered
        (Link.pump {} rounds 0 conversation.asked).link received)).link.a.events ≠
        [] ∧
      (Link.pump {} more 0 (conversation.answered
        (Link.pump {} rounds 0 conversation.asked).link received)).link.a.faulted =
        false := by
  obtain ⟨_, quiet, message, settles, inbound_eq, _, _, _, _, _, final, response,
    settlesAgain, _,
    events_eq, _, _, _, _, both⟩ := isAnswered
  obtain rfl := settles.unique (Link.settles_pump atRest)
  rw [heard] at inbound_eq
  obtain ⟨rfl, _⟩ := List.cons.inj inbound_eq
  rw [← settlesAgain.unique (Link.settles_pump atRestAgain), events_eq]
  exact ⟨List.cons_ne_nil _ _, (both .a).2.2⟩

/-! ## Small conversations -/

/--
A request and its answer, between endpoints with blocks of two
bytes and windows of two.
-/
def sample
    (sharesIds : Bool)
    (id : MessageId)
    (payload answer : List UInt8)
    (receiveIdle : Nat) :
    Conversation where
  clientConfig :=
    { arq := { windowSize := 2, maxPayload := 2, receiveIdle := receiveIdle } }
  serverConfig :=
    { arq := { windowSize := 2, maxPayload := 2, receiveIdle := receiveIdle } }
  clientId := 100
  serverId := 100
  sharesIds := sharesIds
  clientTokens := TokenSupply.counting 0
  serverTokens := TokenSupply.counting 0
  request :=
    { id := id
      kind := .confirmable
      code := .post
      token := some ⟨[7]⟩
      address := some Side.b.address
      payload := some payload
      options := [MessageOption.text .uriPath "u"] }
  who := .observer "asker"
  code := .content
  answer := some answer

/--
The garbage period does not matter to a sample as long as there is one, nor does the
wait for long responses.
-/
theorem isUsable_of_garbagePeriod
    {garbagePeriod : Nat}
    (positive : 0 < garbagePeriod)
    (resendLongPeriod receiveIdle : Nat) :
    EndpointConfig.IsUsable
      { pool :=
          { garbagePeriod := garbagePeriod, resendLongPeriod := resendLongPeriod }
        arq :=
          { windowSize := 2, maxPayload := 2, receiveIdle := receiveIdle } } where
  maxPayload := (by decide : 1 ≤ 2)
  windowPositive := (by decide : 1 ≤ 2)
  windowSmall := (by decide : 2 < 65536)
  room := (by decide : 2 < ({} : PoolConfig).capacity)
  patient :=
    have usual : ({} : PoolConfig).IsPatient :=
      ⟨by decide, by decide, by decide, by decide⟩
    { usual with garbagePeriod := positive }

/-- A message whose only option is a piece of a path can be written and read. -/
theorem readable_of_path
    {message : Message}
    {option : MessageOption}
    (only : message.options = [option])
    (isPath : option.number = .uriPath)
    (short : (Wire.encodeValue option.value).length ≤ Wire.maxExtended)
    (tokenShort : (message.token.elim [] Token.bytes).length ≤ Token.maxLength) :
    message.IsPlain ∧ ∃ bytes read,
      Wire.encode message = .ok bytes ∧ Wire.decode bytes = .ok read := by
  have option_eq : ∀ other ∈ message.options, other = option := by
    intro other member
    rw [only] at member
    exact List.mem_singleton.mp member
  refine ⟨fun other member => ?_, ?_⟩
  · rw [option_eq other member, isPath]
    decide
  · obtain ⟨bytes, written⟩ := (Wire.encode_eq_ok_iff message).mpr
      ⟨tokenShort, fun other member => option_eq other member ▸ short⟩
    obtain ⟨read, reading⟩ :=
      Wire.exists_decode_of_pathOnly written fun other member => by
        rw [option_eq other member, isPath]
    exact ⟨bytes, read, written, reading⟩

/-- What may disturb a short request that expects no long response. -/
theorem isUndisturbed_of_short
    (short : conversation.request.bodyLength ≤
      conversation.clientConfig.arq.maxPayload)
    (prompt : conversation.request.longResponse = false)
    (keeps : 0 < conversation.clientConfig.arq.receiveIdle)
    (apart : conversation.serverConfig.arq.windowSize ≤
      (conversation.request.id - conversation.serverCounter).toNat) :
    conversation.IsUndisturbed where
  spans long := absurd (prompt.symm.trans long) Bool.false_ne_true
  waits _ long := absurd (prompt.symm.trans long) Bool.false_ne_true
  keepsRequest long := absurd long (Nat.not_lt.mpr short)
  keepsAnswer _ := keeps
  apart _ _ := (Nat.min_le_left _ _).trans apart

theorem sample_isRegular
    (sharesIds : Bool)
    (id : MessageId)
    {payload answer : List UInt8}
    (payloadShort : payload.length ≤ 100)
    (answerShort : answer.length ≤ 100)
    (receiveIdle : Nat) :
    (sample sharesIds id payload answer receiveIdle).IsRegular := by
  have usable :
      (sample sharesIds id payload answer receiveIdle).clientConfig.IsUsable :=
    isUsable_of_garbagePeriod (by decide) (Nanos.ofSecs 30) receiveIdle
  have readable := @readable_of_path
    (sample sharesIds id payload answer receiveIdle).request
    (MessageOption.text .uriPath "u") rfl rfl (by decide)
    (by decide : 1 ≤ Token.maxLength)
  have few {bytes : List UInt8} (short : bytes.length ≤ 100) :
      SendState.blocksFor bytes.length 2 ≤ 2 ^ 28 := by
    unfold SendState.blocksFor
    omega
  exact
    { client := usable
      server := usable
      isRequest := (by decide : Code.post.isRequest = true)
      confirmable := rfl
      tokened := ⟨⟨[7]⟩, rfl, by decide, by decide⟩
      routed := rfl
      plain := readable.1
      readable := readable.2
      requestFits := few payloadShort
      answerFits := few answerShort
      isSuccess := (by decide : Code.content.isSuccess = true) }

/-! ## The outcome of a conversation -/

/--
Every regular conversation is answered, unless something disturbs its transfers.
-/
theorem request_answered_once
    (regular : conversation.IsRegular)
    (undisturbed : conversation.IsUndisturbed) :
    conversation.IsAnswered := by
  by_cases long : conversation.AsksInBlocks
  · obtain ⟨quiet, clientId, serverId, entry, received, settles, hasAsked, isAck⟩ :=
      exists_asked_of_long regular undisturbed long
    exact isAnswered_of_hasAsked regular undisturbed settles hasAsked (.inr isAck)
  · obtain ⟨quiet, entry, received, settles, hasAsked, isWhole⟩ :=
      exists_asked_of_single regular undisturbed long
    exact isAnswered_of_hasAsked regular undisturbed settles hasAsked
      (.inl ⟨long, rfl, isWhole⟩)

/--
A long answer to a short request, between endpoints with counters of their own.
-/
theorem request_answered_once_in_blocks :
    let conversation := sample false 7 [1] [1, 2, 3, 4, 5] 1
    conversation.IsRegular ∧ conversation.IsUndisturbed ∧
      conversation.AnswersInBlocks ∧
      conversation.IsAnswered := by
  intro conversation
  have regular : conversation.IsRegular :=
    sample_isRegular false 7 (by decide) (by decide) 1
  have undisturbed : conversation.IsUndisturbed :=
    isUndisturbed_of_short (by decide) rfl (by decide) (by decide)
  exact ⟨regular, undisturbed, by unfold AnswersInBlocks; decide,
    request_answered_once regular undisturbed⟩

/-! ## Conversations that are disturbed -/

/-- Nothing is handed over if transfers go idle at once. -/
theorem idle_not_answered :
    (sample true 5 [1, 2, 3] [9] 0).IsRegular ∧
      ¬ (sample true 5 [1, 2, 3] [9] 0).IsAnswered := by
  refine ⟨sample_isRegular true 5 (by decide) (by decide) 0, ?_⟩
  have atRest :
      (Link.pump {} 3 0 (sample true 5 [1, 2, 3] [9] 0).asked).link.IsAtRest := by
    decide +kernel
  exact not_isAnswered_of_misheard atRest (by decide +kernel)

/--
If the identifier of the request is one of those that are drawn for the fragments of
its answer, that fragment is lost with the notice, and the answer never arrives. It
does not matter where the other side draws its identifiers.
-/
theorem colliding_not_answered (sharesIds : Bool) :
    (sample sharesIds 100 [1] [1, 2, 3, 4, 5] 1).IsRegular ∧
      ¬ (sample sharesIds 100 [1] [1, 2, 3, 4, 5] 1).IsAnswered := by
  refine ⟨sample_isRegular sharesIds 100 (by decide) (by decide) 1,
    fun isAnswered => ?_⟩
  have atRest :
      (Link.pump {} 3 0
        (sample sharesIds 100 [1] [1, 2, 3, 4, 5] 1).asked).link.IsAtRest := by
    cases sharesIds <;> decide +kernel
  have heard :
      (Link.pump {} 3 0
        (sample sharesIds 100 [1] [1, 2, 3, 4, 5] 1).asked).link.b.inbound =
        [{ (sample sharesIds 100 [1] [1, 2, 3, 4, 5] 1).request with
            address := some Side.a.address }] := by
    cases sharesIds <;> decide +kernel
  have untold := isAnswered.of_rest atRest heard 5
    (by cases sharesIds <;> decide +kernel)
  exact untold.1 (by cases sharesIds <;> decide +kernel)

/-- A request that expects a long response. -/
def expectant (garbagePeriod resendLongPeriod : Nat) : Conversation :=
  { sample true 7 [1] [9] 1 with
    clientConfig :=
      { pool :=
          { garbagePeriod := garbagePeriod, resendLongPeriod := resendLongPeriod }
        arq := { windowSize := 2, maxPayload := 2, receiveIdle := 1 } }
    request := { (sample true 7 [1] [9] 1).request with longResponse := true } }

theorem expectant_isRegular
    {garbagePeriod : Nat}
    (positive : 0 < garbagePeriod)
    (resendLongPeriod : Nat) :
    (expectant garbagePeriod resendLongPeriod).IsRegular := by
  have regular : (sample true 7 [1] [9] 1).IsRegular :=
    sample_isRegular true 7 (by decide) (by decide) 1
  have client :
      (expectant garbagePeriod resendLongPeriod).clientConfig.IsUsable :=
    isUsable_of_garbagePeriod positive resendLongPeriod 1
  exact { regular with client := client }

/--
If there is no wait for a long response, the request is handed over repeatedly.
-/
theorem hasty_not_answered :
    (expectant 1 0).IsRegular ∧ ¬ (expectant 1 0).IsAnswered := by
  refine ⟨expectant_isRegular (by decide) 0, ?_⟩
  have atRest :
      (Link.pump {} 9 0 (expectant 1 0).asked).link.IsAtRest := by decide +kernel
  exact not_isAnswered_of_misheard atRest (by decide +kernel)

/--
Looking for what is due fails, since five times the garbage period
is not a duration.
-/
theorem expectant_not_answered :
    (expectant Nanos.limit 1).IsRegular ∧
      ¬ (expectant Nanos.limit 1).IsAnswered := by
  refine ⟨expectant_isRegular (by decide) 1, fun isAnswered => ?_⟩
  have atRest :
      (Link.pump {} 3 0 (expectant Nanos.limit 1).asked).link.IsAtRest := by
    decide +kernel
  have heard : (Link.pump {} 3 0 (expectant Nanos.limit 1).asked).link.b.inbound =
      [{ (sample true 7 [1] [9] 1).request with
        address := some Side.a.address }] := by
    decide +kernel
  have unfailed := isAnswered.of_rest atRest heard 5 (by decide +kernel)
  exact absurd unfailed.2 (by decide +kernel)

/-- A path that is given as bytes. -/
def spelledOut : Conversation :=
  { sample true 7 [1] [9] 1 with
    request :=
      { (sample true 7 [1] [9] 1).request with
        options := [⟨.uriPath, .bytes [117]⟩] } }

/--
It is read as a text, so that the other side finds a path where this one finds none.
-/
theorem spelledOut_path_ne :
    spelledOut.IsRegular ∧ spelledOut.IsUndisturbed ∧
      ∃ quiet received,
        spelledOut.asked.Settles quiet ∧ quiet.b.inbound = [received] ∧
        received.path ≠ spelledOut.request.path := by
  have regular : (sample true 7 [1] [9] 1).IsRegular :=
    sample_isRegular true 7 (by decide) (by decide) 1
  have readable := @readable_of_path spelledOut.request ⟨.uriPath, .bytes [117]⟩
    rfl rfl (by decide) (by decide : 1 ≤ Token.maxLength)
  have atRest :
      (Link.pump {} 3 0 spelledOut.asked).link.IsAtRest := by decide +kernel
  refine ⟨{ regular with plain := readable.1, readable := readable.2 },
    isUndisturbed_of_short (by decide) rfl (by decide) (by decide),
    _, { (sample true 7 [1] [9] 1).request with address := some Side.a.address },
    Link.settles_pump atRest, by decide +kernel, by decide +kernel⟩

/--
Each of these keeps a regular conversation from being answered as it was asked.
-/
theorem disturbed_not_answered_as_asked :
    ((sample true 5 [1, 2, 3] [9] 0).IsRegular ∧
      ¬ (sample true 5 [1, 2, 3] [9] 0).IsAnswered) ∧
      ((sample true 100 [1] [1, 2, 3, 4, 5] 1).IsRegular ∧
        ¬ (sample true 100 [1] [1, 2, 3, 4, 5] 1).IsAnswered) ∧
      ((expectant 1 0).IsRegular ∧ ¬ (expectant 1 0).IsAnswered) ∧
      ((expectant Nanos.limit 1).IsRegular ∧
        ¬ (expectant Nanos.limit 1).IsAnswered) ∧
      spelledOut.IsRegular ∧ spelledOut.IsUndisturbed ∧
        ∃ quiet received,
          spelledOut.asked.Settles quiet ∧ quiet.b.inbound = [received] ∧
          received.path ≠ spelledOut.request.path :=
  ⟨idle_not_answered, colliding_not_answered true, hasty_not_answered,
    expectant_not_answered, spelledOut_path_ne⟩

end Coap.Conversation
