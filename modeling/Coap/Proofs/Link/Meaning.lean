import Mathlib.Tactic.Common
import Coap.Proofs.Link.Outcome

namespace Coap

/-!
# What the code of an answer means

A success answers the request, every other code fails it. That holds of an answer
that fits a single datagram. One that goes in blocks is put together again as a
success, so that an error with a long text is told as an answer.
-/

namespace Conversation

variable {conversation : Conversation} {event other : Event}

/-! ## What the handler is told -/

/--
The link settles after the request and after its answer, and then
this has been told.
-/
def IsTold
    (conversation : Conversation)
    (event : Event) :
    Prop :=
  (conversation.client.sendRequest conversation.request conversation.who).1 =
      .ok conversation.request.id ∧
    ∃ quiet received,
      conversation.asked.Settles quiet ∧
      quiet.b.inbound = [received] ∧
      received.token = conversation.request.token ∧
      (∃ id, (conversation.respond quiet received).1 = .ok id) ∧
      ∃ final,
        (conversation.answered quiet received).Settles final ∧
        final.a.events = [event]

/-- It is known from where the link comes to rest. -/
theorem IsTold.events_eq
    (isTold : conversation.IsTold event)
    {rounds more : Nat}
    (atRest : (Link.pump {} rounds 0 conversation.asked).link.IsAtRest)
    {received : Message}
    (heard : (Link.pump {} rounds 0 conversation.asked).link.b.inbound = [received])
    (atRestAgain : (Link.pump {} more 0 (conversation.answered
      (Link.pump {} rounds 0 conversation.asked).link received)).link.IsAtRest) :
    (Link.pump {} more 0 (conversation.answered
      (Link.pump {} rounds 0 conversation.asked).link received)).link.a.events =
      [event] := by
  obtain ⟨_, quiet, message, settles, inbound_eq, _, _, final, settlesAgain,
    events_eq⟩ := isTold
  obtain rfl := settles.unique (Link.settles_pump atRest)
  rw [heard] at inbound_eq
  obtain ⟨rfl, _⟩ := List.cons.inj inbound_eq
  rw [settlesAgain.unique (Link.settles_pump atRestAgain)] at events_eq
  exact events_eq

/-- Nothing else is told. -/
theorem IsTold.unique
    (first : conversation.IsTold event)
    (second : conversation.IsTold other) :
    other = event := by
  obtain ⟨_, quiet, message, settles, inbound_eq, _, _, final, settlesAgain,
    events_eq⟩ := first
  obtain ⟨_, otherQuiet, received, otherSettles, heard, _, _, last,
    lastSettles, lastEvents⟩ :=
    second
  obtain rfl := settles.unique otherSettles
  rw [heard] at inbound_eq
  obtain ⟨rfl, _⟩ := List.cons.inj inbound_eq
  obtain rfl := settlesAgain.unique lastSettles
  rw [lastEvents] at events_eq
  exact (List.cons.inj events_eq).1

/-- The code is taken at its word: a success is an answer, all else is a failure. -/
def IsMeant (conversation : Conversation) : Event → Prop
  | .answered who response =>
      conversation.code.isSuccess = true ∧ who = conversation.who ∧
        response.payload = conversation.answer.filter fun payload => payload ≠ []
  | .failed who failure =>
      conversation.code.isSuccess = false ∧ who = conversation.who ∧
        failure.reason =
          .response
            (conversation.reply .acknowledgement conversation.request.id).statusText
  | _ => False

/-! ## The request does not depend on the code -/

theorem HasAsked.of_code
    {code : Code}
    {quiet : Link}
    {clientId serverId : MessageId}
    {entry : PoolEntry}
    {received : Message}
    (hasAsked :
      { conversation with
        code := code }.HasAsked quiet clientId serverId entry received) :
    conversation.HasAsked quiet clientId serverId entry received where
  isWaiting := { hasAsked.isWaiting with }
  isReceived := { hasAsked.isReceived with }
  shows := hasAsked.shows

/-- Whatever its code is, the answer reaches the handler. -/
theorem IsPosed.exists_informs
    (posed : conversation.IsPosed)
    (coded : conversation.code.codeClass ≠ 0)
    (undisturbed : conversation.IsUndisturbed) :
    ∃ quiet clientId serverId entry received,
      conversation.asked.Settles quiet ∧
        conversation.HasAsked quiet clientId serverId entry received ∧
        (∃ id, (conversation.respond quiet received).1 = .ok id) ∧
        conversation.Informs (conversation.answered quiet received) received := by
  by_cases long : conversation.AsksInBlocks
  · obtain ⟨quiet, clientId, serverId, entry, received, settles, hasAsked, isAck⟩ :=
      exists_asked_of_long posed { undisturbed with } long
    have asked : conversation.HasAsked quiet clientId serverId entry received :=
      hasAsked.of_code
    exact ⟨quiet, clientId, serverId, entry, received, settles, asked,
      asked.informs posed coded undisturbed (.inr isAck)⟩
  · obtain ⟨quiet, entry, received, settles, hasAsked, isWhole⟩ :=
      exists_asked_of_single posed { undisturbed with } long
    have asked :
        conversation.HasAsked quiet conversation.clientId conversation.serverCounter
        entry received :=
      hasAsked.of_code
    exact ⟨quiet, _, _, entry, received, settles, asked,
      asked.informs posed coded undisturbed (.inl ⟨long, rfl, { isWhole with }⟩)⟩

/-- The handler is told of the answer as it arrives, and of nothing else. -/
theorem IsPosed.exists_isTold
    (posed : conversation.IsPosed)
    (coded : conversation.code.codeClass ≠ 0)
    (undisturbed : conversation.IsUndisturbed) :
    ∃ response event,
      conversation.Arrives response ∧
        Engine.IsToldOf conversation.handler response event ∧
        conversation.IsTold event := by
  obtain ⟨token, token_eq, _⟩ := posed.tokened
  obtain ⟨quiet, _, _, entry, received, settles, hasAsked, responds,
    response, event, arrives,
    isToldOf, final, _, _, queue, named, settlesAgain, shows⟩ :=
    posed.exists_informs coded undisturbed
  refine ⟨response, event, arrives, isToldOf, ?_, quiet, received, settles,
    hasAsked.shows.far.inbound_eq, hasAsked.isReceived.token_eq, responds, final,
    settlesAgain, shows.far.events_eq⟩
  unfold Endpoint.sendRequest Endpoint.withToken Endpoint.enqueue
  rw [token_eq]
  dsimp only
  rw [posed.routed]
  rfl

/-! ## Codes and blocks -/

/--
Unless it lost it, an answer has the status of the message that the server sent.
-/
theorem Arrives.statusText_eq
    {response : Message}
    (arrives : conversation.Arrives response)
    (single : ¬ conversation.AnswersInBlocks)
    (kind : MessageType)
    (id : MessageId) :
    response.statusText = (conversation.reply kind id).statusText := by
  have body_eq : response.body = (conversation.reply kind id).body := by
    unfold Message.body
    rw [arrives.payload_eq]
    change _ = conversation.answer.getD []
    cases conversation.answer with
    | none => rfl
    | some bytes =>
        rw [Option.filter_some]
        by_cases empty : bytes = []
        · rw [empty]
          rfl
        · rw [if_pos (by simpa using empty)]
  unfold Message.statusText
  rw [body_eq, arrives.code_of_single single]
  rfl

/--
What is told of the answer is meant exactly if its code has
remained a success or an error.
-/
theorem Arrives.isMeant_iff
    {response : Message}
    (arrives : conversation.Arrives response)
    (isToldOf : Engine.IsToldOf conversation.handler response event) :
    conversation.IsMeant event ↔
      response.code.isSuccess = conversation.code.isSuccess := by
  cases isSuccess : response.code.isSuccess with
  | true =>
      obtain rfl :=
        (Engine.isToldOf_iff_of_success arrives.notReset isSuccess).mp isToldOf
      exact ⟨fun isMeant => isMeant.1.symm,
        fun same => ⟨same.symm, rfl, arrives.payload_eq⟩⟩
  | false =>
      obtain ⟨delivery, rfl⟩ :=
        (Engine.isToldOf_iff_of_failure arrives.notReset isSuccess).mp isToldOf
      have single : ¬ conversation.AnswersInBlocks := by
        intro long
        rw [arrives.code_of_blocks long] at isSuccess
        cases isSuccess
      have status_eq :=
        arrives.statusText_eq single .acknowledgement conversation.request.id
      exact ⟨fun isMeant => isMeant.1.symm,
        fun same => ⟨same.symm, rfl, congrArg FailureReason.response status_eq⟩⟩

/--
The handler of a request is told one thing, and it is what the code of the answer
means, unless the answer is an error that goes in blocks. That one is told as an
answer, with the code of a success.
-/
theorem code_meant_unless_error_in_blocks
    (posed : conversation.IsPosed)
    (undisturbed : conversation.IsUndisturbed)
    (classed : conversation.code.codeClass ∈ [2, 4, 5]) :
    ∃ event,
      (∀ other, conversation.IsTold other ↔ other = event) ∧
        (conversation.IsMeant event ↔
          conversation.code.isSuccess = true ∨ ¬ conversation.AnswersInBlocks) ∧
        (conversation.AnswersInBlocks →
          ∃ response, event = .answered conversation.who response ∧
            response.code = .content ∧
            response.payload = conversation.answer.filter fun payload =>
              payload ≠ []) := by
  have coded : conversation.code.codeClass ≠ 0 := by
    intro zero
    rw [zero] at classed
    exact absurd classed (by decide)
  obtain ⟨response, event, arrives, isToldOf, isTold⟩ :=
    posed.exists_isTold coded undisturbed
  refine ⟨event, fun other => ⟨isTold.unique, ?_⟩, ?_, fun long => ?_⟩
  · rintro rfl
    exact isTold
  · rw [arrives.isMeant_iff isToldOf]
    by_cases long : conversation.AnswersInBlocks
    · rw [arrives.code_of_blocks long]
      exact ⟨fun same => .inl same.symm,
        fun either => either.elim Eq.symm fun single => (single long).elim⟩
    · rw [arrives.code_of_single long]
      exact ⟨fun _ => .inr long, fun _ => rfl⟩
  · have isSuccess : response.code.isSuccess = true := by
      rw [arrives.code_of_blocks long]
      rfl
    exact ⟨response, (Engine.isToldOf_iff_of_success arrives.notReset isSuccess).mp
      isToldOf, arrives.code_of_blocks long, arrives.payload_eq⟩

/-! ## Errors -/

/-- The path of the request is not found, as a text says. -/
def notFound (text : List UInt8) : Conversation :=
  { sample true 7 [1] text 1 with code := .notFound }

theorem notFound_isPosed
    {text : List UInt8}
    (short : text.length ≤ 100) :
    (notFound text).IsPosed :=
  sample_isRegular true 7 (by decide) short 1

/-- A short text fails the request. -/
theorem code_meant_unless_error_in_blocks_short_text :
    (notFound [33]).IsPosed ∧ (notFound [33]).IsUndisturbed ∧
      (notFound [33]).code.codeClass ∈ [2, 4, 5] ∧
        ¬ (notFound [33]).AnswersInBlocks ∧
      ∃ event, (notFound [33]).IsTold event ∧ (notFound [33]).IsMeant event := by
  have posed : (notFound [33]).IsPosed := notFound_isPosed (by decide)
  have undisturbed : (notFound [33]).IsUndisturbed :=
    isUndisturbed_of_short (by decide) rfl (by decide) (by decide)
  have classed : (notFound [33]).code.codeClass ∈ [2, 4, 5] := by decide
  have single : ¬ (notFound [33]).AnswersInBlocks := by
    unfold AnswersInBlocks
    decide
  obtain ⟨event, told_iff, meant_iff, _⟩ :=
    code_meant_unless_error_in_blocks posed undisturbed classed
  exact ⟨posed, undisturbed, classed, single, event, (told_iff event).mpr rfl,
    meant_iff.mpr (.inr single)⟩

/--
A long text is told as an answer, and nothing says that the path was not found.
-/
theorem long_text_of_error_not_meant :
    let conversation := notFound [1, 2, 3, 4, 5]
    conversation.IsPosed ∧ conversation.IsUndisturbed ∧
      conversation.code.codeClass = 4 ∧
      ∀ event, conversation.IsTold event → ¬ conversation.IsMeant event := by
  intro conversation
  refine ⟨notFound_isPosed (by decide),
    isUndisturbed_of_short (by decide) rfl (by decide) (by decide), by decide, ?_⟩
  intro event isTold isMeant
  have atRest :
      (Link.pump {} 3 0 conversation.asked).link.IsAtRest := by decide +kernel
  have heard : (Link.pump {} 3 0 conversation.asked).link.b.inbound =
      [{ conversation.request with address := some Side.a.address }] := by
    decide +kernel
  have atRestAgain :
      (Link.pump {} 5 0
        (conversation.answered (Link.pump {} 3 0 conversation.asked).link
        { conversation.request with
          address := some Side.a.address })).link.IsAtRest := by
    decide +kernel
  have events_eq := isTold.events_eq atRest heard atRestAgain
  have answered :
      (Link.pump {} 5 0
        (conversation.answered (Link.pump {} 3 0 conversation.asked).link
        { conversation.request with
          address := some Side.a.address })).link.a.events =
        [.answered conversation.who
          { id := 7
            kind := .acknowledgement
            code := .content
            token := some ⟨[7]⟩
            address := some Side.b.address
            payload := some [1, 2, 3, 4, 5]
            options := [.uint .block2 32, .uint .windowSize 2] }] := by
    decide +kernel
  rw [answered] at events_eq
  obtain ⟨rfl, _⟩ := List.cons.inj events_eq
  exact absurd isMeant.1 (by decide)

end Conversation

end Coap
