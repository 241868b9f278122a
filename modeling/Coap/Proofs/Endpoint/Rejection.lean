import Mathlib.Tactic.Common
import Coap.Proofs.Endpoint.Use

namespace Coap

/-!
# Requests that are rejected

A request is expected before its destination is looked at, and forgotten again when
it has none. Both go by the token. So a request that is rejected leaves everything
as it was, unless another request waits under the same token: that one is then
forgotten in its place.
-/

namespace Endpoint

variable {endpoint : Endpoint} {message : Message} {who : Listener}
variable {cause : EndpointError}

/-- A message that has a token keeps it. -/
theorem withToken_of_tokened
    (endpoint : Endpoint)
    (tokened : message.token.isSome) :
    endpoint.withToken message = (message, endpoint) := by
  obtain ⟨token, token_eq⟩ := Option.isSome_iff_exists.mp tokened
  unfold withToken
  rw [token_eq]

/-- Only a message without a destination is rejected. -/
theorem target?_of_rejected
    (rejected : (endpoint.sendRequest message who).1 = .error cause) :
    message.target? = none ∧ cause = .noDestination message.id := by
  cases routed : message.target? with
  | none =>
      rw [(endpoint.sendRequest_of_lost routed who).1] at rejected
      cases rejected
      exact ⟨rfl, rfl⟩
  | some target =>
      rw [(endpoint.sendRequest_of_routed
        (Option.isSome_of_eq_some routed) who).1] at rejected
      cases rejected


/--
What is left of a request without a destination is that nobody
waits under its token.
-/
theorem sendRequest_of_rejected
    (boundless : endpoint.engine.expected.IsBoundless)
    (tokened : message.token.isSome)
    (lost : message.target? = none)
    (who : Listener) :
    (endpoint.sendRequest message who).2 =
      { endpoint with
        engine := { endpoint.engine with
          nextGuard := endpoint.engine.nextGuard + 1
          expected := { endpoint.engine.expected.erase message.key with
            nextStamp := endpoint.engine.expected.nextStamp + 1 } } } := by
  rw [← boundless.erase_insert endpoint.engine.now message.key
    (endpoint.engine.guardHandler who).1]
  unfold sendRequest enqueue
  rw [endpoint.withToken_of_tokened tokened]
  dsimp only
  rw [lost]
  rfl

/--
A rejected request has no destination. It uses up a guard and a stamp, and what was
expected under its token is forgotten; the pool, the acknowledgement handlers and
everything else are as before. So whoever waits under another token still does, and
the expected responses are as before exactly if nobody was waiting under this one.
-/
theorem rejected_request_forgets_its_token_only
    (config : EndpointConfig)
    (localAddress : SocketAddress)
    (nextId : MessageId)
    (supply : TokenSupply)
    (uses : List Use)
    (message : Message)
    (who : Listener)
    (cause : EndpointError)
    (tokened : message.token.isSome)
    (rejected :
      (((create config localAddress nextId supply).useAll uses).sendRequest
        message who).1 =
        .error cause) :
    let running := (create config localAddress nextId supply).useAll uses
    let later := (running.sendRequest message who).2
    cause = .noDestination message.id ∧
      later = { running with
        engine := { running.engine with
          nextGuard := running.engine.nextGuard + 1
          expected := { running.engine.expected.erase message.key with
            nextStamp := running.engine.expected.nextStamp + 1 } } } ∧
      (∀ token,
        (later.engine.forget token).1 =
          if token = message.key then none else (running.engine.forget token).1) ∧
      ({ later.engine.expected with
        nextStamp := running.engine.expected.nextStamp } =
          running.engine.expected ↔
        (running.engine.forget message.key).1 = none) := by
  intro running later
  have used : running.IsUsed config.arq :=
    (IsUsed.create config localAddress nextId supply).useAll uses
  obtain ⟨lost, isNoDestination⟩ := target?_of_rejected rejected
  have later_eq : later = _ :=
    sendRequest_of_rejected used.boundless tokened lost who
  refine ⟨isNoDestination, later_eq, fun token => ?_, ?_⟩
  · rw [Engine.forget_fst, Engine.forget_fst, later_eq]
    change ((running.engine.expected.erase message.key).entries.find?
      token).map Slot.value = _
    rw [Cache.erase_entries, Table.find?_erase]
    split <;> rfl
  · have unstamped : { later.engine.expected with
        nextStamp := running.engine.expected.nextStamp } =
          running.engine.expected.erase message.key := by
      rw [later_eq, ← running.engine.expected.nextStamp_erase message.key]
    rw [unstamped, Engine.forget_eq_none_iff]
    exact Cache.erase_eq_self_iff

/-- An endpoint that waits for the answer to a request it has sent. -/
def waitingEndpoint : Endpoint :=
  (create {} (.v4 10 0 0 1 5683) 100 (.counting 1)).useAll
    [.call (.sendRequest sampleRequest (.observer "asker")), .call .poll]

/-- A request that cannot be sent, for it has no address. -/
def lostRequest : Message :=
  { sampleRequest with
    id := 8
    address := none }

/--
A request under another token is rejected, and the first one is still waited for.
-/
theorem rejected_request_forgets_its_token_only_other_token :
    let lost : Message := { lostRequest with token := some ⟨[8]⟩ }
    let later := (waitingEndpoint.sendRequest lost (.observer "other")).2
    lost.token.isSome ∧
      (waitingEndpoint.sendRequest lost (.observer "other")).1 =
        .error (.noDestination 8) ∧
        (later.engine.forget sampleRequest.key).1 =
          some ⟨.observer "asker", some 0⟩ := by
  intro lost later
  have rejected : (waitingEndpoint.sendRequest lost (.observer "other")).1 =
      .error (.noDestination 8) := by
    decide +kernel
  have spared := (rejected_request_forgets_its_token_only {}
    (.v4 10 0 0 1 5683) 100 (.counting 1)
    [.call (.sendRequest sampleRequest (.observer "asker")), .call .poll] lost
    (.observer "other") (.noDestination 8) rfl rejected).2.2.1 sampleRequest.key
  refine ⟨rfl, rejected, spared.trans ?_⟩
  rw [if_neg (by decide)]
  decide +kernel

/--
A request under the same token is rejected, and the answer to the first one is told
to nobody: without the rejected request its asker would have been told.
-/
theorem rejected_request_forgets_earlier_request :
    let later := (waitingEndpoint.sendRequest lostRequest (.observer "other")).2
    let answer : Call :=
      .receive [0x61, 0x45, 0x00, 0x07, 0x07, 0xff, 0x01] (.v4 10 0 0 2 5683)
    (waitingEndpoint.sendRequest lostRequest (.observer "other")).1 =
      .error (.noDestination 8) ∧
      (waitingEndpoint.perform answer).engine.outcomes (.observer "asker") = 1 ∧
        (later.perform answer).engine.outcomes (.observer "asker") = 0 ∧
          later.engine.expected.entries = [] ∧
            waitingEndpoint.engine.expected.entries ≠ [] := by
  decide +kernel

end Endpoint

end Coap
