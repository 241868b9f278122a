import Mathlib.Tactic.Common
import Coap.Proofs.Engine.Operations
import Coap.Proofs.Engine.Reception

namespace Coap

/-!
# Two stages complete one exchange

An acknowledgement or a reset first completes the message with its identifier, and
then the request with its token. Both stages judge the message, each with a test of
its own. The tests agree on every message that has a code. A message without one
ends at the second stage before the request is looked for, whether it is an
acknowledgement or a reset.
-/

/-- On a message with a code, both stages see the same error. -/
theorem Message.responseError?_eq
    {message : Message}
    (nonempty : message.code ≠ .empty) :
    message.responseError? = message.failureReason?.map FailureReason.message := by
  unfold responseError? failureReason?
  have hasCode : (message.code == .empty) = false := by simpa using nonempty
  rw [hasCode, Bool.or_false]
  split
  · rfl
  · split
    · rfl
    · rfl

/-- A message with a code that reports no error is a success. -/
theorem Message.isSuccess_of_failureReason?
    {message : Message}
    (faultless : message.failureReason? = none) :
    message.code.isSuccess = true := by
  unfold failureReason? at faultless
  split at faultless
  · cases faultless
  · split at faultless
    · assumption
    · cases faultless

namespace Engine

variable {engine : Engine} {message : Message} {cell : Option SocketAddress}
variable {waiting : AckHandler} {handler : ResponseHandler}

/-- The stages behind the block-wise one. -/
def completionStages : List (Stage Engine) :=
  stack.receive.drop 2

/-- The engine once the handler of an acknowledgement has been told. -/
def acknowledgedBy
    (engine : Engine)
    (message : Message)
    (waiting : AckHandler) :
    Engine :=
  (engine.attended message.id).tellAck waiting message message.responseError?

/-- The acknowledgement stage tells who waits, and leaves all expectations alone. -/
theorem acknowledgementStage_of_watched
    (isResponse : message.isRequest = false)
    (completes : message.kind.isAckOrReset = true)
    (watched : engine.acks.peek? engine.now message.id = some waiting)
    (cell : Option SocketAddress) :
    (engine.acknowledgementStage message cell).state.events =
        (engine.acknowledgedBy message waiting).events ∧
      (engine.acknowledgementStage message cell).state.claimed =
        (engine.acknowledgedBy message waiting).claimed ∧
      (engine.acknowledgementStage message cell).state.expected =
        engine.expected := by
  rw [← and_assoc]
  refine ⟨?_, (engine.acknowledgementStage_windsDown message cell).expected_eq⟩
  have found : ((engine.discard message.id).acks.get (engine.discard message.id).now
      message.id).1 = some waiting :=
    Cache.get_fst.trans watched
  unfold acknowledgementStage
  simp only [isResponse, completes, Bool.not_true, Bool.or_self, Bool.false_eq_true,
    ↓reduceIte, found]
  split
  · exact ⟨rfl, rfl⟩
  · exact ⟨rfl, rfl⟩

/-- An outcome that is not held back is told. -/
theorem tellOutcome_of_untold
    (untold : ∀ guard, handler.guard = some guard → guard ∉ engine.claimed)
    (event : Event) :
    (engine.tellOutcome handler event).events = engine.events ++ [event] := by
  unfold tellOutcome
  split
  · rfl
  · next guard isGuard =>
      rw [if_neg (untold guard isGuard)]
      rfl

/-- Whoever waits for a response is told why it failed, or else the response. -/
theorem completeRequest_events
    (untold : ∀ guard, handler.guard = some guard → guard ∉ engine.claimed)
    (message : Message) :
    match message.failureReason? with
    | some reason => ∃ delivery,
        (engine.completeRequest message handler).events =
          engine.events ++ [.failed handler.who ⟨reason, delivery⟩]
    | none =>
        (engine.completeRequest message handler).events =
          engine.events ++ [.answered handler.who message] := by
  have told (event : Event) :
      ((engine.takeByToken message.key).2.tellOutcome handler event).events =
        engine.events ++ [event] :=
    @tellOutcome_of_untold (engine.takeByToken message.key).2 handler untold event
  unfold completeRequest
  cases message.failureReason? with
  | none => exact told (.answered handler.who message)
  | some reason =>
      exact ⟨_, @tellOutcome_of_untold
        ((engine.takeByToken message.key).2.deliveryOf message.key).2
          handler untold _⟩

/-- Only a message of its own is acknowledged. -/
theorem acknowledgeResponse_of_isAckOrReset
    (completes : message.kind.isAckOrReset = true) :
    engine.acknowledgeResponse message cell = (.ok (), engine) := by
  have unconfirmable : message.kind ≠ .confirmable := by
    intro confirmable
    rw [confirmable] at completes
    cases completes
  unfold acknowledgeResponse
  rw [if_neg unconfirmable]

/--
A message with a code ends at the response stage and settles the request it answers.
-/
theorem responseReceive_completes
    (isResponse : message.isRequest = false)
    (completes : message.kind.isAckOrReset = true)
    (tokened : message.token.isSome)
    (nonempty : message.code ≠ .empty)
    (awaited : engine.expected.Stores message.key handler)
    (cell : Option SocketAddress) :
    engine.responseReceive message cell =
      { state := (engine.forget message.key).2.completeRequest message handler
        message := message
        cell := cell
        result := .ok .stop } := by
  obtain ⟨slot, found, value_eq⟩ := awaited
  have forgets : engine.forget message.key =
      (some handler, (engine.forget message.key).2) := by
    unfold forget Cache.remove
    rw [found, ← value_eq]
  exact responseReceive_of_expected isResponse tokened nonempty
    (acknowledgeResponse_of_isAckOrReset completes) forgets

/-- What the response stage stops has gone through both stages. -/
theorem runAll_completionStages_of_stop
    {later : Engine}
    (stops :
      (engine.acknowledgementStage message
        cell).state.responseReceive message cell =
        { state := later
          message := message
          cell := cell
          result := .ok .stop }) :
    Stage.runAll completionStages engine message cell =
      { state := later
        cell := cell
        result := .ok ⟨false, message⟩ } := by
  unfold completionStages stack
  simp only [List.drop_succ_cons, List.drop_zero, Stage.runAll]
  rw [acknowledgementStage_passes]
  simp only [Verdict.pass, Option.getD_none, ↓reduceIte, stops, Verdict.stop,
    Bool.false_eq_true]

/--
An acknowledgement or a reset that has a code is told to the handler of the message
and to the handler of the request alike: both are told the same error, or the
second one gets the response. The request is settled then. Without a code, only the
first one is told.
-/
theorem acknowledgement_settles_request_by_code
    (engine : Engine)
    (message : Message)
    (cell : Option SocketAddress)
    (isResponse : message.isRequest = false)
    (completes : message.kind.isAckOrReset = true)
    (tokened : message.token.isSome)
    (waiting : AckHandler)
    (watched : engine.acks.peek? engine.now message.id = some waiting)
    (handler : ResponseHandler)
    (awaited : engine.expected.Stores message.key handler)
    (untold : ∀ guard,
      handler.guard = some guard →
        guard ∉ (engine.acknowledgedBy message waiting).claimed) :
    let acknowledged := engine.acknowledgedBy message waiting
    let run := Stage.runAll completionStages engine message cell
    run.result = .ok ⟨false, message⟩ ∧
      (message.code ≠ .empty →
        (∀ later, ¬ run.state.expected.Stores message.key later) ∧
          match message.responseError? with
          | some error => ∃ failure,
              failure.reason.message = error ∧
                run.state.events =
                  acknowledged.events ++ [.failed handler.who failure]
          | none =>
              message.code.isSuccess = true ∧
                run.state.events =
                  acknowledged.events ++ [.answered handler.who message]) ∧
      (message.code = .empty →
        run.state.events = acknowledged.events ∧
          run.state.expected.Stores message.key handler) := by
  intro acknowledged run
  obtain ⟨events_eq, claimed_eq, expected_eq⟩ :=
    acknowledgementStage_of_watched isResponse completes watched cell
  have stops := @runAll_completionStages_of_stop engine message cell
  generalize (engine.acknowledgementStage message cell).state = settled at *
  rw [← expected_eq] at awaited
  rw [← claimed_eq] at untold
  by_cases empty : message.code = .empty
  · have run_eq := stops
      (responseReceive_of_empty tokened empty
        (acknowledgeResponse_of_isAckOrReset completes))
    change run = _ at run_eq
    rw [run_eq]
    exact ⟨rfl, fun nonempty => absurd empty nonempty,
      fun _ => ⟨events_eq, awaited⟩⟩
  · have run_eq := stops
      (responseReceive_completes isResponse completes tokened empty awaited cell)
    have told :=
      @completeRequest_events (settled.forget message.key).2 handler untold message
    have expectedAfter :
        ((settled.forget message.key).2.completeRequest message handler).expected =
          settled.expected.erase message.key :=
      (completeRequest_windsDown _ message handler).expected_eq
    change run = _ at run_eq
    rw [run_eq, Message.responseError?_eq empty]
    refine ⟨rfl, fun _ => ⟨fun later stores => ?_, ?_⟩,
      fun impossible => absurd impossible empty⟩
    · rw [expectedAfter] at stores
      exact (Cache.stores_erase.mp stores).1 rfl
    · have earlier : (settled.forget message.key).2.events =
          acknowledged.events := events_eq
      rw [earlier] at told
      cases judged : message.failureReason? with
      | none =>
          rw [judged] at told
          exact ⟨Message.isSuccess_of_failureReason? judged, told⟩
      | some reason =>
          rw [judged] at told
          obtain ⟨delivery, told⟩ := told
          exact ⟨⟨reason, delivery⟩, rfl, told⟩

/-- A request of which both the acknowledgement and the response are awaited. -/
def sampleRequest : Message :=
  { id := 7
    kind := .confirmable
    code := .get
    token := some ⟨[7]⟩
    address := some (.v4 10 0 0 2 5683) }

/-- An engine that awaits both. -/
def awaiting : Engine :=
  ((create {} {} 100).request sampleRequest (.observer "asker")).register 7
    (.listener (.observer "watcher"))

/-- An acknowledgement that carries an error settles the request. -/
theorem acknowledgement_settles_request_by_code_not_found :
    let answer := sampleRequest.ackTo none .notFound
    ∃ failure,
      failure.reason.message = "4.04 Not Found" ∧
        (Stage.runAll completionStages awaiting answer none).state.events =
          [.acknowledged (.observer "watcher") 7 (some "4.04 Not Found"),
            .failed (.observer "asker") failure] := by
  intro answer
  have settles := acknowledgement_settles_request_by_code awaiting answer none
    (by decide) (by decide) (by decide) (.listener (.observer "watcher"))
      (by decide +kernel)
    ⟨.observer "asker", some 0⟩ ⟨_, rfl, rfl⟩ (by decide +kernel)
  have judged : answer.responseError? = some "4.04 Not Found" := by decide +kernel
  have acknowledged :
      (awaiting.acknowledgedBy answer (.listener (.observer "watcher"))).events =
        [.acknowledged (.observer "watcher") 7 (some "4.04 Not Found")] := by
    decide +kernel
  have settled := (settles.2.1 (by decide)).2
  rw [judged, acknowledged] at settled
  exact settled

/-- A reset has no code, so that the request it answers stays unsettled. -/
theorem reset_leaves_request_unsettled :
    let answer := sampleRequest.resetTo none
    let run := Stage.runAll completionStages awaiting answer none
    answer.responseError? = some "Request has been reset!" ∧
      run.state.events =
        [.acknowledged (.observer "watcher") 7 (some "Request has been reset!")] ∧
      run.state.expected.peek? run.state.now answer.key =
        some ⟨.observer "asker", some 0⟩ := by
  decide +kernel

end Engine

end Coap
