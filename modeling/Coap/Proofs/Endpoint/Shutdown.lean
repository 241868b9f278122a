import Mathlib.Tactic.Common
import Coap.Endpoint
import Coap.Proofs.Engine.Accounts

namespace Coap

/-!
# What stopping settles

An application asks, the endpoint sends and receives, time passes, and then the
endpoint stops. Stopping tells every request that is still queued, and every one
whose transfer has a fragment to wait for. It does not look among the expected
responses: a request that only waits there is never told.
-/

namespace Engine

variable {known : ResponseHandler → Prop} {engine : Engine}
variable {handler : ResponseHandler}

/-! ## Emptying the pool -/

/-- Tell a handler that was queued that sending has stopped. -/
def tellStopped
    (reason : String)
    (engine : Engine)
    (entry : PoolEntry) :
    Engine :=
  match entry.hooks.response with
  | none => engine
  | some handler => engine.tellFailure handler { reason := .stopped reason }

theorem drainPool_eq
    (engine : Engine)
    (reason : String) :
    engine.drainPool reason =
      engine.pool.drain.1.foldl (tellStopped reason)
        { engine with pool := engine.pool.drain.2 } :=
  rfl

/-- Telling queued handlers leaves transfers and acknowledgement handlers alone. -/
theorem tellStopped_frame
    (reason : String)
    (entries : List PoolEntry)
    (engine : Engine) :
    (entries.foldl (tellStopped reason) engine).outgoing = engine.outgoing ∧
      (entries.foldl (tellStopped reason) engine).acks = engine.acks ∧
      ∀ guard ∈ engine.claimed,
        guard ∈ (entries.foldl (tellStopped reason) engine).claimed := by
  induction entries generalizing engine with
  | nil => exact ⟨rfl, rfl, fun _ member => member⟩
  | cons entry rest inductionHypothesis =>
      have first : (tellStopped reason engine entry).outgoing = engine.outgoing ∧
          (tellStopped reason engine entry).acks = engine.acks ∧
          ∀ guard ∈ engine.claimed,
            guard ∈ (tellStopped reason engine entry).claimed := by
        unfold tellStopped
        split
        · exact ⟨rfl, rfl, fun _ member => member⟩
        · next handler _ =>
            unfold tellFailure tellOutcome
            split
            · exact ⟨rfl, rfl, fun _ member => member⟩
            · split
              · exact ⟨rfl, rfl, fun _ member => member⟩
              · exact ⟨rfl, rfl, fun _ => List.mem_cons_of_mem _⟩
      obtain ⟨outgoing_eq, acks_eq, grows⟩ :=
        inductionHypothesis (tellStopped reason engine entry)
      exact ⟨outgoing_eq.trans first.1, acks_eq.trans first.2.1,
        fun guard member => grows guard (first.2.2 guard member)⟩

theorem drainPool_frame
    (engine : Engine)
    (reason : String) :
    (engine.drainPool reason).outgoing = engine.outgoing ∧
      (engine.drainPool reason).acks = engine.acks := by
  obtain ⟨outgoing_eq, acks_eq, _⟩ :=
    tellStopped_frame reason engine.pool.drain.1
      { engine with pool := engine.pool.drain.2 }
  exact ⟨outgoing_eq, acks_eq⟩

theorem tellStopped_tells
    (reason : String)
    (engine : Engine)
    {entry : PoolEntry}
    (areKnown : ∀ handler, entry.hooks.response = some handler → known handler) :
    Tells known engine (tellStopped reason engine entry) := by
  unfold tellStopped
  split
  · exact .refl engine
  · next handler isResponse =>
      exact tellOutcome_tells engine (areKnown handler isResponse) rfl rfl

/-- Emptying the pool tells the handlers of its messages, and nobody else. -/
theorem drainPool_tells
    (engine : Engine)
    (reason : String) :
    Tells known engine (engine.drainPool reason) := by
  intro books
  have emptied : Tells known engine { engine with pool := engine.pool.drain.2 } :=
    .of_silent (.of_pool engine engine.pool.drain_thins) ⟨rfl, rfl⟩
  refine emptied.trans (.foldl _ (fun engine entry member => ?_) _) books
  refine tellStopped_tells reason engine fun handler isResponse => ?_
  obtain ⟨id, stores⟩ := Pool.stores_of_mem_drain member
  exact books.queued id entry handler stores isResponse

/-- Whoever waits for a message in the pool is told when the pool is emptied. -/
theorem drainPool_claims
    (books : engine.Books known)
    (ordered : engine.pool.entries.IsOrdered)
    {id : MessageId}
    {entry : PoolEntry}
    (stores : engine.pool.entries.Stores id entry)
    (isResponse : entry.hooks.response = some handler)
    (reason : String) :
    (engine.drainPool reason).HasClaimed handler := by
  obtain ⟨guard, _, isGuard⟩ :=
    books.guarded handler (books.queued id entry handler stores isResponse)
  obtain ⟨front, back, drained⟩ :=
    List.append_of_mem (Pool.mem_drain ordered stores)
  rw [drainPool_eq, drained, List.foldl_append, List.foldl_cons]
  -- the entry is told in its turn, and the others close no guard again
  generalize front.foldl (tellStopped reason) _ = before
  have told : (tellStopped reason before entry).HasClaimed handler := by
    unfold tellStopped
    rw [isResponse]
    exact tellOutcome_claims isGuard _
  exact told.of_subset (tellStopped_frame reason back _).2.2

/-! ## Failing the acknowledgement handlers -/

theorem failAllAcks_settles
    (engine : Engine)
    (reason : String) :
    Settles known engine (engine.failAllAcks reason) := by
  have emptied : Settles known engine { engine with acks := engine.acks.drain.2 } :=
    .of_outgoing_eq (.of_silent engine.drainAcks_windsDown ⟨rfl, rfl⟩) rfl
  exact emptied.trans
    (.foldl engine.acks.drain.1
      (fun engine entry => engine.tellLoss_settles entry.2 reason) _)

/--
A transfer with a fragment to wait for fails when no acknowledgement will come.
-/
theorem failAllAcks_ends
    (ordered : engine.acks.IsOrdered)
    {id : MessageId}
    {token : TokenKey}
    {block : Nat}
    (stores : engine.acks.Stores id (.fragment token block))
    (reason : String) :
    (engine.failAllAcks reason).outgoing.find? token = none := by
  obtain ⟨slot, found, isFragment⟩ := stores
  obtain ⟨front, back, drained⟩ := List.append_of_mem (ordered.mem_drain found)
  unfold failAllAcks
  dsimp only
  rw [drained, List.foldl_append, List.foldl_cons, isFragment]
  generalize front.foldl _ _ = before
  have others : WindsDown (fun _ => False) (before.failTransfer token)
      (back.foldl (fun engine entry => engine.tellLoss entry.2 reason)
        (before.failTransfer token)) :=
    .foldl _ (fun engine entry _ => engine.tellLoss_windsDown entry.2 reason) _
  exact others.outgoing_none (before.failTransfer_ends token)

/-! ## Stopping -/

/--
The handler waits in the pool, or in a transfer that waits for one of its fragments.
-/
def Reaches
    (engine : Engine)
    (handler : ResponseHandler) :
    Prop :=
  (∃ id entry,
      engine.pool.entries.Stores id entry ∧ entry.hooks.response = some handler) ∨
    ∃ token transfer id block,
      engine.outgoing.find? token = some transfer ∧
        transfer.hooks.response = some handler ∧
        engine.acks.Stores id (.fragment token block)

/--
The engine when everyone who waits for a message has been told that sending stops.
-/
def stopped
    (engine : Engine)
    (reason : String) :
    Engine :=
  (engine.drainPool reason).failAllAcks reason

theorem Accounts.stopped
    {ledger : List Asked}
    {now : Timestamp}
    (accounts : engine.Accounts ledger now)
    (reason : String) :
    (engine.stopped reason).Accounts ledger now :=
  (accounts.of_windsDown (engine.drainPool_windsDown reason)
      (engine.drainPool_tells reason)).of_windsDown
    (failAllAcks_windsDown _ reason) (failAllAcks_settles _ reason).tells

/-- Whoever is within reach has been told when the engine has stopped. -/
theorem Accounts.stopped_claims
    {ledger : List Asked}
    {now : Timestamp}
    (accounts : engine.Accounts ledger now)
    (reaches : engine.Reaches handler)
    (reason : String) :
    (engine.stopped reason).HasClaimed handler := by
  have drained := (engine.drainPool_tells reason accounts.books).1
  have fails : Settles (Issued ledger) (engine.drainPool reason)
      (engine.stopped reason) :=
    failAllAcks_settles _ reason
  rcases reaches with
      ⟨id, entry, stores, isResponse⟩
        | ⟨token, transfer, id, block, found, isResponse, stores⟩
  · exact (drainPool_claims accounts.books accounts.poolOrdered stores isResponse
      reason).of_subset (fails.tells drained).2
  · obtain ⟨outgoing_eq, acks_eq⟩ := engine.drainPool_frame reason
    rw [← outgoing_eq] at found
    have ended : (engine.stopped reason).outgoing.find? token = none := by
      refine failAllAcks_ends ?_ (acks_eq ▸ stores) reason
      rw [acks_eq]
      exact accounts.acksOrdered
    refine
      (fails.ended drained token transfer handler found isResponse).resolve_right ?_
    rintro ⟨remaining, stillFound, _⟩
    cases ended.symm.trans stillFound

end Engine

namespace Endpoint

/-! ## Runs -/

/-- What is done to an endpoint that is running. -/
inductive Call where
  | sendRequest (message : Message) (who : Listener)
  /-- Send the next message that is due. -/
  | poll
  | receive (datagram : List UInt8) (source : SocketAddress)
  | advance (length : Nat)
deriving DecidableEq

/-- The endpoint after a call. -/
def perform
    (endpoint : Endpoint) :
    Call →
    Endpoint
  | .sendRequest message who => (endpoint.sendRequest message who).2
  | .poll => { endpoint with engine := endpoint.engine.poll.2 }
  | .receive datagram source =>
      { endpoint with engine := (endpoint.engine.process datagram source).2 }
  | .advance length => endpoint.advance length

/-- The endpoint after some calls. -/
def run
    (endpoint : Endpoint)
    (calls : List Call) :
    Endpoint :=
  calls.foldl perform endpoint

/-- The time that passes during a call. -/
def Call.length : Call → Nat
  | .advance length => length
  | _ => 0

/-- The time that passes during some calls. -/
def elapsed (calls : List Call) : Nat :=
  (calls.map Call.length).sum

/-- What a request puts on the ledger. -/
def asking
    (endpoint : Endpoint)
    (message : Message)
    (who : Listener) :
    Asked where
  token := (endpoint.withToken message).1.key
  handler := (endpoint.engine.guardHandler who).1
  accepted := (endpoint.sendRequest message who).1.toBool

/-- What a call puts on the ledger. -/
def asked?
    (endpoint : Endpoint) :
    Call →
    Option Asked
  | .sendRequest message who => some (endpoint.asking message who)
  | _ => none

/-- The requests that some calls make. -/
def requests
    (endpoint : Endpoint) :
    List Call →
    List Asked
  | [] => []
  | call :: rest =>
      (endpoint.asked? call).toList ++ (endpoint.perform call).requests rest

variable {endpoint : Endpoint} {ledger : List Asked} {now : Timestamp}

/-- A request is expected and queued, or it has no destination and is forgotten. -/
theorem sendRequest_cases
    (endpoint : Endpoint)
    (message : Message)
    (who : Listener) :
    let asked := endpoint.asking message who
    let expecting :=
      (endpoint.engine.guardHandler who).2.expect asked.token asked.handler
    (endpoint.sendRequest message who).2.engine =
          expecting.enqueue (endpoint.withToken message).1
            { response := some asked.handler } ∨
      asked.accepted = false ∧
        (endpoint.sendRequest message who).2.engine =
          (expecting.forget asked.token).2 := by
  have engine_eq : (endpoint.withToken message).2.engine = endpoint.engine := by
    unfold withToken
    split <;> rfl
  unfold asking sendRequest
  dsimp only
  rw [engine_eq]
  generalize (endpoint.withToken message).2 = tokened at *
  generalize (endpoint.withToken message).1 = current
  unfold enqueue
  cases lost : current.target?.isNone with
  | true => exact .inr ⟨rfl, rfl⟩
  | false => exact .inl rfl

theorem sendRequest_accounts
    (accounts : endpoint.engine.Accounts ledger now)
    (message : Message)
    (who : Listener)
    (newToken : ∀ asked ∈ ledger, asked.token ≠ (endpoint.asking message who).token)
    (newAsker : ∀ asked ∈ ledger, asked.handler.who ≠ who) :
    (endpoint.sendRequest message who).2.engine.Accounts
      (ledger ++ [endpoint.asking message who]) now := by
  have expecting :=
    accounts.expect newToken newAsker (endpoint.asking message who).accepted
  change Engine.Accounts
    (ledger ++ [endpoint.asking message who]) now _ at expecting
  rcases endpoint.sendRequest_cases message who with queued | ⟨refused, forgotten⟩
  · rw [queued]
    refine expecting.enqueue _ ?_
    rintro handler ⟨⟩
    exact ⟨_, List.mem_append_right _ (List.mem_singleton.mpr rfl), rfl⟩
  · rw [forgotten]
    refine expecting.forget fun asked member same => ?_
    rcases List.mem_append.mp member with earlier | isNew
    · exact absurd same (newToken asked earlier)
    · rw [List.mem_singleton.mp isNew]
      exact refused

/-- Every call keeps the accounts, and puts its request on the ledger. -/
theorem perform_accounts
    (accounts : endpoint.engine.Accounts ledger now)
    (call : Call)
    (tokens : ((ledger ++ (endpoint.asked? call).toList).map Asked.token).Nodup)
    (askers : ((ledger ++ (endpoint.asked? call).toList).map (·.handler.who)).Nodup)
    (early : now.nanos + call.length < Engine.responseIdle) :
    (endpoint.perform call).engine.Accounts
      (ledger ++ (endpoint.asked? call).toList)
      (now.after call.length) := by
  have still : now.after 0 = now := congrArg Timestamp.mk (Int.add_zero now.nanos)
  have unasked {engine : Engine} (same : engine.Accounts ledger now) :
      engine.Accounts (ledger ++ []) (now.after 0) := by
    rw [List.append_nil, still]
    exact same
  cases call with
  | sendRequest message who =>
      have apart {α : Type} {part : Asked → α}
          (distinct : ((ledger ++ [endpoint.asking message who]).map part).Nodup)
          (asked : Asked)
          (member : asked ∈ ledger) :
          part asked ≠ part (endpoint.asking message who) := by
        rw [List.map_append] at distinct
        exact List.disjoint_of_nodup_append distinct (List.mem_map_of_mem member)
          ∘ List.mem_singleton.mpr
      change Engine.Accounts
        (ledger ++ [endpoint.asking message who]) (now.after 0) _
      rw [still]
      exact sendRequest_accounts accounts message who (apart tokens) (apart askers)
  | poll => exact unasked accounts.poll
  | receive datagram source => exact unasked (accounts.process datagram source)
  | advance length =>
      have passed := accounts.advance early
      rw [← List.append_nil ledger] at passed
      exact passed

/-- The accounts are in order after every run. -/
theorem run_accounts
    (accounts : endpoint.engine.Accounts ledger now)
    (calls : List Call)
    (tokens : ((ledger ++ endpoint.requests calls).map Asked.token).Nodup)
    (askers : ((ledger ++ endpoint.requests calls).map (·.handler.who)).Nodup)
    (early : now.nanos + elapsed calls < Engine.responseIdle) :
    (endpoint.run calls).engine.Accounts (ledger ++ endpoint.requests calls)
      (now.after (elapsed calls)) := by
  induction calls generalizing endpoint ledger now with
  | nil =>
      have still : now.after 0 = now :=
        congrArg Timestamp.mk (Int.add_zero now.nanos)
      rw [requests, List.append_nil]
      exact still.symm ▸ accounts
  | cons call rest inductionHypothesis =>
      have elapsed_eq : elapsed (call :: rest) = call.length + elapsed rest := by
        simp [elapsed]
      have after_eq : now.after (elapsed (call :: rest)) =
          (now.after call.length).after (elapsed rest) := by
        rw [elapsed_eq]
        simp only [Timestamp.after, Nat.cast_add, Int.add_assoc]
      rw [elapsed_eq, Nat.cast_add, ← Int.add_assoc] at early
      rw [requests, ← List.append_assoc] at tokens askers ⊢
      have performed : (endpoint.perform call).engine.Accounts
          (ledger ++ (endpoint.asked? call).toList) (now.after call.length) := by
        refine perform_accounts accounts call ?_ ?_ ?_
        · rw [List.map_append] at tokens
          exact tokens.of_append_left
        · rw [List.map_append] at askers
          exact askers.of_append_left
        · omega
      rw [after_eq]
      exact inductionHypothesis performed tokens askers early

/--
Once the endpoint has stopped, a request that was queued has had one outcome,
or it is still expected and has had none. One that was queued or in a
transfer has had its outcome.
-/
theorem stop_settles_requests
    (config : EndpointConfig)
    (localAddress : SocketAddress)
    (nextId : MessageId)
    (supply : TokenSupply)
    (calls : List Call)
    (tokens :
      (((create config localAddress nextId supply).requests calls).map
        Asked.token).Nodup)
    (askers :
      (((create config localAddress nextId supply).requests calls).map
        (·.handler.who)).Nodup)
    (early : elapsed calls < Engine.responseIdle)
    {asked : Asked}
    (member : asked ∈ (create config localAddress nextId supply).requests calls)
    (accepted : asked.accepted = true) :
    let running := (create config localAddress nextId supply).run calls
    (running.stop.engine.outcomes asked.handler.who = 1 ∨
        running.stop.engine.outcomes asked.handler.who = 0 ∧
          running.stop.engine.expected.Stores asked.token asked.handler) ∧
      (running.engine.Reaches asked.handler →
        running.stop.engine.outcomes asked.handler.who = 1) := by
  intro running
  have timely : Timestamp.start.nanos + (elapsed calls : Int) <
      Engine.responseIdle := by
    simpa [Timestamp.start] using early
  have accounts : running.engine.Accounts
      ((create config localAddress nextId supply).requests calls)
      (Timestamp.start.after (elapsed calls)) :=
    @run_accounts (create config localAddress nextId supply) [] Timestamp.start
      (.create config.pool config.arq nextId) calls tokens askers timely
  have stopped := accounts.stopped stoppedReason
  have issued : Issued _ asked.handler := ⟨asked, member, rfl⟩
  constructor
  · by_cases claimed :
      (running.engine.stopped stoppedReason).HasClaimed asked.handler
    · exact .inl (stopped.books.told asked.handler issued claimed)
    · exact .inr ⟨stopped.books.untold asked.handler issued claimed,
        (stopped.kept asked member accepted).resolve_left claimed⟩
  · exact fun reaches =>
      stopped.books.told asked.handler issued
        (accounts.stopped_claims reaches stoppedReason)

/-- A request for a short resource. -/
def sampleRequest : Message :=
  { id := 7
    kind := .confirmable
    code := .get
    token := some ⟨[7]⟩
    address := some (.v4 10 0 0 2 5683) }

/-- The request is made and sent. -/
def sampleCalls : List Call :=
  [.sendRequest sampleRequest (.observer "asker"), .poll]

/-- A request that was sent and not answered is told when the endpoint stops. -/
theorem stop_settles_requests_unanswered :
    elapsed sampleCalls < Engine.responseIdle ∧
      ((create {} (.v4 10 0 0 1 5683) 100 (.counting 1)).run
        sampleCalls).stop.engine.outcomes
        (.observer "asker") = 1 := by
  have early : elapsed sampleCalls < Engine.responseIdle := by decide +kernel
  have waits :
      (((create {} (.v4 10 0 0 1 5683) 100 (.counting 1)).run
        sampleCalls).engine.pool.entries.peek?
        Timestamp.start 7).map (·.hooks.response) =
        some (some ⟨.observer "asker", some 0⟩) := by
    decide +kernel
  obtain ⟨entry, peeked, isResponse⟩ := Option.map_eq_some_iff.mp waits
  refine ⟨early,
    (stop_settles_requests {} (.v4 10 0 0 1 5683) 100 (.counting 1) sampleCalls
    (by decide +kernel) (by decide +kernel) early
    (by decide +kernel :
      (⟨sampleRequest.key, ⟨.observer "asker", some 0⟩, true⟩ : Asked) ∈ _) rfl).2
      ?_⟩
  exact .inl ⟨7, entry, Cache.stores_of_peek? peeked, isResponse⟩

/--
An empty acknowledgement takes the request out of the pool, and stopping
does not tell it any more.
-/
theorem stop_leaves_acknowledged_request_untold :
    let endpoint := create {} (.v4 10 0 0 1 5683) 100 (.counting 1)
    let emptyAck := Call.receive [0x61, 0x00, 0x00, 0x07, 0x07] (.v4 10 0 0 2 5683)
    (endpoint.sendRequest sampleRequest (.observer "asker")).1.toBool = true ∧
      (endpoint.run (sampleCalls ++ [emptyAck])).stop.engine.outcomes
        (.observer "asker") = 0 := by
  decide +kernel

end Endpoint

end Coap
