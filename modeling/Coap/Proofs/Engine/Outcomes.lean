import Mathlib.Tactic.Common
import Coap.Proofs.Engine.Settlement

namespace Coap

/-!
# At most one outcome

Whoever queues a message and waits for the response may be told of a loss by the
pool and by the block-wise stage, and of an answer by the response stage. Each of
the two happens once at most. Behind a guard, only one of them counts.
-/

/--
What is done to an engine by its users, its loops and its peers,
and when it is stopped.
-/
inductive Operation where
  | act (action : Action)
  /-- Queue a message, and wait for the response, with the same handler. -/
  | ask (message : Message) (resends : Option Listener) (handler : ResponseHandler)
  | suppress (message : Message)
  | take (id : MessageId)
  | takeByToken (token : TokenKey)
  /-- Fail the transfer of a token. -/
  | abort (token : TokenKey)
  | drainPool (reason : String)
  | failAllAcks (reason : String)
deriving DecidableEq

namespace Operation

/-- Who is to be told the outcome of what an operation queues. -/
def listener? : Operation → Option Listener
  | .act (.enqueue _ _ outcome) => outcome.map ResponseHandler.who
  | .act (.request _ who) => some who
  | .ask _ _ handler => some handler.who
  | _ => none

/-- The outcome of what an operation queues passes through a guard. -/
def isGuarded : Operation → Bool
  | .act (.enqueue _ _ outcome) => outcome.any fun handler => handler.guard.isSome
  | .act (.request _ _) => true
  | .ask _ _ handler => handler.guard.isSome
  | _ => false

/-- The handler that an operation brings in. -/
def handler?
    (engine : Engine) :
    Operation →
    Option ResponseHandler
  | .act (.enqueue _ _ outcome) => outcome
  | .act (.request _ who) => some (engine.guardHandler who).1
  | .ask _ _ handler => some handler
  | _ => none

variable {operation : Operation}

theorem map_who_handler?
    (engine : Engine)
    (operation : Operation) :
    (operation.handler? engine).map ResponseHandler.who = operation.listener? := by
  cases operation with
  | act action => cases action <;> rfl
  | _ => rfl

theorem exists_guard
    (engine : Engine)
    (isGuarded : operation.isGuarded = true) :
    ∃ handler guard,
      operation.handler? engine = some handler ∧ handler.guard = some guard := by
  cases operation with
  | act action =>
      cases action with
      | enqueue message resends outcome =>
          obtain ⟨handler, isOutcome, guarded⟩ :=
            (Option.any_eq_true _ _).mp isGuarded
          obtain ⟨guard, isGuard⟩ := Option.isSome_iff_exists.mp guarded
          exact ⟨handler, guard, isOutcome, isGuard⟩
      | request message who => exact ⟨_, engine.nextGuard, rfl, rfl⟩
      | _ => cases isGuarded
  | ask message resends handler =>
      obtain ⟨guard, isGuard⟩ := Option.isSome_iff_exists.mp isGuarded
      exact ⟨handler, guard, rfl, isGuard⟩
  | _ => cases isGuarded

end Operation

namespace Engine

/-- The engine after an operation. -/
def perform
    (engine : Engine) :
    Operation →
    Engine
  | .act action => engine.step action
  | .ask message resends handler =>
      (engine.expect message.key handler).enqueue message
        { onResend := resends.map .listener
          response := some handler }
  | .suppress message => engine.suppress message
  | .take id => (engine.take id).2
  | .takeByToken token => (engine.takeByToken token).2
  | .abort token => engine.failTransfer token
  | .drainPool reason => engine.drainPool reason
  | .failAllAcks reason => engine.failAllAcks reason

/-- The engine after several operations. -/
def performAll
    (engine : Engine)
    (operations : List Operation) :
    Engine :=
  operations.foldl perform engine

variable {tariff : Tariff} {engine : Engine} {operation : Operation}
variable {operations : List Operation}
variable {who : Listener}

/-! ## Runs -/

namespace Tariff

/-- What the handler comes to that an operation brings in. -/
def charge
    (tariff : Tariff)
    (engine : Engine)
    (operation : Operation) :
    Nat :=
  (operation.handler? engine).elim 0 fun handler =>
    (tariff.awaited handler).toNat + (tariff.hooked handler).toNat

/-- What all handlers come to that are brought in during a run. -/
def charges
    (tariff : Tariff)
    (engine : Engine) :
    List Operation →
    Nat
  | [] => 0
  | operation :: rest =>
      tariff.charge engine operation +
        tariff.charges (engine.perform operation) rest

theorem charges_append
    (tariff : Tariff)
    (engine : Engine)
    (early late : List Operation) :
    tariff.charges engine (early ++ late) =
      tariff.charges engine early +
        tariff.charges (engine.performAll early) late := by
  induction early generalizing engine with
  | nil => exact (Nat.zero_add _).symm
  | cons operation rest inductionHypothesis =>
      rw [List.cons_append, charges, charges, inductionHypothesis, Nat.add_assoc]
      rfl

end Tariff

theorem step_balances
    (engine : Engine)
    (action : Action) :
    tariff.Balances (tariff.charge engine (.act action)) 0 engine
      (engine.step action) := by
  cases action with
  | register id who => exact engine.register_balances id (.listener who)
  | enqueue message resends outcome =>
      have queued := @enqueue_balances tariff engine message
        { onResend := resends.map .listener
          response := outcome }
      refine queued.mono ?_
      cases outcome with
      | none => exact Nat.le_refl 0
      | some handler => exact Nat.le_add_left _ _
  | request message who =>
      have guarded : tariff.Balances 0 0 engine (engine.guardHandler who).2 :=
        .of_unchanged ⟨rfl, rfl⟩ rfl rfl (Nat.le_refl _)
      exact (guarded.carry _).trans (ask_balances _ message none _)
  | poll => exact engine.poll_balances
  | requeue id =>
      exact .of_silent (@requeue_windsDown (fun _ => False) engine id) ⟨rfl, rfl⟩
  | purge => exact engine.purge_balances
  | advance length => exact .of_unchanged ⟨rfl, rfl⟩ rfl rfl (Nat.le_refl _)
  | receive message source => exact engine.receive_balances message source

/-- An operation costs at most what the handler comes to that it brings in. -/
theorem perform_balances
    (engine : Engine)
    (operation : Operation) :
    tariff.Balances (tariff.charge engine operation) 0 engine
      (engine.perform operation) := by
  cases operation with
  | act action => exact engine.step_balances action
  | ask message resends handler => exact engine.ask_balances message _ handler
  | suppress message =>
      exact .of_silent
        (@suppress_windsDown (fun _ => False) engine message) ⟨rfl, rfl⟩
  | take id => exact .of_silent (engine.take_windsDown id) ⟨rfl, rfl⟩
  | takeByToken token =>
      exact .of_silent (engine.takeByToken_windsDown token) ⟨rfl, rfl⟩
  | abort token => exact engine.failTransfer_balances token
  | drainPool reason => exact engine.drainPool_balances reason
  | failAllAcks reason => exact engine.failAllAcks_balances reason

theorem performAll_balances
    (engine : Engine)
    (operations : List Operation) :
    tariff.Balances (tariff.charges engine operations) 0 engine
      (engine.performAll operations) := by
  induction operations generalizing engine with
  | nil => exact .refl tariff engine
  | cons operation rest inductionHypothesis =>
      have first := (@perform_balances tariff engine operation).frame
        (tariff.charges (engine.perform operation) rest)
      rw [Nat.zero_add] at first
      exact first.trans (inductionHypothesis (engine.perform operation))

/-- In a run, calls cost at most what all handlers come to that are brought in. -/
theorem paid_performAll_le
    (tariff : Tariff)
    (poolConfig : PoolConfig)
    (arqConfig : ArqConfig)
    (nextId : MessageId)
    (operations : List Operation) :
    tariff.paid ((create poolConfig arqConfig nextId).performAll operations) ≤
      tariff.paid (create poolConfig arqConfig nextId) +
        tariff.charges (create poolConfig arqConfig nextId) operations := by
  have ordered : (create poolConfig arqConfig nextId).pool.entries.IsOrdered :=
    ⟨_, _, Cache.shows_withCapacity _⟩
  have total_le := (@performAll_balances tariff (create poolConfig arqConfig nextId)
    operations).total_le ordered
  have fresh : tariff.total (create poolConfig arqConfig nextId) =
      tariff.paid (create poolConfig arqConfig nextId) := rfl
  rw [fresh] at total_le
  unfold Tariff.total at total_le
  omega

/-! ## Counting what a listener is told -/

/-- How often `who` has been told of a loss. -/
def timesLost
    (engine : Engine)
    (who : Listener) :
    Nat :=
  engine.events.countP fun event => event.isLoss && decide (event.who = who)

/-- How often `who` has been told of an answer. -/
def timesAnswered
    (engine : Engine)
    (who : Listener) :
    Nat :=
  engine.events.countP fun event => event.isAnswer && decide (event.who = who)

theorem outcomes_eq
    (engine : Engine)
    (who : Listener) :
    engine.outcomes who = engine.timesLost who + engine.timesAnswered who := by
  unfold outcomes timesLost timesAnswered
  induction engine.events with
  | nil => rfl
  | cons event rest inductionHypothesis =>
      simp only [Tariff.countP_cons_eq, inductionHypothesis,
        event.isOutcome_toNat who]
      omega

/-- An outcome is told, or a guard holds it back. -/
theorem tellOutcome_cases
    (engine : Engine)
    (handler : ResponseHandler)
    (event : Event) :
    (engine.tellOutcome handler event).events = engine.events ∨
      (engine.tellOutcome handler event).events = engine.events ++ [event] := by
  unfold tellOutcome
  split
  · exact .inr rfl
  · split
    · exact .inl rfl
    · exact .inr rfl

namespace Tariff

variable {isCounted : Event → Bool} {onLoss onAnswer : Bool}

theorem countP_tellOutcome_le
    (engine : Engine)
    {handler : ResponseHandler}
    {event : Event}
    (addressee : event.who = handler.who)
    {counts : Bool}
    (included : isCounted event = true → counts = true) :
    (engine.tellOutcome handler event).events.countP
        (fun event => isCounted event && decide (event.who = who)) ≤
      engine.events.countP
        (fun event => isCounted event && decide (event.who = who)) +
        (counts && decide (handler.who = who)).toNat := by
  rcases engine.tellOutcome_cases handler event with unheard | told
  · rw [unheard]
    exact Nat.le_add_right _ _
  · rw [told, List.countP_append, Tariff.countP_cons_eq, List.countP_nil, addressee]
    refine Nat.add_le_add_left (Bool.toNat_le_toNat fun both => ?_) _
    rw [Bool.and_eq_true] at both ⊢
    exact ⟨included both.1, both.2⟩

/--
What `who` is told is counted, and so is each handler of `who` that may be told it.
-/
def ofEvents
    (who : Listener)
    (isCounted : Event → Bool)
    (onLoss onAnswer : Bool)
    (outcomes : ∀ event, isCounted event = true → event.isOutcome = true)
    (losses : ∀ event, event.isLoss = true → isCounted event = true → onLoss = true)
    (answers : ∀ event, event.isAnswer = true → isCounted event = true →
      onAnswer = true) :
    Tariff where
  paid engine :=
    engine.events.countP fun event => isCounted event && decide (event.who = who)
  hooked handler := onLoss && decide (handler.who = who)
  awaited handler := onAnswer && decide (handler.who = who)
  paid_of_silent := fun silent => by rw [silent.1]
  paid_tell := by
    intro engine event noOutcome
    have uncounted : isCounted event = false := by
      refine Bool.eq_false_iff.mpr fun isCounted => ?_
      rw [outcomes event isCounted] at noOutcome
      cases noOutcome
    unfold tell
    rw [List.countP_append, Tariff.countP_cons_eq, uncounted]
    rfl
  paid_loss := fun engine _ _ isLoss addressee =>
    countP_tellOutcome_le engine addressee (losses _ isLoss)
  paid_answer := fun engine _ _ isAnswer addressee =>
    countP_tellOutcome_le engine addressee (answers _ isAnswer)

/-- Losses may be told to handlers that travel with messages. -/
def ofLosses (who : Listener) : Tariff :=
  ofEvents who Event.isLoss true false (fun _ => Event.isOutcome_of_isLoss)
    (fun _ _ _ => rfl)
    fun _ isAnswer isLoss => (Event.isAnswer_of_isLoss isLoss).symm.trans isAnswer

/-- Answers may be told to handlers that wait for responses. -/
def ofAnswers (who : Listener) : Tariff :=
  ofEvents who Event.isAnswer false true (fun _ => Event.isOutcome_of_isAnswer)
    (fun _ isLoss isAnswer => (Event.isAnswer_of_isLoss isLoss).symm.trans isAnswer)
    fun _ _ _ => rfl

/-! ## Behind a guard -/

/-- What a guard that is still open may let through. -/
def openings
    (engine : Engine)
    (guard : Nat) :
    Nat :=
  if guard ∈ engine.claimed then 0 else 1

/--
A handler behind the guard is told what the guard lets through, any other one more.
-/
theorem outcomes_tellOutcome_le
    (engine : Engine)
    (handler : ResponseHandler)
    {event : Event}
    (addressee : event.who = handler.who)
    (who : Listener)
    (guard : Nat) :
    (engine.tellOutcome handler event).outcomes who +
        openings (engine.tellOutcome handler event) guard ≤
      engine.outcomes who + openings engine guard +
        (decide (handler.who = who) &&
          decide (handler.guard ≠ some guard)).toNat := by
  have told (later : Engine) (events_eq : later.events = engine.events ++ [event]) :
      later.outcomes who ≤
        engine.outcomes who + (decide (handler.who = who)).toNat := by
    unfold outcomes
    rw [events_eq, List.countP_append, Tariff.countP_cons_eq,
      List.countP_nil, addressee]
    refine Nat.add_le_add_left (Bool.toNat_le_toNat fun both => ?_) _
    exact (Bool.and_eq_true_iff.mp both).2
  unfold tellOutcome
  split
  · next unguarded =>
      have told := told (engine.tell event) rfl
      have open_eq : openings (engine.tell event) guard =
          openings engine guard := rfl
      rw [unguarded, open_eq]
      simp only [ne_eq, reduceCtorEq, not_false_eq_true, decide_true, Bool.and_true]
      omega
  · next other isOther =>
      split
      · exact Nat.le_add_right _ _
      · next unclaimed =>
          have told :=
            told ({ engine with claimed := other :: engine.claimed }.tell event) rfl
          by_cases same : other = guard
          · subst same
            have once := Bool.toNat_le (decide (handler.who = who))
            have opened : openings engine other = 1 := if_neg unclaimed
            have closed : openings ({ engine with
                claimed := other :: engine.claimed }.tell event) other = 0 :=
              if_pos List.mem_cons_self
            omega
          · have open_eq : openings ({ engine with
                claimed := other :: engine.claimed }.tell event) guard =
              openings engine guard := by
              unfold openings tell
              simp only [List.mem_cons, Ne.symm same, false_or]
            have different : handler.guard ≠ some guard := by
              rw [isOther]
              exact fun isGuard => same (Option.some.inj isGuard)
            rw [open_eq, decide_eq_true different, Bool.and_true]
            omega

/-- Only handlers that pass by the guard count, besides the guard itself. -/
def guarded
    (who : Listener)
    (guard : Nat) :
    Tariff where
  paid engine := engine.outcomes who + openings engine guard
  hooked handler :=
    decide (handler.who = who) && decide (handler.guard ≠ some guard)
  awaited handler :=
    decide (handler.who = who) && decide (handler.guard ≠ some guard)
  paid_of_silent := by
    intro before after silent
    unfold outcomes openings
    rw [silent.1, silent.2]
  paid_tell := by
    intro engine event noOutcome
    rw [outcomes_tell, noOutcome]
    rfl
  paid_loss := fun engine handler _ _ addressee =>
    outcomes_tellOutcome_le engine handler addressee who guard
  paid_answer := fun engine handler _ _ addressee =>
    outcomes_tellOutcome_le engine handler addressee who guard

/-! ## Charges -/

/-- An operation that names someone else is charged nothing. -/
theorem charge_eq_zero
    (strangers : ∀ handler, handler.who ≠ who →
      tariff.awaited handler = false ∧ tariff.hooked handler = false)
    (engine : Engine)
    (elsewhere : operation.listener? ≠ some who) :
    tariff.charge engine operation = 0 := by
  have names := operation.map_who_handler? engine
  unfold charge
  cases brought : operation.handler? engine with
  | none => rfl
  | some handler =>
      rw [brought, Option.map_some] at names
      obtain ⟨unawaited, unhooked⟩ := strangers handler fun same => by
        rw [← names, same] at elsewhere
        exact elsewhere rfl
      rw [Option.elim_some, unawaited, unhooked]
      rfl

theorem charges_eq_zero
    (strangers : ∀ handler, handler.who ≠ who →
      tariff.awaited handler = false ∧ tariff.hooked handler = false)
    (engine : Engine)
    (elsewhere : ∀ operation ∈ operations, operation.listener? ≠ some who) :
    tariff.charges engine operations = 0 := by
  induction operations generalizing engine with
  | nil => rfl
  | cons operation rest inductionHypothesis =>
      obtain ⟨first, others⟩ := List.forall_mem_cons.mp elsewhere
      unfold charges
      rw [charge_eq_zero strangers engine first, inductionHypothesis _ others]

/--
If a handler counts once at most, a run is charged for the
operations that name `who`.
-/
theorem charges_le
    (strangers : ∀ handler, handler.who ≠ who →
      tariff.awaited handler = false ∧ tariff.hooked handler = false)
    (once : ∀ handler,
      (tariff.awaited handler).toNat + (tariff.hooked handler).toNat ≤ 1)
    (engine : Engine)
    (operations : List Operation) :
    tariff.charges engine operations ≤
      operations.countP fun operation => operation.listener? = some who := by
  induction operations generalizing engine with
  | nil => exact Nat.le_refl 0
  | cons operation rest inductionHypothesis =>
      have others := inductionHypothesis (engine.perform operation)
      have first : tariff.charge engine operation ≤
          (decide (operation.listener? = some who)).toNat := by
        by_cases names : operation.listener? = some who
        · rw [decide_eq_true names]
          unfold charge
          cases operation.handler? engine with
          | none => exact Nat.zero_le _
          | some handler => exact once handler
        · rw [charge_eq_zero strangers engine names]
          exact Nat.zero_le _
      rw [charges, Tariff.countP_cons_eq]
      exact Nat.add_le_add first others

end Tariff

/-! ## One handler -/

theorem timesLost_le
    (poolConfig : PoolConfig)
    (arqConfig : ArqConfig)
    (nextId : MessageId)
    (operations : List Operation)
    (who : Listener) :
    ((create poolConfig arqConfig nextId).performAll operations).timesLost who ≤
      operations.countP fun operation => operation.listener? = some who := by
  have paid :=
    paid_performAll_le (.ofLosses who) poolConfig arqConfig nextId operations
  have charged := @Tariff.charges_le (.ofLosses who) who
    (fun handler different => ⟨rfl, decide_eq_false different⟩)
    (fun handler => Nat.le_trans (Nat.le_of_eq (Nat.zero_add _)) (Bool.toNat_le _))
    (create poolConfig arqConfig nextId) operations
  have untold : (Tariff.ofLosses who).paid
      (create poolConfig arqConfig nextId) = 0 := rfl
  rw [untold, Nat.zero_add] at paid
  exact Nat.le_trans paid charged

theorem timesAnswered_le
    (poolConfig : PoolConfig)
    (arqConfig : ArqConfig)
    (nextId : MessageId)
    (operations : List Operation)
    (who : Listener) :
    ((create poolConfig arqConfig nextId).performAll operations).timesAnswered who ≤
      operations.countP fun operation => operation.listener? = some who := by
  have paid :=
    paid_performAll_le (.ofAnswers who) poolConfig arqConfig nextId operations
  have charged := @Tariff.charges_le (.ofAnswers who) who
    (fun handler different => ⟨decide_eq_false different, rfl⟩)
    (fun handler => Bool.toNat_le _)
    (create poolConfig arqConfig nextId) operations
  have untold : (Tariff.ofAnswers who).paid
      (create poolConfig arqConfig nextId) = 0 := rfl
  rw [untold, Nat.zero_add] at paid
  exact Nat.le_trans paid charged

theorem strangers_guarded
    (who : Listener)
    (guard : Nat)
    (handler : ResponseHandler)
    (different : handler.who ≠ who) :
    (Tariff.guarded who guard).awaited handler = false ∧
      (Tariff.guarded who guard).hooked handler = false := by
  unfold Tariff.guarded
  dsimp only
  rw [decide_eq_false different]
  exact ⟨rfl, rfl⟩

/--
Where nothing is charged for handlers that pass by a guard, it
lets one outcome through.
-/
theorem outcomes_le_one
    (poolConfig : PoolConfig)
    (arqConfig : ArqConfig)
    (nextId : MessageId)
    {guard : Nat}
    (free : (Tariff.guarded who guard).charges (create poolConfig arqConfig nextId)
      operations = 0) :
    ((create poolConfig arqConfig nextId).performAll operations).outcomes who ≤
      1 := by
  have paid :=
    paid_performAll_le (.guarded who guard) poolConfig arqConfig nextId operations
  have isOpen : (Tariff.guarded who guard).paid
      (create poolConfig arqConfig nextId) = 1 := rfl
  rw [free, isOpen] at paid
  exact Nat.le_trans (Nat.le_add_right _ _) paid

/-- If `who` is named once, there is a guard that the handler of `who` is behind. -/
theorem exists_guarded_free
    (engine : Engine)
    (once : (operations.countP fun operation => operation.listener? = some who) ≤ 1)
    (guarded : ∀ operation ∈ operations,
      operation.listener? = some who → operation.isGuarded = true) :
    ∃ guard, (Tariff.guarded who guard).charges engine operations = 0 := by
  by_cases named : ∃ operation ∈ operations, operation.listener? = some who
  · obtain ⟨operation, member, names⟩ := named
    obtain ⟨early, late, rfl⟩ := List.append_of_mem member
    obtain ⟨handler, guard, brought, isGuard⟩ :=
      Operation.exists_guard (engine.performAll early)
        (guarded operation member names)
    rw [List.countP_append, Tariff.countP_cons_eq, decide_eq_true names,
      Bool.toNat_true] at once
    have noneEarly :
        (early.countP fun operation => operation.listener? = some who) = 0 := by
      omega
    have noneLate : (late.countP fun operation => operation.listener? = some who) =
        0 := by
      omega
    rw [List.countP_eq_zero] at noneEarly noneLate
    refine ⟨guard, ?_⟩
    have own : (Tariff.guarded who guard).charge
        (engine.performAll early) operation = 0 := by
      unfold Tariff.charge
      rw [brought, Option.elim_some]
      unfold Tariff.guarded
      dsimp only
      rw [isGuard]
      simp
    rw [Tariff.charges_append, Tariff.charges, own,
      Tariff.charges_eq_zero (strangers_guarded who guard) _
        fun operation member => by
        simpa using noneEarly operation member,
      Tariff.charges_eq_zero (strangers_guarded who guard) _
        fun operation member => by
        simpa using noneLate operation member]
  · exact ⟨0, Tariff.charges_eq_zero (strangers_guarded who 0) engine
      fun operation member names => named ⟨operation, member, names⟩⟩

/--
If each handler comes in with one operation, then in every run the pool and the
block-wise stage tell it of one loss at most, and the response stage of one answer
at most. These are all its outcomes, and behind a guard there is one at most.
-/
theorem at_most_one_outcome
    (poolConfig : PoolConfig)
    (arqConfig : ArqConfig)
    (nextId : MessageId)
    (operations : List Operation)
    (who : Listener)
    (once : (operations.countP fun operation =>
      operation.listener? = some who) ≤ 1) :
    let final := (create poolConfig arqConfig nextId).performAll operations
    final.timesLost who ≤ 1 ∧
      final.timesAnswered who ≤ 1 ∧
        final.outcomes who = final.timesLost who + final.timesAnswered who ∧
          ((∀ operation ∈ operations,
              operation.listener? = some who → operation.isGuarded = true) →
            final.outcomes who ≤ 1) := by
  intro final
  refine ⟨?_, ?_, final.outcomes_eq who, fun guarded => ?_⟩
  · exact Nat.le_trans
      (timesLost_le poolConfig arqConfig nextId operations who) once
  · exact Nat.le_trans
      (timesAnswered_le poolConfig arqConfig nextId operations who) once
  · obtain ⟨guard, free⟩ :=
      exists_guarded_free (create poolConfig arqConfig nextId) once guarded
    exact outcomes_le_one poolConfig arqConfig nextId free

/--
A request that had to make room is told so, and not of its
response that arrives later.
-/
theorem at_most_one_outcome_evicted :
    let first : Message :=
      { id := 7, kind := .confirmable, code := .get, token := some ⟨[7]⟩ }
    let second : Message :=
      { id := 8, kind := .confirmable, code := .get, token := some ⟨[8]⟩ }
    let response : Message :=
      { id := 9, kind := .nonConfirmable, code := .content, token := some ⟨[7]⟩ }
    let asker := Listener.observer "asker"
    let operations : List Operation :=
      [.act (.request first asker), .act (.enqueue second none none),
        .act (.receive response (.v4 127 0 0 1 5683))]
    let final := (create { capacity := 1 } {} 100).performAll operations
    final.timesLost asker = 1 ∧ final.timesAnswered asker = 0 ∧
      final.outcomes asker ≤ 1 := by
  intro first second response asker operations final
  have once : (operations.countP fun operation =>
    operation.listener? = some asker) ≤ 1 := by
    decide
  have guarded : ∀ operation ∈ operations,
      operation.listener? = some asker → operation.isGuarded = true := by
    decide
  have isLost : final.timesLost asker = 1 := by decide
  obtain ⟨_, _, both, few⟩ :=
    at_most_one_outcome { capacity := 1 } {} 100 operations asker once
  have single := few guarded
  rw [both, isLost] at single
  exact ⟨isLost, Nat.eq_zero_of_le_zero
    (Nat.le_of_add_le_add_left single), few guarded⟩

end Engine

end Coap
