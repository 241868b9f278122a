import Mathlib.Tactic.Common
import Coap.Proofs.Endpoint.Shutdown
import Coap.Proofs.Engine.Guarding
import Coap.Proofs.Queue.Visits

namespace Coap

/-!
# Runs of the queue

The pool is used by those who queue messages, ask for the next one, and take
messages back, while others wait for acknowledgements and time passes. Entries
arrive and leave with these actions; what leaves is read off the answers that an
action gives and the losses that it reports. The entries that were queued are those
that have left and those that are still held.
-/

/--
What is done to the pool of an engine and to those who wait for acknowledgements.
-/
inductive QueueAction where
  | register (id : MessageId) (who : Listener)
  | unregister (id : MessageId)
  | enqueue (message : Message) (hooks : Hooks)
  | next
  | requeue (id : MessageId)
  | suppress (message : Message)
  | take (id : MessageId)
  | remove (message : Message)
  | takeByToken (token : TokenKey)
  | get (id : MessageId)
  | drain (text : String)
  | recordTransfer (token : TokenKey) (report : TransferReport)
  | advance (length : Nat)
deriving DecidableEq

/-- How an entry left the pool. -/
inductive Departure where
  /-- Its message was taken back. -/
  | returned
  /-- A message with the same identifier took its place. -/
  | replaced
  | drained (text : String)
  | failed (reason : FailureReason)
deriving DecidableEq, Repr

/-- What the response handler of an entry that leaves is told. -/
def Departure.reasons : Departure → List FailureReason
  | .returned => []
  | .replaced => []
  | .drained text => [.stopped text]
  | .failed reason => [reason]

/-- Two handlers have neither their listener nor a guard in common. -/
def ResponseHandler.IsApart
    (handler other : ResponseHandler) :
    Prop :=
  other.who ≠ handler.who ∧ ∀ guard, handler.guard = some guard →
    other.guard ≠ some guard

/-- The hooks name no handler that has anything in common with `handler`. -/
def Hooks.Spare
    (hooks : Hooks)
    (handler : ResponseHandler) :
    Prop :=
  ∀ other, hooks.response = some other → handler.IsApart other

/-- The action queues nothing whose hooks have anything in common with `handler`. -/
def QueueAction.Spares
    (action : QueueAction)
    (handler : ResponseHandler) :
    Prop :=
  ∀ message hooks, action = .enqueue message hooks → hooks.Spare handler

namespace Engine

/-- The engine after an action. -/
def act
    (engine : Engine) :
    QueueAction →
    Engine
  | .register id who => engine.register id (.listener who)
  | .unregister id => (engine.unregister id).2
  | .enqueue message hooks => engine.enqueue message hooks
  | .next => engine.next.2
  | .requeue id => engine.requeue id
  | .suppress message => engine.suppress message
  | .take id => (engine.take id).2
  | .remove message => (engine.take message.id).2
  | .takeByToken token => (engine.takeByToken token).2
  | .get id => (engine.queued id).2
  | .drain text => engine.drainPool text
  | .recordTransfer token report => engine.recordTransfer token report
  | .advance length => engine.advance length

/-- The engine after several actions. -/
def actAll
    (engine : Engine)
    (actions : List QueueAction) :
    Engine :=
  actions.foldl act engine

/-- The entries that an action queues. -/
def arriving
    (engine : Engine) :
    QueueAction →
    List PoolEntry
  | .enqueue message hooks => [PoolEntry.create engine.now message hooks]
  | _ => []

/-- The entries that an action loses, and why. -/
def losses
    (engine : Engine) :
    QueueAction →
    List (PoolEntry × FailureReason)
  | .enqueue message hooks =>
      (engine.pool.enqueue engine.now message hooks).1.toList.map fun entry =>
        (entry, .evicted)
  | .next => engine.givenUp
  | _ => []

/--
The entries that an action takes out of the pool without losing them, and how.
-/
def taking
    (engine : Engine) :
    QueueAction →
    List (PoolEntry × Departure)
  | .enqueue message _ =>
      (engine.pool.entries.peek? engine.now message.id).toList.map fun entry =>
        (entry, .replaced)
  | .take id => (engine.take id).1.toList.map fun entry => (entry, .returned)
  | .remove message =>
      (engine.take message.id).1.toList.map fun entry => (entry, .returned)
  | .takeByToken token =>
      (engine.takeByToken token).1.toList.map fun entry => (entry, .returned)
  | .drain text => engine.pool.drain.1.map fun entry => (entry, .drained text)
  | _ => []

/-- The entries that leave the pool with an action, and how. -/
def leaving
    (engine : Engine)
    (action : QueueAction) :
    List (PoolEntry × Departure) :=
  engine.taking action ++ (engine.losses action).map fun lost =>
    (lost.1, .failed lost.2)

/-- How the entry under an identifier left first; nothing if it is still queued. -/
def departure?
    (engine : Engine)
    (id : MessageId) :
    List QueueAction →
    Option Departure
  | [] => none
  | action :: rest =>
      match (engine.leaving action).find? fun left =>
        decide (left.1.message.id = id) with
      | some left => some left.2
      | none => (engine.act action).departure? id rest

/--
The entry under an identifier leaves with the first action, or it
may leave with the others.
-/
theorem departure?_cons
    (engine : Engine)
    (id : MessageId)
    (action : QueueAction)
    (rest : List QueueAction) :
    (∃ left ∈ engine.leaving action,
      left.1.message.id = id ∧
        engine.departure? id (action :: rest) = some left.2) ∨
      (∀ left ∈ engine.leaving action, left.1.message.id ≠ id) ∧
        engine.departure? id (action :: rest) =
          (engine.act action).departure? id rest := by
  rw [departure?]
  cases found : (engine.leaving action).find? fun left =>
    decide (left.1.message.id = id) with
  | some left =>
      have isId := List.find?_some found
      exact .inl ⟨left, List.mem_of_find?_eq_some found,
        of_decide_eq_true isId, rfl⟩
  | none =>
      refine .inr ⟨fun left member => ?_, rfl⟩
      simpa using List.find?_eq_none.mp found left member

/-- The engine after an action, before anyone is told of its losses. -/
def staged
    (engine : Engine) :
    QueueAction →
    Engine
  | .enqueue message hooks => engine.inserted message hooks
  | .next => engine.scanned
  | action => engine.act action

/-- An action ends with telling everyone concerned of its losses. -/
theorem act_eq
    (engine : Engine)
    (action : QueueAction) :
    engine.act action =
      (engine.staged action).giveUpAll (engine.losses action) := by
  cases action with
  | enqueue message hooks =>
      unfold act staged losses enqueue
      dsimp only
      cases (engine.pool.enqueue engine.now message hooks).1 <;> rfl
  | next => rfl
  | _ => rfl

/-! ## Engines without transfers -/

/-- No transfer is in progress, and only listeners wait for acknowledgements. -/
structure IsPlain (engine : Engine) : Prop where
  sound : engine.pool.IsSound
  keyed : engine.pool.IsKeyed
  outgoing : ∀ token, engine.outgoing.find? token = none
  acks : ∀ id handler, engine.acks.Stores id handler → ∃ who,
    handler = .listener who

variable {engine later : Engine} {gone : MessageId → Prop}

theorem isPlain_create
    (poolConfig : PoolConfig)
    (arqConfig : ArqConfig)
    (nextId : MessageId) :
    (create poolConfig arqConfig nextId).IsPlain where
  sound := Pool.isSound_empty poolConfig
  keyed := by
    rintro id entry ⟨slot, found, _⟩
    cases found
  outgoing := fun _ => rfl
  acks := by
    rintro id handler ⟨slot, found, _⟩
    cases found

/-- What only takes things away leaves a plain engine plain. -/
theorem IsPlain.of_windsDown
    (plain : engine.IsPlain)
    (winds : WindsDown gone engine later) :
    later.IsPlain where
  sound := plain.sound.of_thins winds.pool
  keyed := plain.keyed.of_thins winds.pool
  outgoing := fun token => winds.outgoing_none (plain.outgoing token)
  acks :=
    fun id handler stores => plain.acks id handler (winds.watched id handler stores)

theorem IsPlain.register
    (plain : engine.IsPlain)
    (id : MessageId)
    (who : Listener) :
    (engine.register id (.listener who)).IsPlain :=
  { plain with
    acks := by
      intro other handler stores
      rcases stores.of_insert with ⟨_, rfl⟩ | before
      · exact ⟨who, rfl⟩
      · exact plain.acks other handler before }

theorem IsPlain.inserted
    (plain : engine.IsPlain)
    (message : Message)
    (hooks : Hooks) :
    (engine.inserted message hooks).IsPlain :=
  { plain with
    sound := plain.sound.enqueue engine.now message hooks
    keyed := plain.keyed.enqueue engine.now message hooks }

theorem IsPlain.queued
    (plain : engine.IsPlain)
    (id : MessageId) :
    (engine.queued id).2.IsPlain :=
  { plain with
    sound :=
      { ordered := plain.sound.ordered.get engine.now id
        unlimited := Cache.get_bounds.2.trans plain.sound.unlimited }
    keyed := fun other entry stores => plain.keyed other entry stores.of_get }

theorem IsPlain.staged
    (plain : engine.IsPlain)
    (action : QueueAction) :
    (engine.staged action).IsPlain := by
  cases action with
  | register id who => exact plain.register id who
  | unregister id => exact plain.of_windsDown (engine.unregister_windsDown id)
  | enqueue message hooks => exact plain.inserted message hooks
  | next => exact plain.of_windsDown (engine.scanned_windsDown plain.keyed)
  | requeue id =>
      exact plain.of_windsDown (@requeue_windsDown (fun _ => False) engine id)
  | suppress message =>
      exact plain.of_windsDown (@suppress_windsDown (fun _ => False) engine message)
  | take id => exact plain.of_windsDown (engine.take_windsDown id)
  | remove message => exact plain.of_windsDown (engine.take_windsDown message.id)
  | takeByToken token =>
      exact plain.of_windsDown (engine.takeByToken_windsDown token)
  | get id => exact plain.queued id
  | drain text => exact plain.of_windsDown (engine.drainPool_windsDown text)
  | recordTransfer token report =>
      exact plain.of_windsDown
        (@recordTransfer_windsDown (fun _ => False) engine token report)
  | advance length => exact { plain with }

theorem IsPlain.act
    (plain : engine.IsPlain)
    (action : QueueAction) :
    (engine.act action).IsPlain := by
  rw [act_eq]
  exact (plain.staged action).of_windsDown (giveUpAll_windsDown _ _)

theorem IsPlain.actAll
    (plain : engine.IsPlain)
    (actions : List QueueAction) :
    (engine.actAll actions).IsPlain := by
  induction actions generalizing engine with
  | nil => exact plain
  | cons action rest inductionHypothesis =>
      exact inductionHypothesis (plain.act action)

end Engine

end Coap
