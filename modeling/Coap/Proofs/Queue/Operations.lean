import Mathlib.Tactic.Common
import Coap.Proofs.Queue.Schedule

namespace Coap

/-!
# All that is done to a pool

Besides what is done to its queue, a pool is asked for the telemetry of a token,
forgets the telemetry that nobody has read for long, and lets go of messages that
are done once sent. None of that brings an entry into the pool.
-/

/-- What is done to a pool by those who share it. -/
inductive PoolAction where
  | queue (action : QueueAction)
  | readDelivery (token : TokenKey)
  | purgeDelivery
  | releaseUnconfirmed (message : Message)
deriving DecidableEq

/-- For how long the clock is advanced by an action. -/
def PoolAction.duration : PoolAction → Nat
  | .queue (.advance length) => length
  | _ => 0

/-- For how long the clock is advanced by several actions. -/
def PoolAction.elapsed (actions : List PoolAction) : Nat :=
  (actions.map duration).sum

theorem PoolAction.elapsed_append (early late : List PoolAction) :
    elapsed (early ++ late) = elapsed early + elapsed late := by
  unfold elapsed
  rw [List.map_append, List.sum_append]

theorem PoolAction.elapsed_cons (action : PoolAction) (rest : List PoolAction) :
    elapsed (action :: rest) = action.duration + elapsed rest := by
  unfold elapsed
  rw [List.map_cons, List.sum_cons]

namespace Engine

/-- The engine after an action. -/
def operate
    (engine : Engine) :
    PoolAction →
    Engine
  | .queue action => engine.act action
  | .readDelivery token => (engine.deliveryOf token).2
  | .purgeDelivery =>
      { engine with pool := (engine.pool.purgeDelivery engine.now).2 }
  | .releaseUnconfirmed message => engine.releaseUnconfirmed message

/-- The engine after several actions. -/
def operateAll
    (engine : Engine)
    (actions : List PoolAction) :
    Engine :=
  actions.foldl operate engine

variable {engine : Engine}

theorem purgeDelivery_windsDown
    {gone : MessageId → Prop}
    (engine : Engine) :
    WindsDown gone engine
      { engine with pool := (engine.pool.purgeDelivery engine.now).2 } :=
  .of_pool engine (.with_delivery engine.pool _)

theorem IsPlain.operate
    (plain : engine.IsPlain)
    (action : PoolAction) :
    (engine.operate action).IsPlain := by
  cases action with
  | queue action => exact plain.act action
  | readDelivery token =>
      exact plain.of_windsDown (@deliveryOf_windsDown (fun _ => False) engine token)
  | purgeDelivery =>
      exact plain.of_windsDown (@purgeDelivery_windsDown (fun _ => False) engine)
  | releaseUnconfirmed message =>
      exact plain.of_windsDown (engine.releaseUnconfirmed_windsDown message)

theorem IsPlain.operateAll
    (plain : engine.IsPlain)
    (actions : List PoolAction) :
    (engine.operateAll actions).IsPlain := by
  induction actions generalizing engine with
  | nil => exact plain
  | cons action rest inductionHypothesis =>
      exact inductionHypothesis (plain.operate action)

theorem IsPlain.config_operate
    (plain : engine.IsPlain)
    (action : PoolAction) :
    (engine.operate action).pool.config = engine.pool.config := by
  cases action with
  | queue action => exact plain.config_act action
  | readDelivery token => rfl
  | purgeDelivery => rfl
  | releaseUnconfirmed message =>
      exact (engine.releaseUnconfirmed_windsDown message).pool.config_eq

theorem IsPlain.config_operateAll
    (plain : engine.IsPlain)
    (actions : List PoolAction) :
    (engine.operateAll actions).pool.config = engine.pool.config := by
  induction actions generalizing engine with
  | nil => rfl
  | cons action rest inductionHypothesis =>
      exact (inductionHypothesis (plain.operate action)).trans
        (plain.config_operate action)

/-- The clock goes on by what the action says. -/
theorem IsPlain.now_operate
    (plain : engine.IsPlain)
    (action : PoolAction) :
    (engine.operate action).now.nanos = engine.now.nanos + action.duration := by
  have unchanged {later : Engine} (same : later.now = engine.now) :
      later.now.nanos = engine.now.nanos + (0 : Nat) := by
    rw [same]
    exact (Int.add_zero _).symm
  cases action with
  | readDelivery token => exact unchanged rfl
  | purgeDelivery => exact unchanged rfl
  | releaseUnconfirmed message => exact unchanged rfl
  | queue action =>
      cases action with
      | advance length => rfl
      | enqueue message hooks =>
          have told : (engine.act (.enqueue message hooks)).now = engine.now := by
            rw [act_eq, (giveUpAll_windsDown _ _).now_eq]
            rfl
          exact unchanged told
      | next => exact unchanged (engine.next_windsDown plain.keyed).now_eq
      | drain text => exact unchanged (engine.drainPool_windsDown text).now_eq
      | _ => exact unchanged rfl

theorem IsPlain.now_operateAll
    (plain : engine.IsPlain)
    (actions : List PoolAction) :
    (engine.operateAll actions).now.nanos =
      engine.now.nanos + PoolAction.elapsed actions := by
  induction actions generalizing engine with
  | nil => exact (Int.add_zero _).symm
  | cons action rest inductionHypothesis =>
      have later := inductionHypothesis (plain.operate action)
      rw [plain.now_operate] at later
      refine later.trans ?_
      rw [PoolAction.elapsed_cons]
      omega

end Engine

end Coap
