import Mathlib.Data.List.Chain
import Mathlib.Tactic.Common
import Coap.Proofs.Queue.Accounting
import Coap.Proofs.Queue.Changes

namespace Coap

/-!
# The retry schedule of an entry

From when it is queued until it leaves, an entry is handed out at times that keep
the periods of its pool. The scheduling state of the entry is a summary of these
times: how many there were, and the last one.
-/

/--
Two times between which a message is sent again: neither too soon nor too late.
-/
def PoolConfig.Spaces
    (config : PoolConfig)
    (entry : PoolEntry)
    (first second : Timestamp) :
    Prop :=
  first ≤ second ∧
    config.resendWait entry.message ≤ second.since first ∧
      second.since first < config.garbageWait entry.message

/-- The hand-outs of an entry keep the periods of its pool. -/
structure PoolConfig.Paces
    (config : PoolConfig)
    (entry : PoolEntry)
    (outs : List (Timestamp × Message)) :
    Prop where
  few : outs.length ≤ config.maxAttempts
  timely : ∀ out ∈ outs,
    out.2 = entry.message ∧ entry.createdAt ≤ out.1 ∧
      out.1.since entry.createdAt < config.expirationPeriod
  spaced : (outs.map Prod.fst).IsChain (config.Spaces entry)

/-- An entry that was handed out as in `outs` may be given up for a reason. -/
structure PoolConfig.Ends
    (config : PoolConfig)
    (entry : PoolEntry)
    (outs : List (Timestamp × Message))
    (stopped : Bool)
    (now : Timestamp)
    (reason : FailureReason) :
    Prop where
  expired : reason = .expired →
    entry.createdAt.after config.expirationPeriod ≤ now
  garbage : reason = .garbage →
    stopped = false ∧
      ∃ last, outs.getLast? = some last ∧
        last.1.after (config.garbageWait entry.message) ≤ now
  tooManyAttempts : reason = .tooManyAttempts →
    outs.length = config.maxAttempts ∧
      (1 ≤ config.maxAttempts →
        ∃ last, outs.getLast? = some last ∧
          last.1.after (config.resendWait entry.message) ≤ now)

namespace Engine

variable {engine : Engine} {action : QueueAction} {actions : List QueueAction}
variable {entry fresh later : PoolEntry} {id : MessageId} {config : PoolConfig}

/-- When and as what an action hands out the message with an identifier. -/
def handOutOf
    (engine : Engine)
    (id : MessageId)
    (action : QueueAction) :
    List (Timestamp × Message) :=
  ((engine.handedOut? action).filter fun message =>
    message.id = id).toList.map fun message =>
    (engine.now, message)

theorem handOutOf_of_ne
    (unpicked : ∀ message, engine.handedOut? action = some message →
      message.id ≠ id) :
    engine.handOutOf id action = [] := by
  unfold handOutOf
  cases picked : engine.handedOut? action with
  | none => rfl
  | some message => simp [unpicked message picked]

theorem handOutOf_of_picked
    {message : Message}
    (picked : engine.handedOut? action = some message)
    (isId : message.id = id) :
    engine.handOutOf id action = [(engine.now, message)] := by
  unfold handOutOf
  rw [picked, Option.filter_some, if_pos (decide_eq_true isId)]
  rfl

/-- When and as what the message with an identifier is handed out in a run. -/
def handOuts
    (engine : Engine)
    (id : MessageId) :
    List QueueAction →
    List (Timestamp × Message)
  | [] => []
  | action :: rest =>
      engine.handOutOf id action ++ (engine.act action).handOuts id rest

/-- Whether the sending of the message with an identifier is stopped in a run. -/
def isSuppressed
    (engine : Engine)
    (id : MessageId) :
    List QueueAction →
    Bool
  | [] => false
  | action :: rest =>
      engine.suppresses id action || (engine.act action).isSuppressed id rest

/-! ## Runs in parts -/

theorem departure?_append
    (engine : Engine)
    (id : MessageId)
    (early late : List QueueAction) :
    engine.departure? id (early ++ late) =
      (engine.departure? id early).or
        ((engine.actAll early).departure? id late) := by
  induction early generalizing engine with
  | nil => rfl
  | cons action rest inductionHypothesis =>
      rw [List.cons_append, departure?, departure?]
      split
      · rfl
      · exact inductionHypothesis (engine.act action)

theorem ne_of_departure?_cons
    (stays : engine.departure? id (action :: actions) = none) :
    (∀ left ∈ engine.leaving action, left.1.message.id ≠ id) ∧
      (engine.act action).departure? id actions = none := by
  rcases engine.departure?_cons id action actions with
    ⟨left, _, _, leaves⟩ | ⟨noneLeaves, later⟩
  · rw [leaves] at stays
    cases stays
  · exact ⟨noneLeaves, later ▸ stays⟩

theorem IsPlain.config_act
    (plain : engine.IsPlain)
    (action : QueueAction) :
    (engine.act action).pool.config = engine.pool.config := by
  rw [act_eq]
  refine (giveUpAll_windsDown _ _).pool.config_eq.trans ?_
  cases action with
  | enqueue message hooks => exact Pool.enqueue_config _ _ _ _
  | next => exact (engine.scanned_windsDown plain.keyed).pool.config_eq
  | take other => exact (engine.take_windsDown other).pool.config_eq
  | remove message => exact (engine.take_windsDown message.id).pool.config_eq
  | takeByToken token => exact (engine.takeByToken_windsDown token).pool.config_eq
  | drain text => exact (engine.drainPool_windsDown text).pool.config_eq
  | _ => rfl

theorem IsPlain.config_actAll
    (plain : engine.IsPlain)
    (actions : List QueueAction) :
    (engine.actAll actions).pool.config = engine.pool.config := by
  induction actions generalizing engine with
  | nil => rfl
  | cons action rest inductionHypothesis =>
      exact (inductionHypothesis (plain.act action)).trans (plain.config_act action)

theorem IsPlain.le_now_act
    (plain : engine.IsPlain)
    (action : QueueAction) :
    engine.now ≤ (engine.act action).now := by
  have unchanged {later : Engine} (same : later.now = engine.now) :
      engine.now ≤ later.now := by
    rw [same]
    exact Int.le_refl _
  rw [act_eq, (giveUpAll_windsDown _ _).now_eq]
  cases action with
  | advance length => exact Timestamp.le_after engine.now length
  | next => exact unchanged (engine.scanned_windsDown plain.keyed).now_eq
  | take other => exact unchanged (engine.take_windsDown other).now_eq
  | remove message => exact unchanged (engine.take_windsDown message.id).now_eq
  | takeByToken token => exact unchanged (engine.takeByToken_windsDown token).now_eq
  | drain text => exact unchanged (engine.drainPool_windsDown text).now_eq
  | _ => exact Int.le_refl _

/-! ## What the entry remembers -/

/--
An entry that was queued as `fresh` and has been handed out as in
`outs` up to `now`.
-/
structure Follows
    (config : PoolConfig)
    (fresh : PoolEntry)
    (outs : List (Timestamp × Message))
    (stopped : Bool)
    (now : Timestamp)
    (entry : PoolEntry) :
    Prop where
  asQueued_eq : entry.asQueued = fresh
  attempts_eq : entry.attempts = outs.length
  sentAt_eq : entry.sentAt = outs.getLast?.map Prod.fst
  needsSend_eq : entry.needsSend = !stopped
  begun : fresh.createdAt ≤ now
  few : outs.length ≤ config.maxAttempts
  timely : ∀ out ∈ outs,
    out.2 = fresh.message ∧ fresh.createdAt ≤ out.1 ∧ out.1 ≤ now ∧
      out.1.since fresh.createdAt < config.expirationPeriod
  spaced : (outs.map Prod.fst).IsChain (config.Spaces fresh)
  rested : entry.inFlight = false → ∀ last, outs.getLast? = some last →
    config.resendWait fresh.message ≤ now.since last.1

namespace Follows

variable {outs : List (Timestamp × Message)} {stopped : Bool}
variable {now after : Timestamp}

theorem create
    (config : PoolConfig)
    (now : Timestamp)
    (message : Message)
    (hooks : Hooks) :
    Follows config (.create now message hooks) [] false now
      (.create now message hooks) where
  asQueued_eq := rfl
  attempts_eq := rfl
  sentAt_eq := rfl
  needsSend_eq := rfl
  begun := Int.le_refl _
  few := Nat.zero_le _
  timely := List.forall_mem_nil _
  spaced := .nil
  rested := by
    intro _ last isLast
    cases isLast

/-- Time that passes only makes the last hand-out older. -/
theorem wait
    (follows : Follows config fresh outs stopped now entry)
    (passes : now ≤ after) :
    Follows config fresh outs stopped after entry :=
  { follows with
    begun := Timestamp.le_trans follows.begun passes
    timely := by
      intro out member
      obtain ⟨message_eq, begun, past, young⟩ := follows.timely out member
      exact ⟨message_eq, begun, Timestamp.le_trans past passes, young⟩
    rested := fun grounded last isLast =>
      Nat.le_trans (follows.rested grounded last isLast)
        (Timestamp.since_mono passes last.1) }

theorem suppress
    (follows : Follows config fresh outs stopped now entry) :
    Follows config fresh outs true now entry.suppressed :=
  { follows with needsSend_eq := rfl }

theorem message_eq
    (follows : Follows config fresh outs stopped now entry) :
    entry.message = fresh.message := by
  rw [← follows.asQueued_eq]
  rfl

theorem createdAt_eq
    (follows : Follows config fresh outs stopped now entry) :
    entry.createdAt = fresh.createdAt := by
  rw [← follows.asQueued_eq]
  rfl

/--
When a resend is scheduled, the resend period since the last hand-out is over.
-/
theorem scheduleResend
    (follows : Follows config fresh outs stopped now entry)
    (decided : entry.decision config now = .scheduleResend) :
    Follows config fresh outs stopped now entry.resendScheduled :=
  { follows with
    rested := by
      intro _ last isLast
      cases PoolEntry.decides_of_eq decided with
      | scheduleResend _ longAgo =>
          obtain ⟨sentAt, isSent, elapsed⟩ :=
            PoolEntry.sentLongAgo_eq_true_iff.mp longAgo
          rw [follows.sentAt_eq, isLast, Option.map_some,
            Option.some.injEq] at isSent
          rw [isSent, ← follows.message_eq]
          exact elapsed }

/-- A hand-out keeps the schedule. -/
theorem handOut
    (follows : Follows config fresh outs stopped now entry)
    (decided : entry.decision config now = .handOut) :
    Follows config fresh (outs ++ [(now, entry.message)]) stopped now
      (entry.handedOut now) := by
  cases PoolEntry.decides_of_eq decided with
  | handOut young needed recent grounded unused =>
      have attempts_eq := follows.attempts_eq
      refine { follows with
        attempts_eq := ?_, sentAt_eq := ?_, few := ?_, timely := ?_, spaced :=
          ?_, rested := ?_ }
      · rw [List.length_append, ← attempts_eq]
        rfl
      · rw [List.getLast?_concat]
        rfl
      · rw [List.length_append, List.length_singleton]
        omega
      · refine List.forall_mem_append.mpr ⟨follows.timely, fun out isNew => ?_⟩
        rw [List.mem_singleton.mp isNew]
        refine ⟨follows.message_eq, follows.begun, Int.le_refl _, ?_⟩
        rw [← follows.createdAt_eq]
        exact young
      · rw [List.map_append, List.isChain_append]
        refine ⟨follows.spaced, .singleton _, ?_⟩
        intro last isLast next isNext
        rw [List.getLast?_map, Option.mem_def, Option.map_eq_some_iff] at isLast
        obtain ⟨out, isOut, rfl⟩ := isLast
        cases isNext
        have sent : entry.sentAt = some out.1 := by
          rw [follows.sentAt_eq, isOut]
          rfl
        refine ⟨(follows.timely out (List.mem_of_getLast? isOut)).2.2.1,
          follows.rested grounded out isOut, ?_⟩
        rw [← follows.message_eq]
        exact PoolEntry.sentLongAgo_eq_false_iff.mp recent out.1 sent
      · intro flying
        cases flying

theorem paces
    (follows : Follows config fresh outs stopped now entry) :
    config.Paces fresh outs where
  few := follows.few
  timely := by
    intro out member
    obtain ⟨message_eq, begun, _, young⟩ := follows.timely out member
    exact ⟨message_eq, begun, young⟩
  spaced := follows.spaced

/--
What the rules have seen when they give up the entry, in terms of its hand-outs.
-/
theorem ends
    (follows : Follows config fresh outs stopped now entry)
    {reason : FailureReason}
    (decided : entry.decision config now = .giveUp reason) :
    config.Ends fresh outs stopped now reason := by
  cases PoolEntry.decides_of_eq decided with
  | expired old =>
      rw [follows.createdAt_eq] at old
      exact ⟨fun _ => (Timestamp.after_le_iff follows.begun).mpr old, nofun, nofun⟩
  | garbage needed longAgo =>
      refine ⟨nofun, fun _ => ?_, nofun⟩
      rw [follows.needsSend_eq, Bool.not_eq_true'] at needed
      obtain ⟨sentAt, isSent, elapsed⟩ :=
        PoolEntry.sentLongAgo_eq_true_iff.mp longAgo
      rw [follows.sentAt_eq, Option.map_eq_some_iff] at isSent
      obtain ⟨last, isLast, rfl⟩ := isSent
      rw [follows.message_eq] at elapsed
      have past := (follows.timely last (List.mem_of_getLast? isLast)).2.2.1
      exact ⟨needed, last, isLast, (Timestamp.after_le_iff past).mpr elapsed⟩
  | tooManyAttempts grounded used =>
      refine ⟨nofun, nofun, fun _ => ?_⟩
      rw [follows.attempts_eq] at used
      have all : outs.length = config.maxAttempts :=
        Nat.le_antisymm follows.few used
      refine ⟨all, fun allowed => ?_⟩
      have nonempty : outs ≠ [] := List.length_pos_iff.mp (all ▸ allowed)
      have isLast := List.getLast?_eq_some_getLast nonempty
      have past := (follows.timely _ (List.getLast_mem nonempty)).2.2.1
      have elapsed := follows.rested grounded _ isLast
      exact ⟨_, isLast, (Timestamp.after_le_iff past).mpr elapsed⟩

/-- One action keeps the summary, with what it hands out added. -/
theorem step
    (follows : Follows config fresh outs stopped engine.now entry)
    (plain : engine.IsPlain)
    (config_eq : engine.pool.config = config)
    (isId : entry.message.id = id)
    (changes : engine.Changes action id entry later) :
    Follows config fresh (outs ++ engine.handOutOf id action)
      (stopped || engine.suppresses id action) (engine.act action).now later := by
  have passes := plain.le_now_act action
  cases changes with
  | kept unpicked unsuppressed _ =>
      rw [handOutOf_of_ne unpicked, List.append_nil, unsuppressed, Bool.or_false]
      exact follows.wait passes
  | suppressed unpicked isSuppressed _ =>
      rw [handOutOf_of_ne (unpicked ▸ fun _ => nofun), List.append_nil,
        isSuppressed, Bool.or_true]
      exact follows.suppress.wait passes
  | handedOut decided picked unsuppressed _ =>
      rw [handOutOf_of_picked picked isId, unsuppressed, Bool.or_false]
      rw [config_eq] at decided
      exact (follows.handOut decided).wait passes
  | resendScheduled decided unpicked unsuppressed _ =>
      rw [handOutOf_of_ne unpicked, List.append_nil, unsuppressed, Bool.or_false]
      rw [config_eq] at decided
      exact (follows.scheduleResend decided).wait passes

/-- A run keeps the summary of an entry that neither leaves nor starts again. -/
theorem run
    (follows : Follows config fresh outs stopped engine.now entry)
    (plain : engine.IsPlain)
    (config_eq : engine.pool.config = config)
    (stores : engine.pool.entries.Stores id entry)
    (stays : engine.departure? id actions = none)
    (continues : .requeue id ∉ actions) :
    ∃ later,
      (engine.actAll actions).pool.entries.Stores id later ∧
        Follows config fresh (outs ++ engine.handOuts id actions)
          (stopped || engine.isSuppressed id actions)
            (engine.actAll actions).now later := by
  induction actions generalizing engine entry outs stopped with
  | nil =>
      refine ⟨entry, stores, ?_⟩
      unfold handOuts isSuppressed
      rw [List.append_nil, Bool.or_false]
      exact follows
  | cons action rest inductionHypothesis =>
      obtain ⟨noneLeaves, staysLater⟩ := ne_of_departure?_cons stays
      obtain ⟨notFirst, notRest⟩ := not_or.mp (List.mem_cons.not.mp continues)
      obtain ⟨next, nextStores, changes⟩ :=
        plain.exists_changes stores noneLeaves (Ne.symm notFirst)
      have stepped :=
        follows.step plain config_eq (plain.keyed id entry stores) changes
      obtain ⟨later, laterStores, final⟩ :=
        inductionHypothesis stepped (plain.act action)
          ((plain.config_act action).trans config_eq) nextStores staysLater notRest
      refine ⟨later, laterStores, ?_⟩
      unfold handOuts isSuppressed
      rw [← List.append_assoc, ← Bool.or_assoc]
      exact final

end Follows

end Engine

end Coap
