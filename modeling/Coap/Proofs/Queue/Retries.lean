import Mathlib.Tactic.Common
import Coap.Proofs.Queue.Schedule

namespace Coap

/-!
# Hand-outs and resends

The hand-outs of an entry keep the periods of its pool, and its resend
hook is called once between two of them. When it is given up, the period
that it is given up for is over.
-/

/-- What is heard of an entry while it is queued. -/
inductive Mark where
  | handOut
  | resend
deriving DecidableEq, Repr

/-- The action queues nothing whose resends `who` is told of. -/
def QueueAction.SparesResends
    (action : QueueAction)
    (who : Listener) :
    Prop :=
  ∀ message hooks, action = .enqueue message hooks →
    hooks.onResend ≠ some (.listener who)

namespace Engine

variable {engine : Engine} {action : QueueAction} {actions : List QueueAction}
variable {entry later : PoolEntry} {id : MessageId}

theorem not_resent_of_arriving
    {who : Listener}
    (spares : action.SparesResends who)
    (member : entry ∈ engine.arriving action) :
    entry.hooks.onResend ≠ some (.listener who) := by
  cases action with
  | enqueue message hooks =>
      cases List.mem_singleton.mp member
      exact spares message hooks rfl
  | _ => cases member

theorem IsPlain.tellsAlone_iff
    {who : Listener}
    (plain : engine.IsPlain) :
    engine.pool.TellsAlone id who ↔
      ∀ other ∈ engine.pool.held,
        other.message.id ≠ id → other.hooks.onResend ≠ some (.listener who) := by
  constructor
  · intro alone other isHeld different
    obtain ⟨stored, stores, rfl⟩ := plain.sound.exists_stores plain.keyed isHeld
    exact alone _ stored stores different
  · intro others otherId stored stores different
    have isHeld : stored.asQueued ∈ engine.pool.held :=
      plain.sound.mem_held_iff.mpr ⟨otherId, stored, stores, rfl⟩
    refine others stored.asQueued isHeld ?_
    rw [← plain.keyed otherId stored stores] at different
    exact different

/--
An entry still tells `who` alone if nothing is queued beside it that tells `who`.
-/
theorem IsPlain.tellsAlone_act
    {who : Listener}
    (plain : engine.IsPlain)
    (alone : engine.pool.TellsAlone id who)
    (arriving : ∀ other ∈ engine.arriving action,
      other.message.id ≠ id → other.hooks.onResend ≠ some (.listener who)) :
    (engine.act action).pool.TellsAlone id who :=
  (plain.act action).tellsAlone_iff.mpr
    (plain.forall_held_act (plain.tellsAlone_iff.mp alone) arriving)

/-- A message tells `who` alone, once queued, if nothing else tells `who` before. -/
theorem IsPlain.tellsAlone_enqueue
    {who : Listener}
    {message : Message}
    (plain : engine.IsPlain)
    (hooks : Hooks)
    (alone : engine.pool.TellsAlone message.id who) :
    (engine.act (.enqueue message hooks)).pool.TellsAlone message.id who := by
  refine plain.tellsAlone_act alone fun other arrives different => ?_
  cases List.mem_singleton.mp arrives
  exact absurd rfl different

theorem IsPlain.tellsAlone_act_of_spares
    {who : Listener}
    (plain : engine.IsPlain)
    (alone : engine.pool.TellsAlone id who)
    (spares : action.SparesResends who) :
    (engine.act action).pool.TellsAlone id who :=
  plain.tellsAlone_act alone fun _ arrives _ =>
    not_resent_of_arriving spares arrives

theorem IsPlain.tellsAlone_actAll
    {who : Listener}
    (plain : engine.IsPlain)
    (alone : engine.pool.TellsAlone id who)
    (spares : ∀ action ∈ actions, action.SparesResends who) :
    (engine.actAll actions).pool.TellsAlone id who := by
  induction actions generalizing engine with
  | nil => exact alone
  | cons action rest inductionHypothesis =>
      obtain ⟨sparesFirst, sparesRest⟩ := List.forall_mem_cons.mp spares
      exact inductionHypothesis (plain.act action)
        (plain.tellsAlone_act_of_spares alone sparesFirst) sparesRest

/--
What is heard of the message with an identifier when `who` listens to its resends.
-/
def marks
    (engine : Engine)
    (id : MessageId)
    (who : Listener) :
    List QueueAction →
    List Mark
  | [] => []
  | action :: rest =>
      List.replicate (engine.resendsTold who action) .resend ++
        ((engine.handOutOf id action).map (fun _ => .handOut) ++
          (engine.act action).marks id who rest)

/-! ## What is heard of the entry -/

/--
What has been heard of an entry: hand-outs and resends by turns, a hand-out first.
-/
structure Heard
    (marks : List Mark)
    (entry : PoolEntry) :
    Prop where
  alternates : marks.IsChain (· ≠ ·)
  first : marks.head? ≠ some .resend
  last : marks.getLast? = some .handOut ↔ entry.inFlight = true

namespace Heard

variable {marks : List Mark}

theorem nil (grounded : entry.inFlight = false) : Heard [] entry where
  alternates := .nil
  first := nofun
  last := by simp [grounded]

/-- A hand-out follows a resend, if anything. -/
theorem handOut
    (heard : Heard marks entry)
    (grounded : entry.inFlight = false)
    (flying : later.inFlight = true) :
    Heard (marks ++ [.handOut]) later where
  alternates := by
    rw [List.isChain_append]
    refine ⟨heard.alternates, .singleton _, ?_⟩
    intro mark isLast next isNext
    cases isNext
    rintro rfl
    have inFlight := heard.last.mp isLast
    rw [grounded] at inFlight
    cases inFlight
  first := by
    rw [List.head?_append]
    cases isFirst : marks.head? with
    | none => simp
    | some mark =>
        have first := heard.first
        rw [isFirst] at first
        exact first
  last := by simp [flying]

/-- A resend follows a hand-out. -/
theorem resend
    (heard : Heard marks entry)
    (flying : entry.inFlight = true)
    (grounded : later.inFlight = false) :
    Heard (marks ++ [.resend]) later where
  alternates := by
    rw [List.isChain_append]
    refine ⟨heard.alternates, .singleton _, ?_⟩
    intro mark isLast next isNext
    cases isNext
    rw [heard.last.mpr flying] at isLast
    cases isLast
    exact nofun
  first := by
    have nonempty : marks ≠ [] := by
      rintro rfl
      cases heard.last.mpr flying
    rw [List.head?_append_of_ne_nil _ nonempty]
    exact heard.first
  last := by simp [grounded]

variable {who : Listener}

/-- One action adds what is heard of it. -/
theorem step
    (heard : Heard marks entry)
    (isId : entry.message.id = id)
    (waits : entry.hooks.onResend = some (.listener who))
    (alone : engine.pool.TellsAlone id who)
    (changes : engine.Changes action id entry later) :
    Heard
      (marks ++ (List.replicate (engine.resendsTold who action) .resend ++
        (engine.handOutOf id action).map fun _ => .handOut))
      later ∧ later.hooks = entry.hooks := by
  cases changes with
  | kept unpicked _ resends =>
      rw [handOutOf_of_ne unpicked, resends who alone]
      exact ⟨by simpa using heard, rfl⟩
  | suppressed unpicked _ resends =>
      rw [handOutOf_of_ne (unpicked ▸ fun _ => nofun), resends who]
      have unchanged : Heard marks entry.suppressed := { heard with }
      exact ⟨by simpa using unchanged, rfl⟩
  | handedOut decided picked _ resends =>
      rw [handOutOf_of_picked picked isId, resends who alone]
      cases PoolEntry.decides_of_eq decided with
      | handOut _ _ _ grounded _ => exact ⟨heard.handOut grounded rfl, rfl⟩
  | resendScheduled decided unpicked _ resends =>
      have once : resendsTo who [entry.hooks] = 1 := by simp [resendsTo, waits]
      rw [handOutOf_of_ne unpicked, resends who alone, once]
      cases PoolEntry.decides_of_eq decided with
      | scheduleResend flying _ => exact ⟨heard.resend flying rfl, rfl⟩

/-- A run adds what is heard of an entry that neither leaves nor starts again. -/
theorem run
    (heard : Heard marks entry)
    (plain : engine.IsPlain)
    (stores : engine.pool.entries.Stores id entry)
    (waits : entry.hooks.onResend = some (.listener who))
    (alone : engine.pool.TellsAlone id who)
    (spares : ∀ action ∈ actions, action.SparesResends who)
    (stays : engine.departure? id actions = none)
    (continues : .requeue id ∉ actions) :
    ∃ later, Heard (marks ++ engine.marks id who actions) later := by
  induction actions generalizing engine entry marks with
  | nil =>
      refine ⟨entry, ?_⟩
      unfold Engine.marks
      rw [List.append_nil]
      exact heard
  | cons action rest inductionHypothesis =>
      obtain ⟨noneLeaves, staysLater⟩ := ne_of_departure?_cons stays
      obtain ⟨notFirst, notRest⟩ := not_or.mp (List.mem_cons.not.mp continues)
      obtain ⟨sparesFirst, sparesRest⟩ := List.forall_mem_cons.mp spares
      obtain ⟨next, nextStores, changes⟩ :=
        plain.exists_changes stores noneLeaves (Ne.symm notFirst)
      obtain ⟨stepped, hooks_eq⟩ :=
        heard.step (plain.keyed id entry stores) waits alone changes
      have stillAlone := plain.tellsAlone_act_of_spares alone sparesFirst
      obtain ⟨later, final⟩ :=
        inductionHypothesis stepped (plain.act action) nextStores
          (hooks_eq ▸ waits) stillAlone sparesRest staysLater notRest
      refine ⟨later, ?_⟩
      unfold Engine.marks
      rw [← List.append_assoc (List.replicate _ _), ← List.append_assoc]
      exact final

end Heard

/-! ## The schedule -/

/-- An entry whose sending is stopped is not handed out. -/
theorem Follows.handOutOf_eq_nil
    {config : PoolConfig}
    {fresh : PoolEntry}
    {outs : List (Timestamp × Message)}
    (follows : Follows config fresh outs true engine.now entry)
    (changes : engine.Changes action id entry later) :
    engine.handOutOf id action = [] := by
  cases changes with
  | kept unpicked _ _ => exact handOutOf_of_ne unpicked
  | suppressed unpicked _ _ => exact handOutOf_of_ne (unpicked ▸ fun _ => nofun)
  | resendScheduled _ unpicked _ _ => exact handOutOf_of_ne unpicked
  | handedOut decided _ _ _ =>
      cases PoolEntry.decides_of_eq decided with
      | handOut _ needed _ _ _ =>
          rw [follows.needsSend_eq] at needed
          cases needed

/-- An entry is given up when its hand-outs allow it. -/
theorem Follows.ends_of_leaving
    {config : PoolConfig}
    {fresh : PoolEntry}
    {outs : List (Timestamp × Message)}
    {stopped : Bool}
    (follows : Follows config fresh outs stopped engine.now entry)
    (plain : engine.IsPlain)
    (config_eq : engine.pool.config = config)
    (stores : engine.pool.entries.Stores id entry)
    {left : PoolEntry × Departure}
    (member : left ∈ engine.leaving action)
    (isId : left.1.message.id = id)
    {reason : FailureReason}
    (isFailed : left.2 = .failed reason) :
    config.Ends fresh outs stopped engine.now reason := by
  have isLoss := mem_losses_of_failed member isFailed
  cases action with
  | enqueue message hooks =>
      obtain ⟨_, _, same⟩ := List.mem_map.mp isLoss
      cases same
      exact ⟨nofun, nofun, nofun⟩
  | next =>
      cases plain.sound.visit plain.keyed stores engine.now with
      | givenUp given decided lost _ _ =>
          have leaves := @mem_leaving_of_loss engine .next (entry, given) lost
          have same := plain.eq_of_leaving leaves member
            ((plain.keyed id entry stores).trans isId.symm)
          rw [← same] at isFailed
          cases isFailed
          rw [config_eq] at decided
          exact follows.ends decided
      | leftAlone _ notLost _ _ => exact absurd isId (notLost _ isLoss)
      | handedOut _ _ notLost _ _ => exact absurd isId (notLost _ isLoss)
      | resendScheduled _ _ notLost _ _ => exact absurd isId (notLost _ isLoss)
  | _ => cases isLoss

/-- A message that is queued is stored, and has not been handed out yet. -/
theorem IsPlain.follows_enqueue
    (plain : engine.IsPlain)
    (message : Message)
    (hooks : Hooks) :
    (engine.act (.enqueue message hooks)).pool.entries.Stores message.id
        (.create engine.now message hooks) ∧
      Follows engine.pool.config (.create engine.now message hooks) [] false
        (engine.act (.enqueue message hooks)).now
          (.create engine.now message hooks) := by
  rw [act_eq, (giveUpAll_windsDown _ _).now_eq, (plain.staged _).giveUpAll_entries]
  exact ⟨Pool.stores_enqueue_self,
    .create engine.pool.config engine.now message hooks⟩

theorem exists_leaving_of_departure?
    {way : Departure}
    (leaves : engine.departure? id [action] = some way) :
    ∃ left ∈ engine.leaving action, left.1.message.id = id ∧ left.2 = way := by
  rcases engine.departure?_cons id action [] with
    ⟨left, member, isId, first⟩ | ⟨_, stays⟩
  · rw [first] at leaves
    cases leaves
    exact ⟨left, member, isId, rfl⟩
  · rw [stays] at leaves
    cases leaves

end Engine

end Coap
