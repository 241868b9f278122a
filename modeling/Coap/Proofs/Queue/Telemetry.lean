import Mathlib.Tactic.Common
import Coap.Proofs.Pool.Queue
import Coap.Proofs.Queue.Counting
import Coap.Proofs.Queue.Operations

namespace Coap

/-!
# Telemetry along a run of the pool

Along a run that is too short for anything to be forgotten, the telemetry of a token
is what was counted, and so is what comes with a failure.
-/

namespace Event

/-- The event tells of a failure. -/
def isFailure : Event → Bool
  | .failed _ _ => true
  | _ => false

end Event

namespace Engine

variable {engine before middle after : Engine} {past : List Deed}
variable {notices others : List Event}

/-! ## What is told -/

/--
Whoever is told failures from one engine to the next is told some
of `notices`, in order.
-/
def Notifies
    (notices : List Event)
    (before after : Engine) :
    Prop :=
  ∃ told, after.events = before.events ++ told ∧
    (told.filter Event.isFailure).Sublist notices

namespace Notifies

theorem of_silent
    (silent : after.events = before.events) :
    Notifies notices before after :=
  ⟨[], by rw [silent, List.append_nil], List.nil_sublist _⟩

theorem mono
    (notifies : Notifies notices before after)
    (among : notices.Sublist others) :
    Notifies others before after := by
  obtain ⟨told, events_eq, listed⟩ := notifies
  exact ⟨told, events_eq, listed.trans among⟩

theorem trans
    (first : Notifies notices before middle)
    (second : Notifies others middle after) :
    Notifies (notices ++ others) before after := by
  obtain ⟨told, events_eq, listed⟩ := first
  obtain ⟨later, laterEvents_eq, laterListed⟩ := second
  refine ⟨told ++ later, by rw [laterEvents_eq, events_eq, List.append_assoc], ?_⟩
  rw [List.filter_append]
  exact listed.append laterListed

end Notifies

theorem tellFailure_notifies
    (engine : Engine)
    (handler : ResponseHandler)
    (failure : Failure) :
    (engine.tellFailure handler failure).pool = engine.pool ∧
      Notifies [.failed handler.who failure] engine
        (engine.tellFailure handler failure) := by
  have told (engine : Engine) : Notifies [.failed handler.who failure] engine
      (engine.tell (.failed handler.who failure)) :=
    ⟨_, rfl, List.Sublist.refl _⟩
  unfold tellFailure tellOutcome
  split
  · exact ⟨rfl, told engine⟩
  · split
    · exact ⟨rfl, .of_silent rfl⟩
    · exact ⟨rfl, told _⟩

/--
What the handler of an entry that leaves is to be told, with what
has been counted by then.
-/
def noticesOf
    (past : List Deed)
    (left : PoolEntry × Departure) :
    List Event :=
  match left.2 with
  | .failed reason =>
      left.1.hooks.response.toList.map fun handler =>
        .failed handler.who
          { reason := reason
            delivery := Deed.tally left.1.message.key past }
  | .drained text =>
      left.1.hooks.response.toList.map fun handler =>
        .failed handler.who { reason := .stopped text }
  | _ => []

/-- A failure comes with what has been counted under the token. -/
theorem tellFailureOf_notifies
    (tallies : engine.pool.Tallies engine.now past)
    (entry : PoolEntry)
    (reason : FailureReason) :
    (engine.tellFailureOf entry.hooks.response entry.message.key
      reason).pool.Tallies engine.now
        past ∧
      Notifies (noticesOf past (entry, .failed reason)) engine
        (engine.tellFailureOf entry.hooks.response entry.message.key reason) := by
  unfold tellFailureOf noticesOf
  cases entry.hooks.response with
  | none => exact ⟨tallies, .of_silent rfl⟩
  | some handler =>
      have read := tallies.with_delivery (tallies.delivery.get entry.message.key)
      have known : (engine.deliveryOf entry.message.key).1 =
          Deed.tally entry.message.key past :=
        tallies.delivery.get_fst entry.message.key
      dsimp only
      rw [known]
      obtain ⟨pool_eq, told⟩ :=
        (engine.deliveryOf entry.message.key).2.tellFailure_notifies handler
          { reason := reason
            delivery := Deed.tally entry.message.key past }
      refine ⟨?_, told⟩
      rw [pool_eq]
      exact read

theorem IsPlain.giveUp_notifies
    (plain : engine.IsPlain)
    (tallies : engine.pool.Tallies engine.now past)
    (entry : PoolEntry)
    (reason : FailureReason) :
    (engine.giveUp entry reason).pool.Tallies engine.now past ∧
      Notifies (noticesOf past (entry, .failed reason)) engine
        (engine.giveUp entry reason) := by
  unfold giveUp
  rw [plain.raiseLoss_eq]
  have raised : Notifies [] engine
      { engine with
        acks := engine.acks.erase entry.message.id
        events := engine.events ++ engine.lossCalls entry.message.id reason } := by
    refine ⟨_, rfl, ?_⟩
    unfold lossCalls
    split <;> exact List.Sublist.refl []
  obtain ⟨stillTallies, told⟩ := @tellFailureOf_notifies
    { engine with
      acks := engine.acks.erase entry.message.id
      events := engine.events ++ engine.lossCalls entry.message.id reason }
    past tallies entry reason
  exact ⟨stillTallies, raised.trans told⟩

theorem IsPlain.giveUpAll_notifies
    (plain : engine.IsPlain)
    (tallies : engine.pool.Tallies engine.now past)
    (failures : List (PoolEntry × FailureReason)) :
    (engine.giveUpAll failures).pool.Tallies engine.now past ∧
      Notifies (failures.flatMap fun lost =>
        noticesOf past (lost.1, .failed lost.2)) engine
        (engine.giveUpAll failures) := by
  induction failures generalizing engine with
  | nil => exact ⟨tallies, .of_silent rfl⟩
  | cons first rest inductionHypothesis =>
      have winds := engine.giveUp_windsDown first.1 first.2
      obtain ⟨stillTallies, told⟩ := plain.giveUp_notifies tallies first.1 first.2
      rw [← winds.now_eq] at stillTallies
      obtain ⟨talliesLater, toldLater⟩ :=
        inductionHypothesis (plain.of_windsDown winds) stillTallies
      rw [winds.now_eq] at talliesLater
      exact ⟨talliesLater, told.trans toldLater⟩

theorem tellAllStopped_notifies
    (engine : Engine)
    (text : String)
    (entries : List PoolEntry) :
    Notifies (entries.flatMap fun entry =>
      noticesOf past (entry, .drained text)) engine
      (entries.foldl (tellStopped text) engine) := by
  induction entries generalizing engine with
  | nil => exact .of_silent rfl
  | cons first rest inductionHypothesis =>
      have told : Notifies (noticesOf past (first, .drained text)) engine
          (tellStopped text engine first) := by
        unfold tellStopped noticesOf
        cases first.hooks.response with
        | none => exact .of_silent rfl
        | some handler =>
            exact (engine.tellFailure_notifies handler
              { reason := .stopped text }).2
      exact told.trans (inductionHypothesis (tellStopped text engine first))

/-! ## Actions -/

/-- What telemetry takes note of in an action. -/
def deedsOf
    (engine : Engine) :
    PoolAction →
    List Deed
  | .queue (.enqueue message _) => [.started message.id]
  | .queue (.requeue id) => [.started id]
  | .queue .next => engine.next.1.toList.map .handedOut
  | .queue (.recordTransfer token report) => [.recorded token report]
  | _ => []

/--
The entries that leave the pool with an action, if anyone may be told of that.
-/
def parting
    (engine : Engine) :
    PoolAction →
    List (PoolEntry × Departure)
  | .queue action => engine.leaving action
  | _ => []

/--
The losses of an action are told with what has been counted once it is staged.
-/
theorem IsPlain.act_notifies
    (plain : engine.IsPlain)
    {action : QueueAction}
    (tallies : (engine.staged action).pool.Tallies (engine.staged action).now past)
    (quiet : Notifies [] engine (engine.staged action)) :
    (engine.act action).pool.Tallies (engine.act action).now past ∧
      Notifies ((engine.leaving action).flatMap (noticesOf past)) engine
        (engine.act action) := by
  have winds := giveUpAll_windsDown (engine.staged action) (engine.losses action)
  obtain ⟨stillTallies, told⟩ := (plain.staged action).giveUpAll_notifies tallies
    (engine.losses action)
  rw [act_eq, winds.now_eq]
  refine ⟨stillTallies, (quiet.trans told).mono ?_⟩
  unfold leaving
  rw [List.nil_append, List.flatMap_append, List.flatMap_map]
  exact List.sublist_append_right _ _

/--
An action counts what it does, and tells of failures with what has
been counted by then.
-/
theorem IsPlain.act_counts
    (plain : engine.IsPlain)
    (tallies : engine.pool.Tallies engine.now past)
    (action : QueueAction)
    (early : engine.now.nanos + (PoolAction.queue action).duration <
      Pool.deliveryRetention) :
    (engine.act action).pool.Tallies (engine.act action).now
        (engine.deedsOf (.queue action) ++ past) ∧
      Notifies ((engine.leaving action).flatMap
          (noticesOf (engine.deedsOf (.queue action) ++ past)))
        engine (engine.act action) := by
  cases action with
  | register id who => exact ⟨tallies, .of_silent rfl⟩
  | unregister id => exact ⟨tallies, .of_silent rfl⟩
  | requeue id => exact ⟨tallies.requeue id, .of_silent rfl⟩
  | suppress message =>
      exact ⟨tallies.of_keepsCounts
        (engine.pool.adjust_keepsCounts _ _ fun _ => ⟨rfl, rfl⟩), .of_silent rfl⟩
  | take id =>
      exact ⟨tallies.of_keepsCounts
        (engine.pool.discard_keepsCounts id), .of_silent rfl⟩
  | remove message =>
      exact ⟨tallies.of_keepsCounts
        (engine.pool.discard_keepsCounts message.id), .of_silent rfl⟩
  | takeByToken token =>
      exact ⟨tallies.of_keepsCounts
        (engine.pool.takeByToken_keepsCounts token), .of_silent rfl⟩
  | get id =>
      exact ⟨tallies.of_keepsCounts
        (engine.pool.get_keepsCounts _ id), .of_silent rfl⟩
  | recordTransfer token report =>
      exact ⟨tallies.recordTransfer token report, .of_silent rfl⟩
  | advance length => exact ⟨tallies.wait early, .of_silent rfl⟩
  | drain text =>
      have emptied := tallies.of_keepsCounts engine.pool.drain_keepsCounts
      have told := @tellAllStopped_notifies past
        { engine with pool := engine.pool.drain.2 } text
        engine.pool.drain.1
      have now_eq : (engine.drainPool text).now = engine.now :=
        (engine.drainPool_windsDown text).now_eq
      unfold Engine.act leaving taking losses
      dsimp only
      rw [now_eq, drainPool_eq, tellAllStopped_entries, List.map_nil,
        List.append_nil, List.flatMap_map]
      exact ⟨emptied, told⟩
  | enqueue message hooks =>
      exact plain.act_notifies (tallies.enqueue message hooks) (.of_silent rfl)
  | next =>
      obtain ⟨told, scanned_eq, areResends, _⟩ := plain.scanned_eq
      have quiet : Notifies [] engine engine.scanned := by
        refine ⟨told, by rw [scanned_eq], ?_⟩
        rw [List.filter_eq_nil_iff.mpr fun event isTold => ?_]
        obtain ⟨who, rfl⟩ := areResends event isTold
        exact Bool.false_ne_true
      have scanned : engine.scanned.pool.Tallies engine.scanned.now
          (engine.deedsOf (.queue .next) ++ past) := by
        rw [scanned_eq]
        exact tallies.scan
      exact plain.act_notifies scanned quiet

theorem IsPlain.operate_counts
    (plain : engine.IsPlain)
    (tallies : engine.pool.Tallies engine.now past)
    (action : PoolAction)
    (early : engine.now.nanos + action.duration < Pool.deliveryRetention) :
    (engine.operate action).pool.Tallies (engine.operate action).now
        (engine.deedsOf action ++ past) ∧
      Notifies ((engine.parting action).flatMap
        (noticesOf (engine.deedsOf action ++ past)))
        engine (engine.operate action) := by
  cases action with
  | queue action => exact plain.act_counts tallies action early
  | readDelivery token =>
      exact ⟨tallies.with_delivery (tallies.delivery.get token), .of_silent rfl⟩
  | purgeDelivery =>
      exact ⟨tallies.with_delivery tallies.delivery.purge, .of_silent rfl⟩
  | releaseUnconfirmed message =>
      exact ⟨tallies.of_keepsCounts
        (engine.pool.releaseUnconfirmed_keepsCounts message), .of_silent rfl⟩

/-! ## Runs -/

/-- What was done in a run, the latest first. -/
def history
    (engine : Engine) :
    List PoolAction →
    List Deed
  | [] => []
  | action :: rest => (engine.operate action).history rest ++ engine.deedsOf action

theorem history_concat
    (engine : Engine)
    (actions : List PoolAction)
    (last : PoolAction) :
    engine.history (actions ++ [last]) =
      (engine.operateAll actions).deedsOf last ++ engine.history actions := by
  induction actions generalizing engine with
  | nil => exact (List.append_nil _).symm
  | cons action rest inductionHypothesis =>
      rw [List.cons_append, history, inductionHypothesis, history,
        List.append_assoc]
      rfl

theorem IsPlain.operateAll_counts
    (plain : engine.IsPlain)
    (tallies : engine.pool.Tallies engine.now past)
    (actions : List PoolAction)
    (early : engine.now.nanos + PoolAction.elapsed actions <
      Pool.deliveryRetention) :
    (engine.operateAll actions).pool.Tallies (engine.operateAll actions).now
      (engine.history actions ++ past) := by
  induction actions generalizing engine past with
  | nil => exact tallies
  | cons action rest inductionHypothesis =>
      have now_eq := plain.now_operate action
      rw [PoolAction.elapsed_cons] at early
      have first := (plain.operate_counts tallies action (by omega)).1
      have others := inductionHypothesis (plain.operate action) first (by omega)
      unfold history
      rw [List.append_assoc]
      exact others

/-- A run too short for telemetry to be forgotten has counted what it did. -/
theorem tallies_run
    (poolConfig : PoolConfig)
    (arqConfig : ArqConfig)
    (nextId : MessageId)
    (actions : List PoolAction)
    (brief : PoolAction.elapsed actions < Pool.deliveryRetention) :
    let start := create poolConfig arqConfig nextId
    (start.operateAll actions).pool.Tallies (start.operateAll actions).now
      (start.history actions) := by
  intro start
  have fresh : start.pool.Tallies start.now [] := .empty poolConfig
  have tallies :=
    (isPlain_create poolConfig arqConfig nextId).operateAll_counts fresh actions (by
      change (0 : Int) + _ < _
      omega)
  rw [List.append_nil] at tallies
  exact tallies

/--
In a run too short for telemetry to be forgotten, the telemetry of a token is what
the run did under it: how many of its messages were handed out through a proxy and
how many directly, how many of these hand-outs were not the first since their
message was queued or started again, and the report recorded last. The counters have
32 bits; for fewer hand-outs than they can count they are exact, and there are no
more retransmits than hand-outs. Whenever an action tells of failures, they are
those of the entries that leave with it, and each comes with what has been counted
under its token by then, the message that the same action hands out included.
-/
theorem telemetry_counts_hand_outs
    (poolConfig : PoolConfig)
    (arqConfig : ArqConfig)
    (nextId : MessageId)
    (actions : List PoolAction)
    (brief : PoolAction.elapsed actions < Pool.deliveryRetention) :
    let start := create poolConfig arqConfig nextId
    let final := start.operateAll actions
    let past := start.history actions
    (∀ token, (final.deliveryOf token).1 = Deed.tally token past) ∧
    (∀ token delivery, (final.deliveryOf token).1 = some delivery →
      Deed.handOuts token true past + Deed.handOuts token false past < 2 ^ 32 →
        delivery.viaProxy.toNat = Deed.handOuts token true past ∧
          delivery.direct.toNat = Deed.handOuts token false past ∧
            delivery.retransmits.toNat = Deed.retransmits token past ∧
              delivery.retransmits ≤ delivery.attempts) ∧
    ∀ early action late, actions = early ++ action :: late →
      let before := start.operateAll early
      Notifies
        ((before.parting action).flatMap
          (noticesOf (start.history (early ++ [action]))))
        before (before.operate action) := by
  intro start final past
  have plain : start.IsPlain := isPlain_create poolConfig arqConfig nextId
  have counted := tallies_run poolConfig arqConfig nextId
  have known (token : TokenKey) :
      (final.deliveryOf token).1 = Deed.tally token past :=
    (counted actions brief).delivery.get_fst token
  refine ⟨known, fun token delivery isKnown few => ?_, ?_⟩
  · rw [known] at isKnown
    exact Deed.exact_of_tally isKnown few
  · intro early action late split before
    rw [split, PoolAction.elapsed_append, PoolAction.elapsed_cons] at brief
    have now_eq : (start.operateAll early).now.nanos =
        0 + PoolAction.elapsed early :=
      plain.now_operateAll early
    have told :=
      ((plain.operateAll early).operate_counts (counted early (by omega)) action
        (by omega)).2
    rw [history_concat]
    exact told

/--
A message is handed out twice through a proxy, and given up when it has grown too
old: the second hand-out was a retransmit, and the failure says so.
-/
theorem telemetry_counts_hand_outs_proxied :
    let message : Message :=
      { id := 7, kind := .confirmable, code := .get, token := some ⟨[7]⟩
        proxy := some (.v4 10 0 0 1 5683) }
    let asker : ResponseHandler := { who := .observer "asker" }
    let actions := [PoolAction.queue (.enqueue message { response := some asker }),
      .queue .next, .queue (.advance (Nanos.ofMillis 750)), .queue .next,
      .queue .next, .queue (.advance (Nanos.ofSecs 60)), .queue .next]
    let delivery : Delivery := { retransmits := 1, viaProxy := 2 }
    let final := (create {} {} 100).operateAll actions
    (final.deliveryOf message.key).1 = some delivery ∧
      final.events =
        [.failed (.observer "asker")
          { reason := .expired, delivery := some delivery }] := by
  intro message asker actions delivery final
  obtain ⟨known, _, _⟩ := telemetry_counts_hand_outs {} {} 100 actions (by decide)
  exact ⟨(known message.key).trans (by decide), by decide⟩

/-! ## A message that is sent again and again -/

/-- The message is alone in the queue, and was handed out just now. -/
structure HandsOutAlone
    (engine : Engine)
    (message : Message) :
    Prop where
  patient : engine.pool.config.IsPatient
  alone : ∃ named,
    engine.pool.Holds engine.now message.key
      [(PoolEntry.create engine.now message {}).handedOut engine.now] named

/--
The exchange of a message starts again and the message is handed
out, time after time.
-/
def again
    (id : MessageId)
    (times : Nat) :
    List PoolAction :=
  (List.replicate times [.queue (.requeue id), .queue .next]).flatten

theorem elapsed_again
    (id : MessageId)
    (times : Nat) :
    PoolAction.elapsed (again id times) = 0 := by
  induction times with
  | zero => rfl
  | succ times inductionHypothesis =>
      rw [again, List.replicate_succ, List.flatten_cons, PoolAction.elapsed_append]
      exact (Nat.zero_add _).trans inductionHypothesis

variable {message : Message}

/-- A scan that hands out the only message. -/
theorem handsOutAlone_of_scan
    {pool : Pool}
    {named : Option MessageId}
    (scanned : engine.pool.scan engine.now =
      { picked := some message, pool := pool })
    (patient : pool.config.IsPatient)
    (holds : pool.Holds engine.now message.key
      [(PoolEntry.create engine.now message {}).handedOut engine.now] named) :
    engine.next.1 = some message ∧ engine.next.2.HandsOutAlone message := by
  have next_eq : engine.next = (some message, engine.afterScan) := by
    unfold next
    rw [scanned]
    rfl
  have pool_eq : engine.afterScan.pool = pool := congrArg PoolScan.pool scanned
  rw [next_eq]
  refine ⟨rfl, ?_, named, ?_⟩
  · rw [pool_eq]
    exact patient
  · rw [pool_eq]
    exact holds

/-- Once more, the message is handed out. -/
theorem HandsOutAlone.next_requeue
    (handsOut : engine.HandsOutAlone message) :
    (engine.requeue message.id).next.1 = some message ∧
      (engine.requeue message.id).next.2.HandsOutAlone message := by
  obtain ⟨patient, named, holds⟩ := handsOut
  have due := @PoolEntry.decision_restarted _ engine.now patient message {}
  obtain ⟨pool, scanned, config_eq, holdsLater⟩ :=
    @Pool.Holds.scan_of_due _ _ _ [] [] _ _ holds.requeue_of_single
      (List.forall_mem_nil _) due
  exact handsOutAlone_of_scan scanned (config_eq ▸ patient) holdsLater

/-- A message that starts again and is handed out has one hand-out more. -/
theorem handOuts_of_handedOut
    (message : Message)
    (id : MessageId)
    (past : List Deed) :
    Deed.handOuts message.key message.proxy.isSome
      (past ++ [.handedOut message] ++ [.started id]) =
      Deed.handOuts message.key message.proxy.isSome past + 1 := by
  unfold Deed.handOuts
  rw [List.countP_append, List.countP_append]
  simp

/-- Every time the message is handed out once. -/
theorem HandsOutAlone.handOuts_again
    (handsOut : engine.HandsOutAlone message)
    (times : Nat) :
    Deed.handOuts message.key message.proxy.isSome
      (engine.history (again message.id times)) =
      times := by
  induction times generalizing engine with
  | zero => rfl
  | succ times inductionHypothesis =>
      obtain ⟨picked, handsOutLater⟩ := handsOut.next_requeue
      have deeds_eq : engine.history (again message.id (times + 1)) =
          (engine.requeue message.id).next.2.history (again message.id times) ++
            [.handedOut message] ++ [.started message.id] := by
        change _ ++ (engine.requeue message.id).next.1.toList.map
          Deed.handedOut ++ _ = _
        rw [picked]
        rfl
      rw [deeds_eq, handOuts_of_handedOut, inductionHypothesis handsOutLater]

/-- A message that has just been queued is handed out. -/
theorem handsOutAlone_next_enqueue
    {poolConfig : PoolConfig}
    (patient : poolConfig.IsPatient)
    (room : 0 < poolConfig.capacity)
    (spans : poolConfig.Spans message)
    (arqConfig : ArqConfig)
    (nextId : MessageId) :
    let queued := (create poolConfig arqConfig nextId).enqueue message {}
    queued.next.1 = some message ∧ queued.next.2.HandsOutAlone message := by
  intro queued
  obtain ⟨pool, enqueued, config_eq, holds⟩ :=
    (Pool.holds_empty poolConfig Timestamp.start message.key).enqueue rfl spans
      List.not_mem_nil room {}
  have queued_eq :
      queued = { create poolConfig arqConfig nextId with pool := pool } := by
    unfold queued Engine.enqueue
    rw [show (create poolConfig arqConfig nextId).pool.enqueue
      (create poolConfig arqConfig nextId).now message {} = _ from enqueued]
  have patientNow : pool.config.IsPatient := config_eq ▸ patient
  obtain ⟨later, scanned, later_eq, holdsLater⟩ :=
    @Pool.Holds.scan_of_due _ _ _ [] [] _ _ holds (List.forall_mem_nil _)
      (PoolEntry.decision_create patientNow message {})
  rw [queued_eq]
  exact handsOutAlone_of_scan scanned (later_eq ▸ patientNow) holdsLater

/-- What is counted of a message that is sent again and again. -/
theorem direct_again
    {poolConfig : PoolConfig}
    (patient : poolConfig.IsPatient)
    (room : 0 < poolConfig.capacity)
    (spans : poolConfig.Spans message)
    (arqConfig : ArqConfig)
    (nextId : MessageId)
    (unproxied : message.proxy = none)
    (times : Nat) :
    let start := create poolConfig arqConfig nextId
    let actions :=
      .queue (.enqueue message {}) :: .queue .next :: again message.id times
    PoolAction.elapsed actions = 0 ∧
      Deed.handOuts message.key false (start.history actions) = times + 1 ∧
      ((start.operateAll actions).deliveryOf message.key).1.map Delivery.direct =
        some (UInt32.ofNat (times + 1)) := by
  intro start actions
  obtain ⟨picked, handsOut⟩ :=
    handsOutAlone_next_enqueue patient room spans arqConfig nextId
  have brief : PoolAction.elapsed actions = 0 := by
    rw [PoolAction.elapsed_cons, PoolAction.elapsed_cons, elapsed_again]
    rfl
  have deeds_eq : start.history actions =
      (start.enqueue message {}).next.2.history (again message.id times) ++
        [.handedOut message] ++ [.started message.id] := by
    change _ ++ (start.enqueue message {}).next.1.toList.map Deed.handedOut ++ _ = _
    rw [picked]
    rfl
  have counted : Deed.handOuts message.key false (start.history actions) =
      times + 1 := by
    have isDirect : message.proxy.isSome = false := by
      rw [unproxied]
      rfl
    rw [← isDirect, deeds_eq, handOuts_of_handedOut, handsOut.handOuts_again]
  have known : ((start.operateAll actions).deliveryOf message.key).1 = _ :=
    (tallies_run poolConfig arqConfig nextId actions (by
      rw [brief]
      decide)).delivery.get_fst message.key
  refine ⟨brief, counted, ?_⟩
  have isTallied : (start.history actions).any
      (fun deed => deed.token? = some message.key) = true := by
    rw [deeds_eq]
    simp [Deed.token?]
  rw [known, Deed.tally, if_pos isTallied, Option.map_some, Deed.counts, counted]

/--
The counters wrap around: after 2 ^ 32 hand-outs none is counted. And a failure that
is told while another message is handed out under the same token already counts that
hand-out, so that it comes with two where only one had been before.
-/
theorem hand_outs_wrap_around_and_count_ahead :
    let first : Message :=
      { id := 7, kind := .confirmable, code := .get, token := some ⟨[7]⟩ }
    let second : Message := { first with id := 8 }
    let asker : ResponseHandler := { who := .observer "asker" }
    let start := create {} {} 100
    let often := .queue (.enqueue first {}) :: .queue .next :: again 7 (2 ^ 32 - 1)
    let once :=
      [PoolAction.queue (.enqueue first { response := some asker }), .queue .next,
        .queue (.advance (Nanos.ofSecs 60)), .queue (.enqueue second {})]
    (PoolAction.elapsed often < Pool.deliveryRetention ∧
      Deed.handOuts first.key false (start.history often) = 2 ^ 32 ∧
      ((start.operateAll often).deliveryOf first.key).1.map
        Delivery.direct = some 0) ∧
    ((start.operateAll once).deliveryOf first.key).1 = some { direct := 1 } ∧
      ((start.operateAll once).operate (.queue .next)).events =
        [.failed (.observer "asker")
          { reason := .expired, delivery := some { direct := 2 } }] := by
  intro first second asker start often once
  obtain ⟨brief, counted, direct_eq⟩ := @direct_again first {}
    ⟨by decide, by decide, by decide, by decide⟩ (by decide)
      (fun long => nomatch long)
    {} 100 rfl (2 ^ 32 - 1)
  refine ⟨⟨?_, counted, direct_eq⟩, by decide, by decide⟩
  rw [show PoolAction.elapsed often = 0 from brief]
  decide

end Engine

end Coap
