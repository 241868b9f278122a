import Mathlib.Tactic.Common
import Coap.Proofs.Cache.Stores
import Coap.Proofs.Engine.Inbound
import Coap.Proofs.Wire.RoundTrip

namespace Coap.Engine

/-!
# Taking in a block

A fragment goes to the inbound transfer of its token, which is opened if there is
none. All that counts for the outcome is the state that the transfer comes to with
the block: if it is complete, it is handed out and nothing is left of it; otherwise
it is kept. Where transfers are forgotten at once, none is ever complete.
-/

/--
The block that a message brings in, if the block-wise stage takes it as a fragment.
-/
def fragmentBlock? (message : Message) : Option Block :=
  if (message.uint? .windowSize).isSome && message.kind ==
    .confirmable && message.token.isSome &&
      message.payload.isSome then
    (blockOption? message).bind fun option => (blockOf message option).toOption
  else none

/-- The inbound transfer that a fragment goes to. -/
def inProgress
    (engine : Engine)
    (message : Message) :
    ReceiveState :=
  (engine.incoming.peek? engine.now message.key).getD (.start engine.now message)

/-- The inbound transfer that a fragment goes to, with its block. -/
def gathered
    (engine : Engine)
    (message : Message)
    (block : Block) :
    ReceiveState :=
  (engine.inProgress message).accept engine.now block message.code

variable {engine : Engine} {message : Message} {block : Block}

/-- A fragment is taken in as one. -/
theorem blockwiseReceive_of_fragment
    (brings : fragmentBlock? message = some block) :
    ∃ option window, ∀ (engine : Engine) (cell : Option SocketAddress),
      engine.blockwiseReceive message cell =
        engine.onFragment message cell option block window := by
  unfold fragmentBlock? at brings
  split at brings
  · next isFragment =>
      simp only [Bool.and_eq_true, beq_iff_eq] at isFragment
      obtain ⟨⟨⟨windowed, confirmable⟩, tokened⟩, filled⟩ := isFragment
      obtain ⟨window, isWindow⟩ := Option.isSome_iff_exists.mp windowed
      obtain ⟨option, isOption, isBlock⟩ := Option.bind_eq_some_iff.mp brings
      have block_eq : blockOf message option = .ok block := by
        cases read : blockOf message option with
        | error cause => rw [read] at isBlock; cases isBlock
        | ok other => rw [read] at isBlock; cases isBlock; rfl
      have quiet : announcesTransfer message = false := by
        unfold announcesTransfer
        rw [isOption, Option.isNone_some, Bool.and_false]
      refine ⟨option, window, fun engine cell => ?_⟩
      unfold blockwiseReceive onBlock
      simp only [isWindow, quiet, isOption, Option.isNone_eq_false_iff.mpr tokened,
        Bool.false_eq_true, ↓reduceIte, block_eq, confirmable,
        Option.isNone_eq_false_iff.mpr filled]
  · cases brings

/-- The transfer that a fragment goes to is open and has been touched just now. -/
theorem exists_openIncoming
    (engine : Engine)
    (message : Message) :
    ∃ incoming stamp,
      engine.openIncoming message = { engine with incoming := incoming } ∧
        incoming.idle = engine.incoming.idle ∧
        incoming.entries.find? message.key =
          some ⟨engine.inProgress message, engine.now, stamp⟩ ∧
        ∀ token state, token ≠ message.key →
          incoming.Stores token state → engine.incoming.Stores token state := by
  have looked : (engine.incoming.get engine.now message.key).1 =
      engine.incoming.peek? engine.now message.key :=
    Cache.get_fst
  cases pair : engine.incoming.get engine.now message.key with
  | mk value passed =>
      have kept (token : TokenKey) (state : ReceiveState)
          (stores : passed.Stores token state) :
          engine.incoming.Stores token state := by
        have after :
            (engine.incoming.get engine.now message.key).2.Stores token state := by
          rwa [pair]
        exact after.of_get
      have idle_eq : (engine.incoming.get engine.now message.key).2.idle =
          engine.incoming.idle :=
        Cache.get_bounds.2
      rw [pair] at looked idle_eq
      unfold openIncoming inProgress
      rw [← looked, pair]
      cases value with
      | some state =>
          obtain ⟨stamp, touched⟩ := Cache.find?_get looked.symm
          rw [pair] at touched
          exact ⟨passed, stamp, rfl, idle_eq, touched,
            fun token state _ => kept token state⟩
      | none =>
          have inserted : ∃ stamp, (passed.insert engine.now message.key
              (.start engine.now message)).2.entries.find? message.key =
                some ⟨.start engine.now message, engine.now, stamp⟩ :=
            Cache.find?_insert
          obtain ⟨stamp, touched⟩ := inserted
          refine ⟨_, stamp, rfl, Cache.insert_bounds.2.trans idle_eq, touched,
            fun token state different stores => ?_⟩
          rcases stores.of_insert with ⟨same, _⟩ | before
          · exact absurd same different
          · exact kept token state before

/-- Whether a block completes its transfer. -/
def completes
    (engine : Engine)
    (message : Message)
    (block : Block) :
    Bool :=
  decide (engine.incoming.idle ≠ some 0) &&
    (engine.gathered message block).isCompleted

/--
The transfer that a block is kept in, unless it completes it or is lost at once.
-/
def kept?
    (engine : Engine)
    (message : Message)
    (block : Block) :
    Option ReceiveState :=
  if engine.incoming.idle = some 0 ∨
      (engine.gathered message block).isCompleted = true then none
  else some (engine.gathered message block)

theorem kept?_eq_some
    {state : ReceiveState}
    (isKept : engine.kept? message block = some state) :
    state = engine.gathered message block ∧ state.isCompleted = false := by
  unfold kept? at isKept
  split at isKept
  · cases isKept
  · next neither =>
      cases isKept
      exact ⟨rfl, Bool.eq_false_iff.mpr fun completed => neither (.inr completed)⟩

theorem isCompleted_of_completes
    (completing : engine.completes message block = true) :
    (engine.gathered message block).isCompleted = true :=
  (Bool.and_eq_true_iff.mp completing).2

/-- A block that completes its transfer is not kept. -/
theorem kept?_of_completes
    (completing : engine.completes message block = true) :
    engine.kept? message block = none :=
  if_pos (.inr (isCompleted_of_completes completing))

/--
Afterwards, `kept` is in progress under the token of the message,
and nothing else is new.
-/
structure Leaves
    (engine : Engine)
    (message : Message)
    (kept : Option ReceiveState)
    (incoming : Cache TokenKey ReceiveState) :
    Prop where
  idle_eq : incoming.idle = engine.incoming.idle
  peek_eq : incoming.peek? engine.now message.key = kept
  stores : ∀ token state, incoming.Stores token state →
    token ≠ message.key ∧ engine.incoming.Stores token state ∨
      token = message.key ∧ kept = some state

/-- Removing the transfer of the token leaves nothing in progress under it. -/
theorem Leaves.erase
    {incoming : Cache TokenKey ReceiveState}
    (idle_eq : incoming.idle = engine.incoming.idle)
    (others : ∀ token state, token ≠ message.key →
      incoming.Stores token state → engine.incoming.Stores token state) :
    engine.Leaves message none (incoming.erase message.key) where
  idle_eq := (incoming.erase_bounds message.key).2.trans idle_eq
  peek_eq := Cache.peek?_erase
  stores := by
    intro token state stores
    obtain ⟨different, before⟩ := Cache.stores_erase.mp stores
    exact .inl ⟨different, others token state different before⟩

/--
Where transfers last, the state that a block leads to takes the
place of the one before.
-/
theorem Leaves.place
    {opened : Cache TokenKey ReceiveState}
    (lasting : opened.idle ≠ some 0)
    (idle_eq : opened.idle = engine.incoming.idle)
    (others : ∀ token state, token ≠ message.key →
      opened.Stores token state → engine.incoming.Stores token state)
    (order : Table Nat TokenKey)
    (state : ReceiveState) :
    engine.Leaves message (some state)
      ({ opened with order := order }.place engine.now message.key state) where
  idle_eq := idle_eq
  peek_eq := by
    have stored : ({ opened with order := order }.place engine.now message.key
        state).entries.find? message.key =
        some ⟨state, engine.now, opened.nextStamp⟩ :=
      Table.find?_put_self _ _ _
    rw [Cache.peek?_of_touched_now stored]
    exact if_neg lasting
  stores := by
    intro token other stores
    rcases Cache.stores_place.mp stores with ⟨same, state_eq⟩ | ⟨different, before⟩
    · exact .inr ⟨same, congrArg some state_eq.symm⟩
    · exact .inl ⟨different, others token other different before⟩

/--
A block completes its transfer, which is then taken out, or it is kept or lost.
-/
theorem exists_acceptBlock
    (engine : Engine)
    (message : Message)
    (block : Block) :
    ∃ incoming,
      engine.acceptBlock message block =
          (if engine.completes message block then
            some (engine.gathered message block) else none,
            { engine with incoming := incoming }) ∧
        engine.Leaves message (engine.kept? message block) incoming := by
  obtain ⟨opened, stamp, open_eq, idle_eq, touched, others⟩ :=
    engine.exists_openIncoming message
  unfold acceptBlock completes kept?
  rw [open_eq, ← idle_eq]
  dsimp only
  rw [Cache.modify_of_touched_now touched]
  by_cases atOnce : opened.idle = some 0
  · refine ⟨opened.erase message.key, ?_, ?_⟩
    · simp only [atOnce, ne_eq, not_true_eq_false, decide_false, Bool.false_and,
        ↓reduceIte, Bool.false_eq_true]
    · rw [if_pos (.inl atOnce)]
      exact .erase idle_eq others
  · have left := Leaves.place atOnce idle_eq others (opened.order.erase stamp)
      (engine.gathered message block)
    cases completed : (engine.gathered message block).isCompleted with
    | true =>
        refine ⟨({ opened with
          order := opened.order.erase stamp }.place engine.now message.key
          (engine.gathered message block)).erase message.key, ?_, ?_⟩
        · have isCompleted : ((engine.inProgress message).accept engine.now block
              message.code).isCompleted = true := completed
          simp only [atOnce, ↓reduceIte, isCompleted, ne_eq, not_false_eq_true,
            decide_true, Bool.and_self]
          rfl
        · rw [if_pos (.inr rfl)]
          refine .erase left.idle_eq fun token state different stores => ?_
          rcases left.stores token state stores with ⟨_, before⟩ | ⟨same, _⟩
          · exact before
          · exact absurd same different
    | false =>
        refine ⟨{ opened with
          order := opened.order.erase stamp }.place engine.now message.key
          (engine.gathered message block), ?_, ?_⟩
        · have unfinished : ((engine.inProgress message).accept engine.now block
              message.code).isCompleted = false := completed
          simp only [atOnce, ↓reduceIte, unfinished, Bool.and_false,
            Bool.false_eq_true]
          rfl
        · rw [if_neg fun either => either.elim atOnce Bool.false_ne_true]
          exact left

/-! ## Acknowledging it -/

/-- Sending at once changes only what has been sent and what will be refused. -/
theorem sendNow_frame
    (engine : Engine)
    (message : Message) :
    ∃ refusals sent,
      (engine.sendNow message).2 =
        { engine with
          refusals := refusals
          sent := sent } := by
  unfold sendNow transmit
  split
  · exact ⟨_, _, rfl⟩
  · dsimp only
    split
    · exact ⟨_, _, rfl⟩
    · split
      · exact ⟨_, _, rfl⟩
      · exact ⟨_, _, rfl⟩

/-- The acknowledgement that a fragment gets. -/
def ackOf
    (engine : Engine)
    (message : Message)
    (cell : Option SocketAddress)
    (option : OptionNumber)
    (block : Block)
    (window : UInt64)
    (code : Code) :
    Message :=
  { fragmentAck message cell option block window
      (engine.pool.lookup? engine.now message.key) with
    code := code }

section Acknowledge

variable {accepted : Engine} {state : ReceiveState}
variable {cell : Option SocketAddress} {option : OptionNumber} {window : UInt64}

/--
A transfer that is complete has been taken out before its last
block is acknowledged.
-/
theorem onFragment_of_taken
    (accepts : engine.acceptBlock message block = (some state, accepted)) :
    let queued := accepted.pool.lookup? accepted.now message.key
    let named := { message with id := (queued.map Message.id).getD message.id }
    let told := (accepted.recordTransfer message.key state.report).sendNow
      (accepted.ackOf message cell option block window .empty)
    engine.onFragment message cell option block window =
      match told.1 with
      | .error cause =>
          { state := told.2
            message := named
            cell := cell
            result := .error (.transmit cause) }
      | .ok _ =>
          { state := told.2
            message := assembled named (state.data?.getD [])
            cell := cell
            result := .ok .pass } := by
  intro queued named told
  unfold onFragment
  rw [accepts]
  rfl

/-- A block that is kept is acknowledged as one that others follow. -/
theorem onFragment_of_kept
    (accepts : engine.acceptBlock message block = (none, accepted)) :
    let told :=
      accepted.sendNow (accepted.ackOf message cell option block window .continued)
    engine.onFragment message cell option block window =
      match told.1 with
      | .error cause =>
          { state := told.2
            message := message
            cell := cell
            result := .error (.transmit cause) }
      | .ok _ =>
          { state := told.2
            message := message.removeOption option
            cell := cell
            result := .ok .stop } := by
  intro told
  unfold onFragment
  rw [accepts]
  rfl

/--
An attempt settles what comes in, whether or not the acknowledgement can be sent.
-/
theorem onFragment_frame
    (engine : Engine)
    (message : Message)
    (cell : Option SocketAddress)
    (option : OptionNumber)
    (block : Block)
    (window : UInt64) :
    ∃ incoming delivery refusals sent,
      (engine.onFragment message cell option block window).state =
          { engine with
            pool := { engine.pool with delivery := delivery }
            incoming := incoming
            refusals := refusals
            sent := sent } ∧
        engine.Leaves message (engine.kept? message block) incoming := by
  obtain ⟨incoming, accepts, leaves⟩ := engine.exists_acceptBlock message block
  cases completing : engine.completes message block with
  | false =>
      rw [completing] at accepts
      obtain ⟨refusals, sent, told⟩ :=
        sendNow_frame { engine with incoming := incoming }
          ({ engine with incoming := incoming }.ackOf message cell option block
            window .continued)
      refine ⟨incoming, engine.pool.delivery, refusals, sent, ?_, leaves⟩
      rw [onFragment_of_kept accepts]
      dsimp only
      split <;> exact told
  | true =>
      rw [completing] at accepts
      obtain ⟨refusals, sent, told⟩ := sendNow_frame
        ({ engine with incoming := incoming }.recordTransfer message.key
          (engine.gathered message block).report)
        ({ engine with
          incoming := incoming }.ackOf message cell option block window .empty)
      refine ⟨incoming, (engine.pool.recordTransfer engine.now message.key
        (engine.gathered message block).report).delivery, refusals,
        sent, ?_, leaves⟩
      rw [onFragment_of_taken accepts]
      dsimp only
      split <;> exact told

/-- The message that a block passes on if it completes its transfer. -/
def wholeOf
    (engine : Engine)
    (message : Message)
    (block : Block) :
    Message :=
  let queued := engine.pool.lookup? engine.now message.key
  assembled { message with id := (queued.map Message.id).getD message.id }
    ((engine.gathered message block).data?.getD [])

/-- The message has a target and can be written. -/
def CanBeSent (message : Message) : Prop :=
  message.target?.isSome ∧ ∃ bytes, Wire.encode message = .ok bytes

/-- What can be sent is sent, unless the socket refuses it. -/
theorem exists_sent_iff
    (engine : Engine)
    (message : Message) :
    (∃ sent, (engine.sendNow message).1 = .ok sent) ↔
      CanBeSent message ∧ engine.refusals = 0 := by
  unfold sendNow transmit CanBeSent
  cases message.target? with
  | none => simp
  | some target =>
      cases Wire.encode message with
      | error cause => simp [Except.map]
      | ok bytes =>
          by_cases refuses : 0 < engine.refusals
          · simp [refuses, Except.map, Nat.pos_iff_ne_zero.mp refuses]
          · simp [Except.map, Nat.eq_zero_of_not_pos refuses]

/-- Whether the acknowledgement can be sent does not depend on its code. -/
theorem canBeSent_ackOf
    (engine : Engine)
    (code other : Code) :
    CanBeSent (engine.ackOf message cell option block window code) ↔
      CanBeSent (engine.ackOf message cell option block window other) := by
  unfold CanBeSent
  rw [Wire.encode_eq_ok_iff, Wire.encode_eq_ok_iff]
  exact Iff.rfl

/-- An attempt succeeds exactly if the acknowledgement is sent. -/
theorem exists_ok_iff :
    (∃ verdict,
      (engine.onFragment message cell option block window).result = .ok verdict) ↔
      CanBeSent (engine.ackOf message cell option block window .empty) ∧
        engine.refusals = 0 := by
  obtain ⟨incoming, accepts, _⟩ := engine.exists_acceptBlock message block
  cases completing : engine.completes message block with
  | false =>
      rw [completing] at accepts
      rw [onFragment_of_kept accepts, canBeSent_ackOf engine .empty .continued]
      refine Iff.trans ?_ (exists_sent_iff { engine with incoming := incoming }
        ({ engine with
          incoming := incoming }.ackOf message cell option block window .continued))
      split
      · next sent => simp [sent]
      · next sent => simp [sent]
  | true =>
      rw [completing] at accepts
      rw [onFragment_of_taken accepts]
      refine Iff.trans ?_ (exists_sent_iff
        ({ engine with incoming := incoming }.recordTransfer message.key
          (engine.gathered message block).report)
        ({ engine with
          incoming := incoming }.ackOf message cell option block window .empty))
      dsimp only
      split
      · next sent => simp [sent]
      · next sent => simp [sent]

/--
An attempt that succeeds passes the data on if the block completes its transfer.
-/
theorem onFragment_of_ok
    {verdict : Verdict}
    (succeeds :
      (engine.onFragment message cell option block window).result = .ok verdict) :
    (verdict, (engine.onFragment message cell option block window).message) =
      if engine.completes message block then (.pass, engine.wholeOf message block)
      else (.stop, message.removeOption option) := by
  obtain ⟨incoming, accepts, _⟩ := engine.exists_acceptBlock message block
  cases completing : engine.completes message block with
  | false =>
      rw [completing] at accepts
      rw [onFragment_of_kept accepts] at succeeds ⊢
      split at succeeds
      · cases succeeds
      · cases succeeds
        rfl
  | true =>
      rw [completing] at accepts
      rw [onFragment_of_taken accepts] at succeeds ⊢
      dsimp only at succeeds ⊢
      split at succeeds
      · cases succeeds
      · cases succeeds
        rfl

/-- What passes an attempt is the whole payload, and its transfer is complete. -/
theorem onFragment_of_pass
    (passes :
      (engine.onFragment message cell option block window).result = .ok .pass) :
    engine.completes message block = true ∧
      (engine.onFragment message cell option block window).message =
        engine.wholeOf message block := by
  have outcome := onFragment_of_ok passes
  cases completing : engine.completes message block with
  | false =>
      rw [completing] at outcome
      cases (Prod.mk.inj outcome).1
  | true =>
      rw [completing] at outcome
      exact ⟨rfl, (Prod.mk.inj outcome).2⟩

end Acknowledge

end Coap.Engine
