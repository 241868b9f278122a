import Mathlib.Tactic.Common
import Coap.Proofs.Engine.Activity
import Coap.Proofs.Engine.Cut

namespace Coap.Engine

/-!
# What a transfer owns

Every fragment in the pool and every handler of a fragment belongs to a transfer
in progress, which counts it as in flight. A transfer that ends takes them all
with it. The fragments of one cut are queued one after the other, and this only
holds if none of them pushes another one out, and if a transfer is not replaced
while it is in progress.
-/

/-- The identifier belongs to a fragment of the transfer of a token. -/
def Flies
    (engine : Engine)
    (token : TokenKey)
    (id : MessageId) :
    Prop :=
  ∃ transfer, engine.outgoing.find? token = some transfer ∧ id ∈ transfer.inFlight

/-- The pool has room for some more messages. -/
def HasRoom
    (engine : Engine)
    (count : Nat) :
    Prop :=
  engine.pool.size + count ≤ engine.pool.config.capacity

instance (engine : Engine) (count : Nat) : Decidable (engine.HasRoom count) :=
  inferInstanceAs (Decidable (_ ≤ _))

theorem HasRoom.of_windsDown
    {engine later : Engine}
    {count : Nat}
    {gone : MessageId → Prop}
    (room : engine.HasRoom count)
    (winds : WindsDown gone engine later) :
    later.HasRoom count := by
  unfold HasRoom at room ⊢
  rw [winds.pool.config_eq]
  exact Nat.le_trans (Nat.add_le_add_right winds.pool.size_le count) room

/-- Fragments and their handlers belong to transfers in progress. -/
structure Owned (engine : Engine) : Prop where
  bounded : engine.pool.entries.capacity = some engine.pool.config.capacity
  keyed : engine.pool.IsKeyed
  watched : ∀ id token block,
    engine.acks.Stores id (.fragment token block) → engine.Flies token id
  queued : ∀ id entry token serial,
    engine.pool.entries.Stores id entry →
      entry.hooks.onResend = some (.transfer token serial) →
      engine.Flies token id ∧ engine.needsTransfer entry.message = false
  unhooked : ∀ token transfer,
    engine.outgoing.find? token = some transfer →
      ∀ other serial, transfer.hooks.onResend ≠ some (.transfer other serial)
  narrow : ∀ token transfer,
    engine.outgoing.find? token = some transfer →
      transfer.state.windowSize ≤ engine.arq.windowSize

namespace Owned

variable {engine later : Engine} {gone : MessageId → Prop} {token : TokenKey}

/-- A fresh engine has neither fragments nor handlers. -/
theorem create
    (poolConfig : PoolConfig)
    (arqConfig : ArqConfig)
    (nextId : MessageId) :
    (create poolConfig arqConfig nextId).Owned where
  bounded := rfl
  keyed := by
    rintro id entry ⟨slot, found, _⟩
    cases found
  watched := by
    rintro id token block ⟨slot, found, _⟩
    cases found
  queued := by
    rintro id entry token serial ⟨slot, found, _⟩
    cases found
  unhooked := by
    intro token transfer found
    cases found
  narrow := by
    intro token transfer found
    cases found

theorem of_windsDown
    (owned : engine.Owned)
    (winds : WindsDown gone engine later) :
    later.Owned := by
  -- what is left was there before, and its transfer has not ended, or it would be
  -- missing
  have stillFlies {token : TokenKey} {id : MessageId}
    (flies : engine.Flies token id)
      (present : (∃ entry, later.pool.entries.Stores id entry) ∨
        ∃ handler, later.acks.Stores id handler) :
      later.Flies token id := by
    obtain ⟨transfer, found, member⟩ := flies
    cases laterFound : later.outgoing.find? token with
    | none =>
        obtain ⟨unqueued, unwatched⟩ :=
          winds.released token transfer found laterFound id member
        rcases present with ⟨entry, stores⟩ | ⟨handler, stores⟩
        · exact absurd stores (unqueued entry)
        · exact absurd stores (unwatched handler)
    | some laterTransfer =>
        obtain ⟨earlier, earlierFound, isLike⟩ :=
          winds.outgoing token laterTransfer laterFound
        rw [found] at earlierFound
        cases earlierFound
        exact ⟨laterTransfer, laterFound, isLike.inFlight_eq ▸ member⟩
  exact
    { bounded := by
        rw [winds.pool.capacity_eq, winds.pool.config_eq]
        exact owned.bounded
      keyed := owned.keyed.of_thins winds.pool
      watched := by
        intro id token block stores
        exact stillFlies (owned.watched id token block (winds.watched id _ stores))
          (.inr ⟨_, stores⟩)
      queued := by
        intro id entry token serial stores hooked
        obtain ⟨earlier, earlierStores, isLike⟩ := winds.pool.queued id entry stores
        rw [isLike.2] at hooked
        obtain ⟨flies, passes⟩ :=
          owned.queued id earlier token serial earlierStores hooked
        rw [needsTransfer_congr winds.arq_eq, isLike.1]
        exact ⟨stillFlies flies (.inl ⟨entry, stores⟩), passes⟩
      unhooked := by
        intro token transfer found
        obtain ⟨earlier, earlierFound, isLike⟩ :=
          winds.outgoing token transfer found
        rw [isLike.hooks_eq]
        exact owned.unhooked token earlier earlierFound
      narrow := by
        intro token transfer found
        obtain ⟨earlier, earlierFound, isLike⟩ :=
          winds.outgoing token transfer found
        rw [isLike.windowSize_eq, winds.arq_eq]
        exact owned.narrow token earlier earlierFound }

/--
What takes away no message of its own accord leaves every fragment to its transfer.
-/
theorem of_winds
    (owned : engine.Owned)
    (winds : ∀ gone, WindsDown gone engine later) :
    later.Owned :=
  owned.of_windsDown (winds fun _ => False)

/-- Who waits for responses does not matter. -/
theorem with_expected
    (owned : engine.Owned)
    (expected : Cache TokenKey ResponseHandler) :
    { engine with expected := expected }.Owned :=
  { owned with }

/-! ## Queueing -/

theorem register
    (owned : engine.Owned)
    (id : MessageId)
    (handler : AckHandler)
    (flies : ∀ token block, handler = .fragment token block →
      engine.Flies token id) :
    (engine.register id handler).Owned :=
  { owned with
    watched := by
      intro other token block stores
      rcases stores.of_insert with ⟨rfl, same⟩ | before
      · exact flies token block same.symm
      · exact owned.watched other token block before }

/-- A message is queued, and a fragment if its transfer is in progress. -/
theorem enqueue
    (owned : engine.Owned)
    (message : Message)
    (hooks : Hooks)
    (flies : ∀ token serial,
      hooks.onResend = some (.transfer token serial) →
        engine.Flies token message.id ∧ engine.needsTransfer message = false) :
    (engine.enqueue message hooks).Owned := by
  have inserted :
      { engine with
        pool := (engine.pool.enqueue engine.now message hooks).2 }.Owned :=
    { owned with
      bounded := by
        dsimp only
        rw [Pool.enqueue_entries, Pool.enqueue_config, Cache.insert_bounds.1]
        exact owned.bounded
      keyed := owned.keyed.enqueue engine.now message hooks
      queued := by
        intro id entry token serial stores hooked
        rcases Pool.stores_of_enqueue stores with ⟨rfl, rfl⟩ | before
        · exact flies token serial hooked
        · exact owned.queued id entry token serial before hooked }
  unfold Engine.enqueue
  dsimp only
  split
  · exact inserted
  · exact inserted.of_windsDown (giveUp_windsDown _ _ _)

/-- Where there is room, queueing a message takes nothing away. -/
theorem enqueue_of_room
    (owned : engine.Owned)
    {count : Nat}
    (room : engine.HasRoom (count + 1))
    (message : Message)
    (hooks : Hooks) :
    engine.enqueue message hooks =
        { engine with pool := (engine.pool.enqueue engine.now message hooks).2 } ∧
      (engine.enqueue message hooks).HasRoom count := by
  have vacant : engine.pool.entries.isFull = false := by
    unfold Cache.isFull
    rw [owned.bounded, decide_eq_false_iff_not]
    unfold HasRoom Pool.size at room
    omega
  have kept : (engine.pool.enqueue engine.now message hooks).1 = none := by
    rw [Pool.enqueue_fst_eq, Cache.insert_fst_of_room vacant]
    rfl
  have enqueued : engine.enqueue message hooks =
      { engine with pool := (engine.pool.enqueue engine.now message hooks).2 } := by
    unfold Engine.enqueue
    dsimp only
    rw [kept]
  have size_le : (engine.pool.enqueue engine.now message hooks).2.size ≤
      engine.pool.size + 1 := by
    unfold Pool.size
    rw [Pool.enqueue_entries]
    exact Cache.size_insert_le_of_room vacant
  refine ⟨enqueued, ?_⟩
  rw [enqueued]
  unfold HasRoom at room ⊢
  dsimp only
  rw [Pool.enqueue_config]
  omega

/-- Where there is room for all of them, the fragments of a transfer are queued. -/
theorem dispatchFragments
    (owned : engine.Owned)
    {fragments : List Fragment}
    (room : engine.HasRoom fragments.length)
    (flies : ∀ fragment ∈ fragments, engine.Flies token fragment.message.id)
    (passes : ∀ fragment ∈ fragments, engine.needsTransfer fragment.message = false)
    (hooked : ∀ fragment ∈ fragments, ∃ serial,
      fragment.hooks = { onResend := some (.transfer token serial) }) :
    (engine.dispatchFragments token fragments).Owned := by
  induction fragments generalizing engine with
  | nil => exact owned
  | cons first rest inductionHypothesis =>
      obtain ⟨firstFlies, restFly⟩ := List.forall_mem_cons.mp flies
      obtain ⟨firstPasses, restPass⟩ := List.forall_mem_cons.mp passes
      obtain ⟨⟨serial, firstHooked⟩, restHooked⟩ := List.forall_mem_cons.mp hooked
      have registered :=
        owned.register first.message.id (.fragment token first.blockNumber) (by
          intro other block same
          cases same
          exact firstFlies)
      have queued := registered.enqueue first.message first.hooks (by
        intro other otherSerial same
        rw [firstHooked] at same
        cases same
        exact ⟨firstFlies, firstPasses⟩)
      have roomForAll : (engine.register first.message.id
          (.fragment token first.blockNumber)).HasRoom (rest.length + 1) := room
      obtain ⟨enqueued, roomLeft⟩ :=
        registered.enqueue_of_room roomForAll first.message first.hooks
      rw [enqueued] at queued roomLeft
      change (Engine.dispatchFragments (Engine.enqueue _ _ _) token rest).Owned
      rw [enqueued]
      exact inductionHypothesis queued roomLeft restFly restPass restHooked

/--
A transfer takes the place of the one under its token, whose
fragments it takes over.
-/
theorem place
    (owned : engine.Owned)
    {transfer : OutboundTransfer}
    (unhooked : ∀ other serial,
      transfer.hooks.onResend ≠ some (.transfer other serial))
    (narrow : transfer.state.windowSize ≤ engine.arq.windowSize)
    (inherits : ∀ id,
      engine.Flies token id →
        ((∃ entry, engine.pool.entries.Stores id entry) ∨
          ∃ handler, engine.acks.Stores id handler) →
          id ∈ transfer.inFlight) :
    { engine with outgoing := engine.outgoing.put token transfer }.Owned := by
  have placed {other : TokenKey} {id : MessageId} (flies : engine.Flies other id)
      (present : (∃ entry, engine.pool.entries.Stores id entry) ∨
        ∃ handler, engine.acks.Stores id handler) :
      { engine with
        outgoing := engine.outgoing.put token transfer }.Flies other id := by
    by_cases same : other = token
    · subst same
      exact ⟨transfer, Table.find?_put_self _ _ _, inherits id flies present⟩
    · obtain ⟨earlier, found, member⟩ := flies
      exact ⟨earlier, (Table.find?_put_ne same _ _).trans found, member⟩
  exact
    { owned with
      watched := fun id other block stores =>
        placed (owned.watched id other block stores) (.inr ⟨_, stores⟩)
      queued := by
        intro id entry other serial stores hooked
        obtain ⟨flies, passes⟩ := owned.queued id entry other serial stores hooked
        exact ⟨placed flies (.inl ⟨entry, stores⟩), passes⟩
      unhooked := by
        intro other later found
        rcases Table.find?_put_cases found with ⟨_, rfl⟩ | ⟨_, before⟩
        · exact unhooked
        · exact owned.unhooked other later before
      narrow := by
        intro other later found
        rcases Table.find?_put_cases found with ⟨_, rfl⟩ | ⟨_, before⟩
        · exact narrow
        · exact owned.narrow other later before }

/--
A transfer goes on and its next fragments are queued, where there is room for them
and whatever belonged to the token before is in flight.
-/
theorem cut
    (owned : engine.Owned)
    {transfer : OutboundTransfer}
    (unhooked : ∀ other serial,
      transfer.hooks.onResend ≠ some (.transfer other serial))
    (narrow : transfer.state.windowSize ≤ engine.arq.windowSize)
    (inherits : ∀ id,
      engine.Flies token id →
        ((∃ entry, engine.pool.entries.Stores id entry) ∨
          ∃ handler, engine.acks.Stores id handler) →
          id ∈ transfer.inFlight)
    (room : engine.HasRoom (engine.arq.windowSize + 1)) :
    ({ engine with
        outgoing := engine.outgoing.put token
          (Engine.cut token transfer engine.nextId).transfer
        nextId :=
          (Engine.cut token transfer engine.nextId).nextId }.dispatchFragments token
      (Engine.cut token transfer engine.nextId).fragments).Owned := by
  obtain ⟨isOf, lengthLe⟩ := cut_isOf token transfer engine.nextId
  generalize Engine.cut token transfer engine.nextId = cutting at *
  have size_eq : cutting.transfer.state.windowSize = transfer.state.windowSize :=
    isOf.continues.size_eq
  have placed : { engine with
    outgoing := engine.outgoing.put token cutting.transfer }.Owned := by
    refine owned.place ?_ (size_eq.symm ▸ narrow) fun id flies present =>
      isOf.kept id (inherits id flies present)
    rw [isOf.hooks_eq]
    exact unhooked
  have drawn : { engine with
      outgoing := engine.outgoing.put token cutting.transfer
      nextId := cutting.nextId }.Owned :=
    { placed with }
  refine drawn.dispatchFragments ?_ ?_ ?_ ?_
  · have count_le := Nat.le_trans lengthLe (Nat.succ_le_succ narrow)
    exact Nat.le_trans (Nat.add_le_add_left count_le _) room
  · exact fun fragment member =>
      ⟨cutting.transfer, Table.find?_put_self _ _ _, isOf.flies fragment member⟩
  · intro fragment member
    obtain ⟨_, block, _, message_eq⟩ := isOf.carries fragment member
    rw [message_eq]
    exact needsTransfer_fragmentOf _ _ block _
  · exact fun fragment member => ⟨_, isOf.hooked fragment member⟩

/-! ## Blocks that are acknowledged -/

/-- A confirmed block releases further fragments. -/
theorem confirmBlock
    (owned : engine.Owned)
    (number : UInt32)
    {id : MessageId}
    (unqueued : ∀ entry, ¬ engine.pool.entries.Stores id entry)
    (unwatched : ∀ handler, ¬ engine.acks.Stores id handler)
    (room : engine.HasRoom (engine.arq.windowSize + 1)) :
    (engine.confirmBlock token number id).Owned := by
  unfold Engine.confirmBlock
  split
  · exact owned
  · next transfer found =>
      refine owned.cut ?_ ?_ ?_ room
      · exact owned.unhooked token transfer found
      · have size_eq : (transfer.state.confirm number).windowSize =
            transfer.state.windowSize :=
          transfer.state.confirm_size number
        dsimp only
        rw [size_eq]
        exact owned.narrow token transfer found
      · rintro other ⟨earlier, earlierFound, member⟩ present
        rw [found] at earlierFound
        cases earlierFound
        refine List.mem_filter.mpr ⟨member, ?_⟩
        have different : other ≠ id := by
          rintro rfl
          rcases present with ⟨entry, stores⟩ | ⟨handler, stores⟩
          · exact unqueued entry stores
          · exact unwatched handler stores
        simpa using different

/-- The acknowledgement of a block moves its transfer on or ends it. -/
theorem onBlockAcknowledged
    (owned : engine.Owned)
    (message : Message)
    (cell : Option SocketAddress)
    (option : OptionNumber)
    (block : Block)
    (room : engine.HasRoom (engine.arq.windowSize + 1)) :
    (engine.onBlockAcknowledged message cell option block).state.Owned := by
  obtain ⟨clears, unqueued, unwatched⟩ := engine.dropAck_discard_spec message.id
  have confirmed : (engine.blockConfirmed message block).Owned :=
    (owned.of_windsDown clears).confirmBlock block.number unqueued unwatched
      (room.of_windsDown clears)
  rcases engine.onBlockAcknowledged_cases message cell option block with
      ⟨state_eq, _⟩ | ⟨transfer, released, found, _, _, winds, _, waits | answers⟩
  · rw [state_eq]
    exact confirmed
  · rw [waits.1]
    have unhooked := confirmed.unhooked message.key transfer found
    refine (Owned.enqueue (confirmed.of_winds winds) _ _ ?_).of_winds
      fun _ => suppress_windsDown _ _
    exact fun other serial hooked => absurd hooked (unhooked other serial)
  · rw [answers.1]
    exact confirmed.of_winds winds

/-! ## Transfers that start -/

/-- A transfer starts where none is in progress under its token. -/
theorem startTransfer
    (owned : engine.Owned)
    (state : SendState)
    (hooks : Hooks)
    (unhooked : ∀ other serial, hooks.onResend ≠ some (.transfer other serial))
    (narrow : state.windowSize ≤ engine.arq.windowSize)
    (missing : engine.outgoing.find? token = none)
    (room : engine.HasRoom (engine.arq.windowSize + 1)) :
    (engine.startTransfer token state hooks).Owned := by
  have counted :
      { engine with nextSerial := engine.nextSerial + 1 }.Owned := { owned with }
  refine @Owned.cut _ token counted
    ⟨state, hooks, [], engine.nextSerial⟩ unhooked narrow ?_ room
  rintro id ⟨transfer, found, _⟩
  cases missing.symm.trans found

/-- The outbound block-wise stage keeps to its fragments. -/
theorem blockwiseSend
    (owned : engine.Owned)
    {message : Message}
    (cell : Option SocketAddress)
    (isOwn : ∀ entry, engine.pool.entries.Stores message.id entry →
      entry.message = message)
    (afresh : engine.needsTransfer message = true →
      engine.outgoing.find? message.key = none)
    (room : engine.HasRoom (engine.arq.windowSize + 1)) :
    (engine.blockwiseSend message cell).state.Owned := by
  have taken := owned.of_windsDown (engine.take_windsDown message.id)
  cases needs : engine.needsTransfer message with
  | false =>
      rw [blockwiseSend_of_pass needs]
      exact owned
  | true =>
      rcases Nat.eq_zero_or_pos engine.arq.maxPayload with zero | positive
      · rw [blockwiseSend_of_zero needs zero]
        exact { taken with }
      · rw [blockwiseSend_of_needsTransfer needs positive]
        refine taken.startTransfer _ _ ?_ ?_ (afresh needs)
          (room.of_windsDown (engine.take_windsDown message.id))
        · -- the message itself is taken out, and no fragment needs a transfer
          intro other serial hooked
          cases inPool : (engine.take message.id).1 with
          | none =>
              rw [inPool] at hooked
              cases hooked
          | some entry =>
              rw [inPool] at hooked
              have stores := Pool.stores_of_take inPool
              have passes :=
                (owned.queued message.id entry other serial stores hooked).2
              rw [isOwn entry stores, needs] at passes
              cases passes
        · exact SendState.windowSize_start_le _ _ _ _ _

end Owned

/-! ## Runs -/

/-- The next poll starts no transfer under a token that has one in progress. -/
def startsAfresh (engine : Engine) : Bool :=
  match engine.next with
  | (none, _) => true
  | (some message, later) =>
      !later.needsTransfer message || (later.outgoing.find? message.key).isNone

/--
No fragment has to make room for another one, and no transfer is
replaced: before each poll and each message that arrives, the pool has
room for more fragments than a window.
-/
def leavesFragments
    (engine : Engine) :
    Action →
    Bool
  | .poll =>
      decide (engine.HasRoom (engine.arq.windowSize + 1)) && engine.startsAfresh
  | .receive _ _ => decide (engine.HasRoom (engine.arq.windowSize + 1))
  | _ => true

namespace Owned

variable {engine : Engine}

theorem poll
    (owned : engine.Owned)
    (room : engine.HasRoom (engine.arq.windowSize + 1))
    (afresh : engine.startsAfresh = true) :
    engine.poll.2.Owned := by
  have scans := engine.next_windsDown owned.keyed
  have scanned := owned.of_windsDown scans
  rw [poll_snd]
  cases picked : engine.next.1 with
  | none => exact scanned
  | some message =>
      have isOwn := isOwn_of_next owned.keyed picked
      have roomLeft : engine.next.2.HasRoom (engine.next.2.arq.windowSize + 1) := by
        rw [scans.arq_eq]
        exact room.of_windsDown scans
      have begins : engine.next.2.needsTransfer message = true →
          engine.next.2.outgoing.find? message.key = none := by
        intro needs
        unfold startsAfresh at afresh
        rw [(Prod.ext picked rfl : engine.next =
          (some message, engine.next.2))] at afresh
        simpa [needs] using afresh
      obtain ⟨expected, responded_eq⟩ := responded_spec engine.next.2 message
      refine Owned.of_windsDown ?_ (dispatch_windsDown engine.next.2 message).1
      rw [responded_eq]
      exact (scanned.with_expected expected).blockwiseSend message.target?
        isOwn begins roomLeft

theorem handOver
    (owned : engine.Owned)
    (message : Message)
    (cell : Option SocketAddress) :
    (engine.handOver message cell).2.Owned := by
  obtain ⟨expected, winds⟩ := engine.handOver_windsDown message cell
  exact (owned.with_expected expected).of_windsDown winds

theorem receive
    (owned : engine.Owned)
    (message : Message)
    (source : SocketAddress)
    (room : engine.HasRoom (engine.arq.windowSize + 1)) :
    (engine.receive message source).2.Owned := by
  have staged : (engine.blockwiseReceive { message with address := some source }
      (some source)).state.Owned := by
    rcases engine.blockwiseReceive_cases { message with address := some source }
      (some source) with
        notes | ⟨option, block, _, acknowledges⟩
    · exact owned.of_winds notes.winds
    · rw [acknowledges]
      exact owned.onBlockAcknowledged _ _ option block room
  rw [receive_eq rfl]
  cases (engine.blockwiseReceive { message with address := some source }
    (some source)).through? with
  | none => exact staged
  | some current => exact staged.handOver current _

/-- Every allowed action leaves fragments and handlers to transfers in progress. -/
theorem step
    (owned : engine.Owned)
    (action : Action)
    (allowed : engine.leavesFragments action = true) :
    (engine.step action).Owned := by
  have unhooked {resends : Option Listener} (token : TokenKey) (serial : Nat) :
      resends.map ResendHook.listener ≠ some (.transfer token serial) := by
    cases resends <;> simp
  cases action with
  | register id who =>
      exact owned.register id (.listener who) fun _ _ impossible => by
        cases impossible
  | enqueue message resends outcome =>
      exact owned.enqueue message _ fun token serial hooked =>
        absurd hooked (unhooked token serial)
  | request message who =>
      have expecting :
          (({ engine with nextGuard := engine.nextGuard + 1 }).expect message.key
          ⟨who, some engine.nextGuard⟩).Owned :=
        { owned with }
      exact expecting.enqueue message _ fun _ _ impossible => by cases impossible
  | poll =>
      unfold leavesFragments at allowed
      rw [Bool.and_eq_true, decide_eq_true_iff] at allowed
      exact owned.poll allowed.1 allowed.2
  | requeue id => exact owned.of_winds fun _ => engine.requeue_windsDown id
  | purge => exact (owned.with_expected _).of_windsDown engine.purge_windsDown
  | advance length => exact { owned with }
  | receive message source =>
      exact owned.receive message source (of_decide_eq_true allowed)

end Owned

/--
After every run in which no fragment has to make room for another one and no
transfer is replaced, a token without a transfer in progress has neither queued
fragments nor handlers that wait for one.
-/
theorem nothing_left_of_finished_transfer
    (poolConfig : PoolConfig)
    (arqConfig : ArqConfig)
    (nextId : MessageId)
    (actions : List Action)
    (abiding : abides leavesFragments
      (create poolConfig arqConfig nextId) actions = true)
    (token : TokenKey)
    (finished :
      ((create poolConfig arqConfig nextId).run actions).outgoing.find? token =
        none) :
    (∀ id entry serial,
        ((create poolConfig arqConfig nextId).run
          actions).pool.entries.Stores id entry →
          entry.hooks.onResend ≠ some (.transfer token serial)) ∧
      ∀ id block,
        ¬ ((create poolConfig arqConfig nextId).run actions).acks.Stores id
          (.fragment token block) := by
  have owned : ((create poolConfig arqConfig nextId).run actions).Owned :=
    run_preserves (fun _ action owned => owned.step action)
      (.create poolConfig arqConfig nextId) abiding
  have grounded (id : MessageId) :
      ¬ ((create poolConfig arqConfig nextId).run actions).Flies token id := by
    rintro ⟨transfer, found, _⟩
    cases finished.symm.trans found
  exact ⟨fun id entry serial stores hooked =>
      grounded id (owned.queued id entry token serial stores hooked).1,
    fun id block stores => grounded id (owned.watched id token block stores)⟩

/-- A request of three bytes. -/
def sampleUpload : Message :=
  { id := 7
    kind := .confirmable
    code := .post
    token := some ⟨[7]⟩
    address := some (.v4 10 0 0 2 5683)
    payload := some [1, 2, 3] }

/-- The acknowledgement of one of its fragments. -/
def sampleAck
    (id : MessageId)
    (raw : UInt64) :
    Message :=
  { id := id
    kind := .acknowledgement
    code := .empty
    token := some ⟨[7]⟩
    options := [.uint .block1 raw, .uint .windowSize 2] }

/-- A request that is sent in two fragments, both of which are acknowledged. -/
def sampleRun : List Action :=
  [.request sampleUpload (.observer "asker"), .poll, .poll, .poll,
    .receive (sampleAck 100 8) (.v4 10 0 0 2 5683),
    .receive (sampleAck 101 16) (.v4 10 0 0 2 5683)]

/-- Nothing is left of two fragments that were acknowledged. -/
theorem nothing_left_of_finished_transfer_two_fragments :
    abides leavesFragments
      (create {} { windowSize := 2, maxPayload := 2 } 100) sampleRun = true ∧
      ∀ id block,
        ¬ ((create {} { windowSize := 2, maxPayload := 2 } 100).run
          sampleRun).acks.Stores id
          (.fragment sampleUpload.key block) := by
  have abiding :
      abides leavesFragments
        (create {} { windowSize := 2, maxPayload := 2 } 100) sampleRun =
        true := by
    decide +kernel
  exact ⟨abiding,
    (nothing_left_of_finished_transfer {} { windowSize := 2, maxPayload := 2 } 100
    sampleRun abiding sampleUpload.key (by decide +kernel)).2⟩

/--
In a pool for one message, the second of three fragments pushes the first one out,
which fails the transfer; the third one is queued all the same.
-/
theorem eviction_leaves_fragment_behind :
    let engine :=
      (create { capacity := 1 } { windowSize := 3, maxPayload := 1 } 100).run
        [.request sampleUpload (.observer "asker"), .poll]
    engine.outgoing.find? sampleUpload.key = none ∧
      ((engine.pool.entries.peek? engine.now 102).map fun entry =>
        entry.hooks.onResend) =
        some (some (.transfer sampleUpload.key 0)) ∧
      engine.acks.peek? engine.now 102 = some (.fragment sampleUpload.key 2) := by
  decide +kernel

end Coap.Engine
