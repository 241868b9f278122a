import Mathlib.Data.List.Range
import Mathlib.Tactic.Common
import Coap.Proofs.Engine.Bounds
import Coap.Proofs.Engine.Parcel
import Coap.Proofs.Engine.Restart

namespace Coap

/-!
# A long message leaves in fragments

A message that is too long for one datagram gives its place in the queue to its
first fragments. What each of them is follows from the message, the size of a
block and the number of blocks in the window, and is said here without the
transfer that cuts them.
-/

namespace Message

/-- The bytes that a block of the message carries. -/
def blockBytes
    (message : Message)
    (blockSize number : Nat) :
    List UInt8 :=
  message.body.extract (number * blockSize)
    (min ((number + 1) * blockSize) message.bodyLength)

/-- Number, continuation and size class of a block in one control value. -/
def blockControl
    (message : Message)
    (blockSize number : Nat) :
    Nat :=
  number * 16 +
    (if number + 1 < SendState.blockCount message.bodyLength blockSize then 8
      else 0) +
    (BlockSize.ofLength (message.blockBytes blockSize number).length).index

/-- The options of the message that its fragments carry along. -/
def carriedOptions (message : Message) : List MessageOption :=
  message.options.filter fun option =>
    option.number ≠ Engine.blockOptionOf message ∧
      (option.number = .block1 → message.kind = .confirmable)

/-- The fragment of the message that carries a block. -/
def fragment
    (message : Message)
    (blockSize window number : Nat)
    (id : MessageId) :
    Message :=
  { id := id
    kind := .confirmable
    code := message.code
    token := message.token
    address := message.address
    proxy := message.proxy
    payload := some (message.blockBytes blockSize number)
    options :=
      message.carriedOptions ++
        [MessageOption.uint (Engine.blockOptionOf message)
            (UInt64.ofNat (message.blockControl blockSize number)),
          MessageOption.uint .windowSize (UInt64.ofNat window)] }

/-- An option of which there can be one only replaces its predecessors. -/
theorem options_addOption
    (message : Message)
    {option : MessageOption}
    {number : OptionNumber}
    (isNumber : option.number = number)
    (unique : number.isRepeatable = false) :
    (message.addOption option).options =
      (message.options.filter fun other => other.number ≠ number) ++ [option] := by
  subst isNumber
  unfold addOption
  rw [unique]
  rfl

end Message

namespace Engine

theorem isRepeatable_blockOptionOf (message : Message) :
    (blockOptionOf message).isRepeatable = false := by
  rcases blockOptionOf_eq message with isBlock1 | isBlock2
  · rw [isBlock1]
    rfl
  · rw [isBlock2]
    rfl

theorem blockOptionOf_transferMessage (message : Message) :
    blockOptionOf (transferMessage message) = blockOptionOf message := by
  unfold blockOptionOf
  rw [isRequest_transferMessage]

/-- A transfer changes nothing else about its message. -/
theorem transferMessage_eq (message : Message) :
    transferMessage message =
      { message with
        kind := .confirmable
        options := (transferMessage message).options } := by
  unfold transferMessage
  split
  · next confirmable => rw [← confirmable]
  · rfl

/-- A message gives up its Block1 option when it is made confirmable. -/
theorem options_transferMessage (message : Message) :
    (transferMessage message).options =
      message.options.filter fun option =>
        option.number = .block1 → message.kind = .confirmable := by
  unfold transferMessage
  split
  · next confirmable =>
      refine (List.filter_eq_self.mpr fun option _ => ?_).symm
      simp [confirmable]
  · next unconfirmable =>
      refine List.filter_congr fun option _ => ?_
      simp [unconfirmable]

end Engine

namespace SendState

variable {state : SendState} {message : Message} {number : Nat}

/-- The state cuts fragments of a message that has no window option. -/
structure Splits
    (state : SendState)
    (message : Message) :
    Prop where
  data_eq : state.data = message.body
  whole_eq : state.whole = Engine.transferMessage message
  unwindowed : message.hasOption .windowSize = false
  long : state.blockSize < message.bodyLength

namespace Splits

theorem total_eq (splits : state.Splits message) :
    state.total = blockCount message.bodyLength state.blockSize := by
  unfold total
  rw [splits.data_eq]
  exact (blockCount_eq_of_le (Nat.le_of_lt splits.long)).symm

/--
A fragment has the options of its message, and two more that replace earlier ones.
-/
theorem options_fragmentOf
    (splits : state.Splits message)
    (block : Block)
    (id : MessageId) :
    (Engine.fragmentOf state block id).options =
      message.carriedOptions ++
        [MessageOption.uint (Engine.blockOptionOf message) block.toRaw.toUInt64,
          MessageOption.uint .windowSize (UInt64.ofNat state.windowSize)] := by
  have windowless := Message.hasOption_eq_false_iff.mp splits.unwindowed
  have different := Engine.blockOptionOf_ne_windowSize message
  have kept :
      message.carriedOptions.filter (fun option => option.number ≠ .windowSize) =
        message.carriedOptions := by
    refine List.filter_eq_self.mpr fun option member => ?_
    simpa using windowless option (List.mem_of_mem_filter member)
  have carried :
      ((Engine.transferMessage message).options.filter fun option =>
          option.number ≠ Engine.blockOptionOf message) =
        message.carriedOptions := by
    rw [Engine.options_transferMessage, List.filter_filter]
    refine List.filter_congr fun option _ => ?_
    simp
  have isWindow (value : UInt64) :
      (MessageOption.uint .windowSize value).number = .windowSize :=
    rfl
  have isBlock (value : UInt64) :
      (MessageOption.uint (Engine.blockOptionOf message) value).number =
        Engine.blockOptionOf message :=
    rfl
  unfold Engine.fragmentOf
  dsimp only
  rw [splits.whole_eq, Engine.blockOptionOf_transferMessage,
    Message.options_addOption _ (isWindow _) rfl,
    Message.options_addOption _ (isBlock _)
      (Engine.isRepeatable_blockOptionOf message), List.filter_append]
  dsimp only
  rw [carried, kept]
  simp [MessageOption.uint, different]

theorem data_blockAt
    (splits : state.Splits message)
    (positive : 0 < state.blockSize)
    (inside : number < state.total) :
    (state.blockAt number).data = message.blockBytes state.blockSize number := by
  have bytes_eq := (block?_spec positive (block?_eq_blockAt positive inside)).2.1
  rw [splits.data_eq] at bytes_eq
  exact bytes_eq

/-- The control value of a block that the state cuts. -/
theorem toUInt64_toRaw
    (splits : state.Splits message)
    (positive : 0 < state.blockSize)
    (inside : number < state.total)
    (small : number < 2 ^ 28) :
    (state.blockAt number).toRaw.toUInt64 =
      UInt64.ofNat (message.blockControl state.blockSize number) := by
  have fits : (state.blockAt number).number.toNat = number :=
    UInt32.toNat_ofNat_of_lt' (Nat.lt_trans small (by decide))
  have more_iff := (block?_spec positive (block?_eq_blockAt positive inside)).2.2
  have size_eq : (state.blockAt number).size =
      BlockSize.ofLength (message.blockBytes state.blockSize number).length := by
    rw [← splits.data_blockAt positive inside]
    rfl
  have control_eq : (state.blockAt number).toRaw.toNat =
      message.blockControl state.blockSize number := by
    rw [Block.toNat_toRaw (fits.symm ▸ small), fits, size_eq]
    unfold Message.blockControl
    rw [← splits.total_eq]
    simp only [more_iff]
  apply UInt64.toNat_inj.mp
  rw [UInt32.toNat_toUInt64, control_eq, UInt64.toNat_ofNat_of_lt']
  rw [← control_eq]
  exact Nat.lt_trans (UInt32.toNat_lt _) (by decide)

/-- The fragment that the state cuts is the one of the message. -/
theorem fragmentOf_eq
    (splits : state.Splits message)
    (positive : 0 < state.blockSize)
    (inside : number < state.total)
    (small : number < 2 ^ 28)
    (id : MessageId) :
    Engine.fragmentOf state (state.blockAt number) id =
      message.fragment state.blockSize state.windowSize number id := by
  rw [Engine.fragmentOf_frame, splits.options_fragmentOf,
    splits.toUInt64_toRaw positive inside small,
    splits.data_blockAt positive inside, splits.whole_eq, Engine.transferMessage_eq]
  rfl

end Splits

end SendState

namespace Engine

/-! ### What is cut -/

/--
The fragment of a transfer with a number, if the identifiers count up from `base`.
-/
def pieceOf
    (token : TokenKey)
    (serial : Nat)
    (start : SendState)
    (base : MessageId)
    (number : Nat) :
    Fragment :=
  { message := fragmentOf start (start.blockAt number) (base + UInt16.ofNat number)
    hooks := { onResend := some (.transfer token serial) } }

/--
While nothing is confirmed, the window lets out the blocks that it covers, in order.
-/
theorem cutWithin_of_unconfirmed
    (token : TokenKey)
    (room : Nat)
    {transfer : OutboundTransfer}
    {start : SendState}
    {released : Nat}
    (positive : 0 < start.blockSize)
    (within : start.window.size ≤ start.total)
    (continues : transfer.state.Continues start)
    (tracks : transfer.state.Tracks released fun _ => False)
    (enough : start.window.size - released ≤ room)
    (base : MessageId) :
    (cutWithin token room transfer (base + UInt16.ofNat released)).fragments =
      (List.range' released (start.window.size - released)).map
        (pieceOf token transfer.serial start base) := by
  induction room generalizing transfer released with
  | zero =>
      rw [Nat.le_zero.mp enough]
      rfl
  | succ room inductionHypothesis =>
      have blockPositive : 0 < transfer.state.blockSize :=
        continues.blockSize_eq ▸ positive
      have total_eq : transfer.state.total = start.total := by
        unfold SendState.total
        rw [continues.data_eq, continues.blockSize_eq]
      have least : IsLeast { number : Nat | ¬ False } 0 :=
        ⟨not_false, fun _ _ => Nat.zero_le _⟩
      have isSome_iff := tracks.pop?_isSome_iff blockPositive least
      rw [total_eq, continues.size_eq, Nat.zero_add] at isSome_iff
      have advanced := tracks.pop?_snd blockPositive
      have goesOn := (SendState.Continues.pop? transfer.state).trans continues
      unfold cutWithin
      split
      · next state isNone =>
          have ended : start.window.size - released = 0 := by
            rw [isNone] at isSome_iff
            simp at isSome_iff
            omega
          rw [ended]
          rfl
      · next block state isSome =>
          rw [isSome] at isSome_iff advanced goesOn
          obtain ⟨inside, inWindow⟩ := isSome_iff.mp rfl
          have isBlock :=
            tracks.block?_of_pop? blockPositive (congrArg Prod.fst isSome)
          rw [continues.block?_eq,
            SendState.block?_eq_blockAt positive inside] at isBlock
          have next_eq : base + UInt16.ofNat released + 1 =
              base + UInt16.ofNat (released + 1) := by
            rw [UInt16.ofNat_add, ← UInt16.add_assoc]
            rfl
          have count_eq : start.window.size - released =
              (start.window.size - (released + 1)) + 1 := by
            omega
          have counted : (transfer.withFragment state
            (base + UInt16.ofNat released)).state.Tracks
              (released + 1) fun _ => False :=
            { advanced with }
          have others :=
            inductionHypothesis (goesOn.with_stats _) counted (by omega)
          rw [count_eq, List.range'_succ, List.map_cons, next_eq,
            ← Option.some.inj isBlock]
          refine congrArg₂ List.cons ?_ others
          unfold pieceOf
          rw [goesOn.fragmentOf_eq]

/-! ### What is queued -/

/-- What a fragment is in the queue, as the last one touched. -/
def Fragment.item
    (fragment : Fragment)
    (now : Timestamp) :
    MessageId × PoolEntry × Timestamp :=
  (fragment.message.id, PoolEntry.create now fragment.message fragment.hooks, now)

variable {engine : Engine} {limits : Cache.Limits}
variable {items : Table MessageId (PoolEntry × Timestamp)}
variable {token : TokenKey}

/--
Where there is room, a fragment joins the end of the queue, and
its handler is registered.
-/
theorem queueFragment_of_room
    (shows : engine.pool.entries.Shows limits items)
    {fragment : Fragment}
    (unused : fragment.message.id ∉ Table.keys items)
    (room : limits.isReached items.length = false) :
    ∃ pool,
      engine.queueFragment token fragment =
          { engine.register fragment.message.id
              (.fragment token fragment.blockNumber) with
            pool := pool } ∧
        pool.entries.Shows limits (items ++ [fragment.item engine.now]) := by
  obtain ⟨entries, inserted, showsLater⟩ := shows.insert_of_absent
    (Table.find?_eq_none_iff.mpr unused) room engine.now
    (PoolEntry.create engine.now fragment.message fragment.hooks)
  refine
    ⟨(engine.pool.enqueue engine.now fragment.message fragment.hooks).2, ?_, ?_⟩
  · have nothing :
        (engine.pool.enqueue engine.now fragment.message fragment.hooks).1 =
          none := by
      rw [Pool.enqueue_fst_eq, inserted]
      rfl
    unfold queueFragment
    exact @enqueue_of_roomy (engine.register _ _) _ _ nothing
  · rw [Pool.enqueue_entries, inserted]
    exact showsLater

/-- Where there is room, all fragments join the end of the queue in order. -/
theorem dispatchFragments_of_room
    (shows : engine.pool.entries.Shows limits items)
    (unlimited : engine.acks.capacity = none)
    {fragments : List Fragment}
    (distinct : (fragments.map (·.message.id)).Nodup)
    (unused : ∀ fragment ∈ fragments, fragment.message.id ∉ Table.keys items)
    (room : ∀ count < items.length + fragments.length,
      limits.isReached count = false) :
    (engine.dispatchFragments token fragments).pool.entries.Shows limits
        (items ++ fragments.map fun fragment => fragment.item engine.now) ∧
      (∀ fragment ∈ fragments,
        (engine.dispatchFragments token fragments).acks.Stores fragment.message.id
          (.fragment token fragment.blockNumber)) ∧
      ∀ id handler,
        engine.acks.Stores id handler → id ∉ fragments.map (·.message.id) →
          (engine.dispatchFragments token fragments).acks.Stores id handler := by
  induction fragments generalizing engine items with
  | nil =>
      rw [List.map_nil, List.append_nil]
      exact ⟨shows, by simp, fun _ _ stores _ => stores⟩
  | cons first rest inductionHypothesis =>
      obtain ⟨isNew, restDistinct⟩ := List.nodup_cons.mp distinct
      obtain ⟨firstUnused, restUnused⟩ := List.forall_mem_cons.mp unused
      obtain ⟨pool, queued_eq, showsNext⟩ := queueFragment_of_room shows firstUnused
        (room items.length (by simp))
      have acks_eq : (engine.queueFragment token first).acks =
          (engine.acks.insert engine.now first.message.id
            (.fragment token first.blockNumber)).2 := by
        rw [queued_eq]
        rfl
      have now_eq : (engine.queueFragment token first).now = engine.now := by
        rw [queued_eq]
        rfl
      have unlimitedNext :
          (engine.queueFragment token first).acks.capacity = none := by
        rw [acks_eq]
        exact Cache.insert_bounds.1.trans unlimited
      have unusedNext : ∀ fragment ∈ rest,
          fragment.message.id ∉ Table.keys (items ++ [first.item engine.now]) := by
        intro fragment member used
        unfold Table.keys at used
        rw [List.map_append] at used
        rcases List.mem_append.mp used with before | isFirst
        · exact restUnused fragment member before
        · have same : fragment.message.id = first.message.id :=
            List.mem_singleton.mp isFirst
          exact isNew (List.mem_map.mpr ⟨fragment, member, same⟩)
      rw [dispatchFragments_cons]
      have showsQueued :
          (engine.queueFragment token first).pool.entries.Shows limits
          (items ++ [first.item engine.now]) := by
        rw [queued_eq]
        exact showsNext
      obtain ⟨showsLast, watched, kept⟩ :=
        inductionHypothesis showsQueued unlimitedNext
          restDistinct unusedNext fun count below =>
            room count (by simp at below ⊢; omega)
      rw [now_eq] at showsLast
      refine ⟨?_, List.forall_mem_cons.mpr ⟨kept _ _ ?_ isNew, watched⟩, ?_⟩
      · rw [List.map_cons, List.append_cons]
        exact showsLast
      · rw [acks_eq]
        exact Cache.stores_insert_self
      · intro id handler stores apart
        obtain ⟨different, apartRest⟩ := List.ne_and_not_mem_of_not_mem_cons apart
        have roomy : engine.acks.isFull = false := by
          unfold Cache.isFull
          rw [unlimited]
        refine kept id handler ?_ apartRest
        rw [acks_eq]
        refine (stores.insert different).resolve_right fun evicted => ?_
        rw [Cache.insert_fst_of_room roomy] at evicted
        cases evicted

/-! ### The stage -/

/-- How many fragments of a message may leave before any is acknowledged. -/
def firstFragments
    (arq : ArqConfig)
    (message : Message) :
    Nat :=
  min arq.windowSize (SendState.blockCount message.bodyLength arq.maxPayload)

/-- The identifier that the counter hands out after some others. -/
def idAfter
    (engine : Engine)
    (count : Nat) :
    MessageId :=
  engine.nextId + UInt16.ofNat count

/-- The fragment of a message with an index, as it is cut first. -/
def firstFragment
    (engine : Engine)
    (message : Message)
    (index : Nat) :
    Fragment :=
  { message :=
      message.fragment engine.arq.maxPayload
        (firstFragments engine.arq message) index (engine.idAfter index)
    hooks := { onResend := some (.transfer message.key engine.nextSerial) } }

/-- The transfer that a message starts. -/
def started
    (engine : Engine)
    (message : Message) :
    SendState :=
  SendState.start engine.now message.body engine.arq.windowSize
    engine.arq.maxPayload (transferMessage message)

variable {message : Message}

theorem windowSize_started
    (engine : Engine)
    (message : Message) :
    (engine.started message).windowSize = firstFragments engine.arq message := by
  simp [started, SendState.windowSize, SendState.start, Window.size, Window.filled,
    firstFragments, Message.bodyLength]

/-- The first fragments of a message are cut in order. -/
theorem cut_started
    (unwindowed : message.hasOption .windowSize = false)
    (positive : 0 < engine.arq.maxPayload)
    (long : engine.arq.maxPayload < message.bodyLength)
    (few : firstFragments engine.arq message < 2 ^ 16)
    (hooks : Hooks) :
    (cut message.key ⟨engine.started message, hooks, [], engine.nextSerial⟩
        engine.nextId).fragments =
      (List.range (firstFragments engine.arq message)).map
        (engine.firstFragment message) := by
  have size_eq := engine.windowSize_started message
  have splits : (engine.started message).Splits message :=
    ⟨rfl, rfl, unwindowed, long⟩
  have total_eq : (engine.started message).total =
      SendState.blockCount message.bodyLength engine.arq.maxPayload :=
    splits.total_eq
  have within : (engine.started message).window.size ≤
      (engine.started message).total := by
    rw [total_eq]
    exact size_eq.trans_le (Nat.min_le_right _ _)
  have tracks : (engine.started message).Tracks 0 fun _ => False :=
    SendState.tracks_start _ _ _ _ _
  have first : engine.nextId + UInt16.ofNat 0 = engine.nextId := UInt16.add_zero _
  have cuts := @cutWithin_of_unconfirmed message.key
    ((engine.started message).windowSize + 1)
    ⟨engine.started message, hooks, [], engine.nextSerial⟩
      (engine.started message) 0
    positive within (.refl _) tracks (Nat.le_succ _) engine.nextId
  rw [first] at cuts
  refine cuts.trans ?_
  change (List.range' 0 ((engine.started message).windowSize - 0)).map _ = _
  rw [Nat.sub_zero, size_eq, ← List.range_eq_range']
  refine List.map_congr_left fun index inRange => ?_
  have below := List.mem_range.mp inRange
  have inside : index < (engine.started message).total := by
    rw [total_eq]
    exact Nat.lt_of_lt_of_le below (Nat.min_le_right _ _)
  unfold pieceOf
  rw [splits.fragmentOf_eq positive inside (by omega), size_eq]
  rfl

/-- The identifiers that the counter hands out in a row are distinct. -/
theorem idAfter_nodup
    (engine : Engine)
    {count : Nat}
    (few : count ≤ 2 ^ 16) :
    ((List.range count).map engine.idAfter).Nodup := by
  refine List.Nodup.map_on
    (fun first firstIn second secondIn same => ?_) List.nodup_range
  have firstBelow := List.mem_range.mp firstIn
  have secondBelow := List.mem_range.mp secondIn
  have offsets : UInt16.ofNat first = UInt16.ofNat second :=
    (UInt16.add_right_inj engine.nextId).mp same
  have remainders := congrArg UInt16.toNat offsets
  simp only [UInt16.toNat_ofNat'] at remainders
  omega

/--
Unless its message carries a Block1 value of its own, a fragment is
registered by its number.
-/
theorem blockNumber_fragment
    {blockSize window number : Nat}
    {id : MessageId}
    {hooks : Hooks}
    (small : number < 2 ^ 28)
    (plain : ∀ option ∈ message.carriedOptions, option.number ≠ .block1) :
    Fragment.blockNumber ⟨message.fragment blockSize window number id, hooks⟩ =
      number := by
  have control_eq : (UInt64.ofNat (message.blockControl blockSize number)).toNat /
      16 = number := by
    have classBound :=
      (BlockSize.ofLength (message.blockBytes blockSize number).length).index_lt
    unfold Message.blockControl
    rw [UInt64.toNat_ofNat_of_lt']
    · split <;> omega
    · simp only [UInt64.size]
      split <;> omega
  have noBlock1 : message.carriedOptions.find?
      (fun option => option.number == .block1) = none := by
    simpa [List.find?_eq_none] using plain
  have noBlockOption : message.carriedOptions.find?
      (fun option => option.number == blockOptionOf message) = none := by
    refine List.find?_eq_none.mpr fun option member => ?_
    have kept := (List.mem_filter.mp member).2
    simp only [decide_eq_true_eq] at kept
    simpa using kept.1
  unfold Fragment.blockNumber Message.uint? Message.option? Message.fragment
  dsimp only
  rw [List.find?_append, List.find?_append, noBlock1]
  rcases blockOptionOf_eq message with isBlock1 | isBlock2
  · rw [isBlock1]
    exact control_eq
  · rw [isBlock2] at noBlockOption ⊢
    rw [noBlockOption]
    exact control_eq

/--
A transfer that starts queues the first fragments of its message,
and registers them.
-/
theorem startTransfer_of_room
    (shows : engine.pool.entries.Shows limits items)
    (unlimited : engine.acks.capacity = none)
    (unwindowed : message.hasOption .windowSize = false)
    (positive : 0 < engine.arq.maxPayload)
    (long : engine.arq.maxPayload < message.bodyLength)
    (few : firstFragments engine.arq message < 2 ^ 16)
    (unused : ∀ index < firstFragments engine.arq message,
      engine.idAfter index ∉ Table.keys items)
    (room : ∀ taken < items.length + firstFragments engine.arq message,
      limits.isReached taken = false)
    (hooks : Hooks) :
    let later := engine.startTransfer message.key (engine.started message) hooks
    later.pool.entries.Shows limits
        (items ++ (List.range (firstFragments engine.arq message)).map fun index =>
          (engine.firstFragment message index).item engine.now) ∧
      ∀ index < firstFragments engine.arq message,
        later.acks.Stores (engine.idAfter index)
          (.fragment message.key
            (engine.firstFragment message index).blockNumber) := by
  intro later
  have cuts := cut_started unwindowed positive long few hooks
  have ids_eq : ((List.range (firstFragments engine.arq message)).map
      (engine.firstFragment message)).map (·.message.id) =
        (List.range (firstFragments engine.arq message)).map engine.idAfter := by
    rw [List.map_map]
    rfl
  let cutting :=
    cut message.key ⟨engine.started message, hooks, [], engine.nextSerial⟩
      engine.nextId
  let drawing : Engine :=
    { engine with
      nextSerial := engine.nextSerial + 1
      nextId := cutting.nextId
      outgoing := engine.outgoing.put message.key cutting.transfer }
  have later_eq : later = drawing.dispatchFragments message.key
      ((List.range (firstFragments engine.arq message)).map
        (engine.firstFragment message)) := by
    rw [← cuts]
    rfl
  have showsDrawing : drawing.pool.entries.Shows limits items := shows
  have unusedByPieces :
      ∀ fragment ∈ (List.range (firstFragments engine.arq message)).map
      (engine.firstFragment message), fragment.message.id ∉ Table.keys items := by
    intro fragment member
    obtain ⟨index, inRange, rfl⟩ := List.mem_map.mp member
    exact unused index (List.mem_range.mp inRange)
  obtain ⟨showsLater, watched, _⟩ :=
    dispatchFragments_of_room showsDrawing unlimited
      (by rw [ids_eq]; exact engine.idAfter_nodup (Nat.le_of_lt few)) unusedByPieces
      (by simpa using room)
  rw [later_eq]
  rw [List.map_map] at showsLater
  exact ⟨showsLater, fun index below =>
    watched _ (List.mem_map_of_mem (List.mem_range.mpr below))⟩

/-- The block-wise stage puts the first fragments of a long message in its place. -/
theorem blockwiseSend_of_long
    (shows : engine.pool.entries.Shows limits items)
    (unlimited : engine.acks.capacity = none)
    (needs : engine.needsTransfer message = true)
    (unwindowed : message.hasOption .windowSize = false)
    (positive : 0 < engine.arq.maxPayload)
    (few : firstFragments engine.arq message < 2 ^ 16)
    (unused : ∀ index < firstFragments engine.arq message,
      engine.idAfter index ∉ Table.keys (items.erase message.id))
    (room :
      ∀ taken < (items.erase message.id).length + firstFragments engine.arq message,
      limits.isReached taken = false)
    (cell : Option SocketAddress) :
    let later := (engine.blockwiseSend message cell).state
    later.pool.entries.Shows limits
        (items.erase message.id ++
          (List.range (firstFragments engine.arq message)).map fun index =>
            (engine.firstFragment message index).item engine.now) ∧
      ∀ index < firstFragments engine.arq message,
        later.acks.Stores (engine.idAfter index)
          (.fragment message.key
            (engine.firstFragment message index).blockNumber) := by
  have showsTaken : (engine.take message.id).2.pool.entries.Shows limits
      (items.erase message.id) := by
    change (engine.pool.take message.id).2.entries.Shows _ _
    rw [Pool.take_entries]
    exact shows.remove message.id
  rw [blockwiseSend_of_needsTransfer needs positive]
  exact startTransfer_of_room showsTaken unlimited unwindowed positive
    (lt_bodyLength_of_needsTransfer needs) few unused room
    (((engine.take message.id).1.map PoolEntry.hooks).getD {})

/-- What goes on in place of a long message that has no window option. -/
theorem transferNotice_eq
    (unwindowed : message.hasOption .windowSize = false)
    (cell : Option SocketAddress) :
    engine.transferNotice message cell =
      if message.kind.isAckOrReset then
        { message with
          kind := .acknowledgement
          code := .empty
          address := cell
          payload := none
          options := message.options ++
            [MessageOption.uint .windowSize (UInt64.ofNat engine.arq.windowSize)] }
      else message := by
  have absent : ∀ option ∈ (message.toEmptyAck cell).options,
      option.number ≠ .windowSize :=
    Message.hasOption_eq_false_iff.mp unwindowed
  unfold transferNotice
  split
  · rw [Message.addOption_of_absent absent]
    rfl
  · rfl

theorem keys_erase
    (items : Table MessageId (PoolEntry × Timestamp))
    (id : MessageId) :
    Table.keys (items.erase id) = (Table.keys items).filter fun other =>
      other ≠ id := by
  unfold Table.keys Table.erase
  rw [List.filter_map]
  rfl

/--
Once an entry is taken, there is room for one more than the capacity has left.
-/
theorem isReached_of_taken
    {capacity count : Nat}
    {id : MessageId}
    {entry : PoolEntry}
    (shows : engine.pool.entries.Shows limits items)
    (capacity_eq : limits.capacity = some capacity)
    (stores : engine.pool.entries.Stores id entry)
    (roomy : engine.pool.size + count ≤ capacity + 1) :
    ∀ taken < (items.erase id).length + count, limits.isReached taken = false := by
  intro taken below
  obtain ⟨touched, member⟩ := shows.stores_iff.mp stores
  have shorter :=
    Table.length_erase_lt ((Table.find?_eq_some_iff shows.distinct).mpr member)
  have size_eq : engine.pool.size = items.length := shows.size_eq
  unfold Cache.Limits.isReached
  rw [capacity_eq]
  simp only [decide_eq_false_iff_not]
  omega

/--
In every run, a queued message with a token that carries no window option and is
longer than a datagram may be leaves the queue when the block-wise stage sees it.
Exactly its first fragments are queued in its place, as many as window and payload
have, in order, at the end of the queue, and under identifiers that the counter
hands out; each has a handler of its own. An acknowledgement or a reset goes on as
an empty acknowledgement that announces the window; any other message stops here.
-/
theorem long_message_leaves_in_fragments
    (poolConfig : PoolConfig)
    (arqConfig : ArqConfig)
    (nextId : MessageId)
    (operations : List Operation)
    (message : Message)
    (cell : Option SocketAddress)
    (queued :
      let engine := (create poolConfig arqConfig nextId).performAll operations
      ∃ entry, engine.pool.entries.Stores message.id entry ∧
        entry.message = message)
    (tokened : message.token.isSome)
    (unwindowed : message.hasOption .windowSize = false)
    (positive : 0 < arqConfig.maxPayload)
    (long : arqConfig.maxPayload < message.bodyLength)
    (few : firstFragments arqConfig message < 2 ^ 16)
    (unused :
      let engine := (create poolConfig arqConfig nextId).performAll operations
      ∀ index < firstFragments arqConfig message,
        ∀ entry, ¬ engine.pool.entries.Stores (engine.idAfter index) entry)
    (roomy :
      let engine := (create poolConfig arqConfig nextId).performAll operations
      engine.pool.size + firstFragments arqConfig message ≤
        poolConfig.capacity + 1) :
    let engine := (create poolConfig arqConfig nextId).performAll operations
    let count := firstFragments arqConfig message
    let passage := engine.blockwiseSend message cell
    let ids := (List.range count).map engine.idAfter
    let fragment (index : Nat) :=
      message.fragment arqConfig.maxPayload count index (engine.idAfter index)
    ids.Nodup ∧
      passage.state.pool.entries.keys =
        (engine.pool.entries.keys.filter fun id => id ≠ message.id) ++ ids ∧
      (∀ id entry,
        passage.state.pool.entries.Stores id entry ↔
          (id ≠ message.id ∧ engine.pool.entries.Stores id entry) ∨
            ∃ index < count,
              id = engine.idAfter index ∧
                entry = PoolEntry.create engine.now (fragment index)
                  { onResend := some (.transfer message.key engine.nextSerial) }) ∧
      (∀ index < count, ∃ number,
        passage.state.acks.Stores (engine.idAfter index)
          (.fragment message.key number) ∧
          ((∀ option ∈ message.carriedOptions, option.number ≠ .block1) →
            number = index)) ∧
      passage.cell = cell ∧
      passage.result = .ok { proceed := message.kind.isAckOrReset } ∧
      passage.message =
        if message.kind.isAckOrReset then
          { message with
            kind := .acknowledgement
            code := .empty
            address := cell
            payload := none
            options := message.options ++
              [MessageOption.uint .windowSize (UInt64.ofNat arqConfig.windowSize)] }
        else message := by
  intro engine count passage ids fragment
  have tidy : engine.Obeys (.tidy arqConfig) :=
    (Obeys.create poolConfig (.tidy arqConfig) nextId).performAll
      fun operation _ => Discipline.tidy_allows operation
  have bounds : KeepsBounds (create poolConfig arqConfig nextId) engine :=
    performAll_keepsBounds
      (Obeys.create poolConfig (.tidy arqConfig) nextId) operations
  obtain ⟨arq_eq, sound, _, _, _⟩ := tidy
  have count_eq : firstFragments engine.arq message = count :=
    congrArg (firstFragments · message) arq_eq
  have positiveNow : 0 < engine.arq.maxPayload := arq_eq.symm ▸ positive
  have needs : engine.needsTransfer message = true := by
    unfold needsTransfer exceedsSingleBlock
    rw [unwindowed, tokened, arq_eq, decide_eq_true long]
    rfl
  obtain ⟨entry, stores, _⟩ := queued
  obtain ⟨limits, items, shows⟩ := sound.ordered
  have capacity_eq : limits.capacity = some poolConfig.capacity :=
    shows.capacity_eq.symm.trans bounds.queue_eq
  have absent : ∀ index < count,
      engine.idAfter index ∉ Table.keys (items.erase message.id) := by
    intro index below isKey
    rw [keys_erase] at isKey
    obtain ⟨other, otherStores⟩ :=
      shows.mem_keys_iff.mp (List.mem_of_mem_filter isKey)
    exact unused index below other otherStores
  have room := isReached_of_taken shows capacity_eq stores roomy
  obtain ⟨showsLater, watched⟩ :=
    blockwiseSend_of_long shows bounds.acks_eq needs unwindowed
      positiveNow (count_eq ▸ few) (count_eq ▸ absent) (count_eq ▸ room) cell
  have passage_eq : passage = _ :=
    blockwiseSend_of_needsTransfer needs positiveNow cell
  let queuedAs (index : Nat) : MessageId × PoolEntry :=
    (engine.idAfter index,
      PoolEntry.create engine.now (fragment index)
        { onResend := some (.transfer message.key engine.nextSerial) })
  have piece_eq (index : Nat) :
      (engine.firstFragment message index).item engine.now =
        ((queuedAs index).1, (queuedAs index).2, engine.now) := by
    unfold firstFragment
    rw [count_eq, arq_eq]
    rfl
  simp only [piece_eq, count_eq] at showsLater
  refine ⟨engine.idAfter_nodup (Nat.le_of_lt few), ?_, fun id entry => ?_,
    fun index below => ?_, ?_, ?_, ?_⟩
  · rw [showsLater.keys_eq, shows.keys_eq, ← keys_erase]
    unfold Table.keys
    rw [List.map_append, List.map_map]
    rfl
  · rw [shows.stores_replaced_iff showsLater]
    simp only [queuedAs, Prod.mk.injEq]
  · refine ⟨_, watched index (count_eq.symm ▸ below), fun plain => ?_⟩
    exact blockNumber_fragment (by omega) plain
  · rw [passage_eq]
  · rw [passage_eq]
  · rw [passage_eq, ← arq_eq]
    exact transferNotice_eq unwindowed cell

/--
An acknowledgement of five bytes that carries a Block1 option of
the upload it answers.
-/
def longAnswer : Message :=
  { id := 7
    kind := .acknowledgement
    code := .content
    token := some ⟨[7]⟩
    address := some (.v4 10 0 0 2 5683)
    payload := some [1, 2, 3, 4, 5]
    options := [⟨.eTag, .bytes [9]⟩, ⟨.block1, .uint 8⟩] }

/-- An engine in which it is queued. -/
def answering : Engine :=
  (create {} { windowSize := 2, maxPayload := 2 } 100).performAll
    [.act (.enqueue longAnswer none none)]

/--
Of its three blocks of two bytes two leave at once, and an empty
acknowledgement goes on.
-/
theorem long_message_leaves_in_fragments_answer :
    let passage := answering.blockwiseSend longAnswer (some (.v4 10 0 0 2 5683))
    answering.pool.entries.Stores 7 (PoolEntry.create answering.now longAnswer {}) ∧
      longAnswer.token.isSome ∧ longAnswer.hasOption .windowSize = false ∧
      2 < longAnswer.bodyLength ∧
      passage.state.pool.entries.keys = [100, 101] ∧
      passage.state.pool.entries.Stores 101
        (PoolEntry.create answering.now
          { id := 101
            kind := .confirmable
            code := .content
            token := some ⟨[7]⟩
            address := some (.v4 10 0 0 2 5683)
            payload := some [3, 4]
            options :=
              [⟨.eTag, .bytes [9]⟩, ⟨.block2, .uint 24⟩, ⟨.windowSize, .uint 2⟩] }
          { onResend := some (.transfer "07" 0) }) ∧
      passage.result = .ok { proceed := true } := by
  have queued : answering.pool.entries.Stores 7
      (PoolEntry.create answering.now longAnswer {}) :=
    Cache.stores_of_peek?
      (by decide +kernel : answering.pool.entries.peek? answering.now 7 = _)
  have unused :
      ∀ index < firstFragments { windowSize := 2, maxPayload := 2 } longAnswer,
      answering.pool.entries.entries.find? (answering.idAfter index) = none := by
    decide +kernel
  obtain ⟨_, keys_eq, stores_iff, _, _, result_eq, _⟩ :=
    long_message_leaves_in_fragments {} { windowSize := 2, maxPayload := 2 } 100
      [.act (.enqueue longAnswer none none)] longAnswer (some (.v4 10 0 0 2 5683))
      ⟨_, queued, rfl⟩ rfl (by decide +kernel) (by decide) (by decide) (by decide)
      (fun index below => Cache.find?_eq_none_iff.mp (unused index below))
        (by decide +kernel)
  refine ⟨queued, rfl, by decide +kernel, by decide, ?_, ?_, result_eq⟩
  · refine keys_eq.trans ?_
    decide +kernel
  · refine (stores_iff 101 _).mpr (.inr ⟨1, by decide, by decide, ?_⟩)
    decide +kernel

end Engine

end Coap
