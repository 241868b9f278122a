import Mathlib.Data.List.Range
import Mathlib.Tactic.Common
import Coap.Proofs.Engine.Fragment
import Coap.Proofs.Engine.Inbound
import Coap.Proofs.Engine.Scene
import Coap.Proofs.Transfer.Receive

namespace Coap

/-!
# A message that leaves in blocks

The blocks of a parcel are confirmed in order. At any time some of them are
confirmed, the ones after these have been sent, and a few more wait in the queue:
as many as the window lets out. The identifiers of the fragments count up, so
those in the window are distinct as long as the window is smaller than the space
of identifiers.
-/

/-- The block with a number. -/
def SendState.blockAt
    (state : SendState)
    (number : Nat) :
    Block :=
  Block.ofData (UInt32.ofNat number) (slice state.data state.blockSize number)
    (decide (number * state.blockSize + state.blockSize < state.data.length))

theorem SendState.block?_eq_blockAt
    {state : SendState}
    {number : Nat}
    (positive : 0 < state.blockSize)
    (inside : number < state.total) :
    state.block? number = some (state.blockAt number) := by
  have begins : ¬ state.data.length ≤ number * state.blockSize := fun ends =>
    Nat.not_lt.mpr ((length_le_mul_iff _ number positive).mp ends) inside
  unfold block?
  dsimp only
  rw [if_neg begins]
  rfl

/-- A message that one side of a conversation sends in blocks. -/
structure Parcel where
  setting : Setting
  whole : Message
  hooks : Hooks
  serial : Nat
  /-- The identifier of the first fragment. -/
  base : MessageId
  /-- What the side shows besides. -/
  rest : Scene

namespace Parcel

/-- The transfer before anything is released. -/
def start (parcel : Parcel) : SendState :=
  SendState.start parcel.setting.now parcel.whole.body parcel.setting.arq.windowSize
    parcel.setting.arq.maxPayload parcel.whole

/-- The number of blocks. -/
def total (parcel : Parcel) : Nat :=
  parcel.start.total

/-- How many blocks may be on their way. -/
def window (parcel : Parcel) : Nat :=
  parcel.start.windowSize

/-- How many blocks are released once the first ones are confirmed. -/
def released
    (parcel : Parcel)
    (confirmed : Nat) :
    Nat :=
  min (confirmed + parcel.window) parcel.total

/-- The identifier of a fragment. -/
def idAt
    (parcel : Parcel)
    (index : Nat) :
    MessageId :=
  parcel.base + UInt16.ofNat index

/-- The fragment that carries a block. -/
def fragment
    (parcel : Parcel)
    (index : Nat) :
    Engine.Fragment :=
  { message := Engine.fragmentOf parcel.start (parcel.start.blockAt index)
      (parcel.idAt index)
    hooks := { onResend := some (.transfer parcel.setting.token parcel.serial) } }

/-- A fragment that waits to be sent. -/
def waiting
    (parcel : Parcel)
    (index : Nat) :
    PoolEntry :=
  PoolEntry.create parcel.setting.now (parcel.fragment index).message
    (parcel.fragment index).hooks

/-- A fragment that was sent. -/
def flying
    (parcel : Parcel)
    (index : Nat) :
    PoolEntry :=
  (parcel.waiting index).handedOut parcel.setting.now

/--
The queue from block `first` on, up to `last`, of which those
before `sent` were sent.
-/
def queue
    (parcel : Parcel)
    (first sent last : Nat) :
    List PoolEntry :=
  (List.range' first (sent - first)).map parcel.flying ++
    (List.range' sent (last - sent)).map parcel.waiting

/-- The handlers of these fragments. -/
def watched
    (parcel : Parcel)
    (first last : Nat) :
    Table MessageId AckHandler :=
  (List.range' first (last - first)).map fun index =>
    (parcel.idAt index,
      .fragment parcel.setting.token (parcel.fragment index).blockNumber)

/-- What a side needs to send a parcel. -/
structure IsSound (parcel : Parcel) : Prop where
  key_eq : parcel.whole.key = parcel.setting.token
  tokened : ∃ token, parcel.whole.token = some token ∧ token.bytes ≠ []
  routed : parcel.whole.target? = some parcel.setting.peer
  confirmable : parcel.whole.kind = .confirmable
  plain : parcel.whole.IsPlain
  readable : Wire.IsReadable parcel.whole
  positive : 0 < parcel.setting.arq.maxPayload
  long : parcel.setting.arq.maxPayload < parcel.whole.bodyLength
  fits : parcel.total ≤ 2 ^ 28
  windowPositive : 0 < parcel.setting.arq.windowSize
  windowSmall : parcel.setting.arq.windowSize < 2 ^ 16
  room : parcel.setting.arq.windowSize < parcel.setting.pool.capacity
  patient : parcel.setting.pool.IsPatient
  spans : parcel.setting.pool.Spans parcel.whole

variable {parcel : Parcel} {first sent last : Nat}

theorem blockCount_eq (sound : parcel.IsSound) :
    SendState.blockCount parcel.whole.bodyLength
      parcel.setting.arq.maxPayload = parcel.total :=
  SendState.blockCount_eq_of_le (Nat.le_of_lt sound.long)

theorem window_eq (sound : parcel.IsSound) :
    parcel.window = min parcel.setting.arq.windowSize parcel.total := by
  rw [← blockCount_eq sound]
  simp [window, start, SendState.windowSize, SendState.start, Window.size,
    Window.filled, Message.bodyLength]

theorem released_le_total (parcel : Parcel) (confirmed : Nat) :
    parcel.released confirmed ≤ parcel.total :=
  Nat.min_le_right _ _

/-! ## Identifiers -/

theorem idAt_succ (parcel : Parcel) (index : Nat) :
    parcel.idAt (index + 1) = parcel.idAt index + 1 := by
  unfold idAt
  rw [UInt16.ofNat_add, ← UInt16.add_assoc]
  rfl

/-- Two identifiers in a window are those of two fragments. -/
theorem idAt_inj
    {i j : Nat}
    (near : i < j + 2 ^ 16)
    (far : j < i + 2 ^ 16)
    (same : parcel.idAt i = parcel.idAt j) :
    i = j := by
  have offsets : UInt16.ofNat i = UInt16.ofNat j := by
    unfold idAt at same
    exact (UInt16.add_right_inj parcel.base).mp same
  have remainders := congrArg UInt16.toNat offsets
  simp only [UInt16.toNat_ofNat'] at remainders
  omega

/-- No fragment in a window has the identifier of one outside. -/
theorem idAt_not_mem
    {index count : Nat}
    (near : index < first + 2 ^ 16)
    (outside : index < first ∨ first + count ≤ index)
    (behind : first + count ≤ index + 2 ^ 16) :
    parcel.idAt index ∉ (List.range' first count).map parcel.idAt := by
  intro member
  obtain ⟨other, inWindow, same⟩ := List.mem_map.mp member
  obtain ⟨lower, upper⟩ := List.mem_range'_1.mp inWindow
  have equal : other = index := idAt_inj (by omega) (by omega) same
  omega

theorem keys_watched (parcel : Parcel) (first last : Nat) :
    Table.keys (parcel.watched first last) =
      (List.range' first (last - first)).map parcel.idAt := by
  unfold Table.keys watched
  rw [List.map_map]
  rfl

theorem ids_queue
    (parcel : Parcel)
    (firstLe : first ≤ sent)
    (sentLe : sent ≤ last) :
    (parcel.queue first sent last).map Pool.idOf =
      (List.range' first (last - first)).map parcel.idAt := by
  have split_eq : last - first = (sent - first) + (last - sent) := by omega
  have middle : first + 1 * (sent - first) = sent := by omega
  have ids (index : Nat) : (parcel.fragment index).message.id = parcel.idAt index :=
    Engine.id_fragmentOf _ _ _
  unfold queue
  rw [split_eq, ← List.range'_append, middle, List.map_append, List.map_append,
    List.map_map, List.map_map]
  congr 1
  · exact List.map_congr_left fun index _ => ids index
  · exact List.map_congr_left fun index _ => ids index

/-! ## The queue of fragments -/

theorem length_queue
    (firstLe : first ≤ sent)
    (sentLe : sent ≤ last) :
    (parcel.queue first sent last).length = last - first := by
  have lengths := congrArg List.length (ids_queue parcel firstLe sentLe)
  rw [List.length_map, List.length_map, List.length_range'] at lengths
  exact lengths

/-- The queue grows by the next fragment. -/
theorem queue_succ
    (parcel : Parcel)
    (first : Nat)
    (sentLe : sent ≤ last) :
    parcel.queue first sent (last + 1) =
      parcel.queue first sent last ++ [parcel.waiting last] := by
  have length_eq : last + 1 - sent = (last - sent) + 1 := by omega
  have end_eq : sent + 1 * (last - sent) = last := by omega
  unfold queue
  rw [length_eq, List.range'_concat, List.map_append, end_eq, List.append_assoc]
  rfl

theorem watched_succ
    (parcel : Parcel)
    (firstLe : first ≤ last) :
    parcel.watched first (last + 1) =
      parcel.watched first last ++
        [(parcel.idAt last,
          .fragment parcel.setting.token (parcel.fragment last).blockNumber)] := by
  have length_eq : last + 1 - first = (last - first) + 1 := by omega
  have end_eq : first + 1 * (last - first) = last := by omega
  unfold watched
  rw [length_eq, List.range'_concat, List.map_append, end_eq]
  rfl

/-- Before the fragment that is next to be sent all have been sent. -/
theorem queue_of_waiting
    (parcel : Parcel)
    (first : Nat)
    (more : sent < last) :
    parcel.queue first sent last =
      (List.range' first (sent - first)).map parcel.flying ++
        parcel.waiting sent ::
          (List.range' (sent + 1) (last - (sent + 1))).map parcel.waiting := by
  have length_eq : last - sent = (last - (sent + 1)) + 1 := by omega
  unfold queue
  rw [length_eq, List.range'_succ]
  rfl

/-- Sending it moves the mark behind it. -/
theorem queue_of_flying
    (parcel : Parcel)
    (firstLe : first ≤ sent) :
    (List.range' first (sent - first)).map parcel.flying ++
        parcel.flying sent ::
          (List.range' (sent + 1) (last - (sent + 1))).map parcel.waiting =
      parcel.queue first (sent + 1) last := by
  have length_eq : sent + 1 - first = (sent - first) + 1 := by omega
  have end_eq : first + 1 * (sent - first) = sent := by omega
  unfold queue
  rw [length_eq, List.range'_concat, List.map_append, end_eq, List.append_assoc]
  rfl

/-- The first fragment leaves the queue. -/
theorem queue_filter
    (sentAfter : first < sent)
    (sentLe : sent ≤ last)
    (near : last < first + 2 ^ 16) :
    ((parcel.queue first sent last).filter fun entry =>
      Pool.idOf entry ≠ parcel.idAt first) =
      parcel.queue (first + 1) sent last := by
  have ids (index : Nat) : Pool.idOf (parcel.waiting index) = parcel.idAt index :=
    Engine.id_fragmentOf _ _ _
  have flownIds (index : Nat) :
      Pool.idOf (parcel.flying index) = parcel.idAt index :=
    Engine.id_fragmentOf _ _ _
  have kept {index : Nat} (after : first < index) (inside : index < last) :
      parcel.idAt index ≠ parcel.idAt first := fun same =>
    Nat.ne_of_gt after (idAt_inj (by omega) (by omega) same)
  have length_eq : sent - first = (sent - (first + 1)) + 1 := by omega
  unfold queue
  rw [length_eq, List.range'_succ, List.map_cons, List.cons_append,
    List.filter_cons, if_neg (by simp [flownIds]), List.filter_eq_self.mpr]
  intro entry member
  rw [decide_eq_true_iff]
  rcases List.mem_append.mp member with isFlying | isWaiting
  · obtain ⟨index, inRange, rfl⟩ := List.mem_map.mp isFlying
    obtain ⟨lower, upper⟩ := List.mem_range'_1.mp inRange
    exact (flownIds index).symm ▸ kept (by omega) (by omega)
  · obtain ⟨index, inRange, rfl⟩ := List.mem_map.mp isWaiting
    obtain ⟨lower, upper⟩ := List.mem_range'_1.mp inRange
    exact (ids index).symm ▸ kept (by omega) (by omega)

/-- Its handler leaves with it. -/
theorem watched_erase
    (inside : first < last)
    (near : last < first + 2 ^ 16) :
    (parcel.watched first last).erase (parcel.idAt first) =
      parcel.watched (first + 1) last := by
  have length_eq : last - first = (last - (first + 1)) + 1 := by omega
  unfold watched Table.erase
  rw [length_eq, List.range'_succ, List.map_cons, List.filter_cons,
    if_neg (by simp), List.filter_eq_self.mpr]
  intro pair member
  rw [decide_eq_true_iff]
  obtain ⟨index, inRange, rfl⟩ := List.mem_map.mp member
  obtain ⟨lower, upper⟩ := List.mem_range'_1.mp inRange
  intro same
  have equal : index = first := idAt_inj (by omega) (by omega) same
  omega

/-! ## Fragments as messages -/

theorem fragment_eq
    (plain : parcel.whole.IsPlain)
    (index : Nat) :
    (parcel.fragment index).message =
      { parcel.whole with
        id := parcel.idAt index
        payload := some (parcel.start.blockAt index).data
        longResponse := false
        options :=
          parcel.whole.options ++
            [MessageOption.uint (Engine.blockOptionOf parcel.whole)
                (parcel.start.blockAt index).toRaw.toUInt64,
              MessageOption.uint .windowSize (UInt64.ofNat parcel.window)] } :=
  Engine.fragmentOf_eq plain _ _

theorem IsSound.isTokened (sound : parcel.IsSound) :
    Wire.IsTokened parcel.whole :=
  sound.tokened

/-- The part of the payload that a block carries. -/
theorem isOf_blockAt
    (sound : parcel.IsSound)
    {index : Nat}
    (inside : index < parcel.total) :
    (parcel.start.blockAt index).number.toNat = index ∧
      (parcel.start.blockAt index).IsOf parcel.whole.body
        parcel.setting.arq.maxPayload ∧
      (parcel.start.blockAt index).data ≠ [] := by
  have fits : parcel.start.total ≤ UInt32.size :=
    Nat.le_trans sound.fits (by decide)
  have found := SendState.block?_eq_blockAt sound.positive inside
  obtain ⟨isOf, nonempty⟩ := SendState.isOf_of_block? sound.positive fits found
  refine ⟨?_, isOf, nonempty⟩
  exact UInt32.toNat_ofNat_of_lt' (Nat.lt_of_lt_of_le inside fits)

/-- A parcel has at least two blocks. -/
theorem one_lt_total (sound : parcel.IsSound) :
    1 < parcel.total := by
  have covered :=
    SendState.length_le_mul_iff parcel.whole.body.length 1 sound.positive
  have long := sound.long
  unfold Message.bodyLength at long
  have blocks : parcel.total =
      SendState.blocksFor parcel.whole.body.length parcel.setting.arq.maxPayload :=
    rfl
  omega

end Parcel

end Coap
