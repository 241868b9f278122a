import Mathlib.Tactic.Common
import Coap.Proofs.Engine.Fragment
import Coap.Proofs.Transfer.SendRun

namespace Coap

/-!
# Cutting a message into fragments

An outbound transfer of a message keeps its payload, and confirms only blocks of
which some fact is known, such as that the peer has them. Whatever it cuts is a
fragment of that message.
-/

/-- An outbound transfer of `whole`, of whose confirmed blocks `known` holds. -/
structure SendState.Sends
    (state : SendState)
    (whole : Message)
    (blockSize : Nat)
    (known : Nat → Prop) :
    Prop where
  data_eq : state.data = whole.body
  blockSize_eq : state.blockSize = blockSize
  whole_eq : state.whole = whole
  tracks : ∃ released confirmed,
    state.Tracks released confirmed ∧ ∀ number, confirmed number → known number

/-- A message that a transfer of `whole` cuts. -/
def Message.IsFragmentOf
    (message whole : Message)
    (blockSize : Nat) :
    Prop :=
  ∃ state number block id,
    state.data = whole.body ∧ state.blockSize = blockSize ∧ state.whole = whole ∧
      state.block? number = some block ∧ message = Engine.fragmentOf state block id

namespace SendState.Sends

variable {state : SendState} {whole : Message} {blockSize : Nat}
variable {known wider : Nat → Prop}

theorem of_start
    (now : Timestamp)
    (whole : Message)
    (windowSize blockSize : Nat)
    (known : Nat → Prop) :
    (start now whole.body windowSize blockSize whole).Sends whole
      blockSize known where
  data_eq := rfl
  blockSize_eq := rfl
  whole_eq := rfl
  tracks := ⟨0, fun _ => False, tracks_start now whole.body windowSize blockSize
    whole, fun _ impossible => impossible.elim⟩

/-- The counters do not matter. -/
theorem with_stats
    (sends : state.Sends whole blockSize known)
    (stats : TransferStats) :
    { state with stats := stats }.Sends whole blockSize known := by
  obtain ⟨released, confirmed, tracks, isKnown⟩ := sends.tracks
  exact ⟨sends.data_eq, sends.blockSize_eq, sends.whole_eq, released, confirmed,
    { tracks with }, isKnown⟩

theorem mono
    (sends : state.Sends whole blockSize known)
    (included : ∀ number, known number → wider number) :
    state.Sends whole blockSize wider := by
  obtain ⟨released, confirmed, tracks, isKnown⟩ := sends.tracks
  exact ⟨sends.data_eq, sends.blockSize_eq, sends.whole_eq, released, confirmed,
    tracks, fun number isConfirmed => included number (isKnown number isConfirmed)⟩

/-- A confirmation needs what is known of a confirmed block. -/
theorem confirm
    (sends : state.Sends whole blockSize known)
    {number : UInt32}
    (isKnown : known number.toNat) :
    (state.confirm number).Sends whole blockSize known := by
  obtain ⟨released, confirmed, tracks, knownBefore⟩ := sends.tracks
  refine ⟨sends.data_eq, sends.blockSize_eq, sends.whole_eq, released, _,
    tracks.confirm number, ?_⟩
  rintro other (before | ⟨rfl, _⟩)
  · exact knownBefore other before
  · exact isKnown

/-- A complete transfer has every block confirmed. -/
theorem known_of_isCompleted
    (sends : state.Sends whole blockSize known)
    (positive : 0 < blockSize)
    (completed : state.isCompleted = true) :
    ∀ number < blocksFor whole.body.length blockSize, known number := by
  obtain ⟨released, confirmed, tracks, isKnown⟩ := sends.tracks
  have all :=
    tracks.confirmed_of_isCompleted (sends.blockSize_eq ▸ positive) completed
  unfold total at all
  rw [sends.data_eq, sends.blockSize_eq] at all
  exact fun number inside => isKnown number (all number inside)

end SendState.Sends

/-- The window of a fresh transfer is no wider than asked for. -/
theorem SendState.windowSize_start_le
    (now : Timestamp)
    (data : List UInt8)
    (windowSize blockSize : Nat)
    (whole : Message) :
    (start now data windowSize blockSize whole).windowSize ≤ windowSize := by
  unfold SendState.windowSize start Window.size Window.filled
  dsimp only
  rw [List.length_replicate]
  exact Nat.min_le_left _ _

/--
The state sends the same blocks of the same message, behind a
window of the same size.
-/
structure SendState.Continues (state earlier : SendState) : Prop where
  data_eq : state.data = earlier.data
  blockSize_eq : state.blockSize = earlier.blockSize
  whole_eq : state.whole = earlier.whole
  size_eq : state.window.size = earlier.window.size

namespace SendState.Continues

variable {state other earlier : SendState}

theorem refl (state : SendState) : state.Continues state :=
  ⟨rfl, rfl, rfl, rfl⟩

theorem trans
    (first : state.Continues other)
    (second : other.Continues earlier) :
    state.Continues earlier :=
  ⟨first.data_eq.trans second.data_eq, first.blockSize_eq.trans second.blockSize_eq,
    first.whole_eq.trans second.whole_eq, first.size_eq.trans second.size_eq⟩

theorem pop? (state : SendState) : state.pop?.2.Continues state :=
  have frame := state.pop?_frame
  ⟨frame.1, frame.2.1, frame.2.2.1, frame.2.2.2⟩

theorem confirm
    (state : SendState)
    (number : UInt32) :
    (state.confirm number).Continues state :=
  ⟨rfl, rfl, rfl, state.confirm_size number⟩

/-- The counters do not matter. -/
theorem with_stats
    (continues : state.Continues earlier)
    (stats : TransferStats) :
    { state with stats := stats }.Continues earlier :=
  { continues with }

/-- The blocks are the same. -/
theorem block?_eq
    (continues : state.Continues earlier)
    (number : Nat) :
    state.block? number = earlier.block? number := by
  unfold block?
  rw [continues.data_eq, continues.blockSize_eq]

/-- The fragments are the same. -/
theorem fragmentOf_eq
    (continues : state.Continues earlier)
    (block : Block)
    (id : MessageId) :
    Engine.fragmentOf state block id = Engine.fragmentOf earlier block id := by
  unfold Engine.fragmentOf windowSize
  rw [continues.whole_eq, continues.size_eq]

end SendState.Continues

namespace Engine

/-- The message is a fragment of a transfer. -/
def Carries
    (state : SendState)
    (message : Message) :
    Prop :=
  ∃ number block, state.block? number = some block ∧
    message = fragmentOf state block message.id

theorem Carries.of_continues
    {state earlier : SendState}
    {message : Message}
    (carries : Carries state message)
    (continues : state.Continues earlier) :
    Carries earlier message := by
  obtain ⟨number, block, isBlock, message_eq⟩ := carries
  rw [continues.block?_eq] at isBlock
  rw [continues.fragmentOf_eq] at message_eq
  exact ⟨number, block, isBlock, message_eq⟩

end Engine

/-- The transfer when one more fragment is in flight. -/
def OutboundTransfer.withFragment
    (transfer : OutboundTransfer)
    (state : SendState)
    (id : MessageId) :
    OutboundTransfer :=
  { transfer with
    state := state.onMessage
    inFlight := if id ∈ transfer.inFlight then transfer.inFlight
      else transfer.inFlight ++ [id] }

theorem OutboundTransfer.mem_withFragment
    (transfer : OutboundTransfer)
    {state : SendState}
    {id other : MessageId} :
    other ∈ (transfer.withFragment state id).inFlight ↔
      other ∈ transfer.inFlight ∨ other = id := by
  unfold withFragment
  dsimp only
  split
  · next member =>
      constructor
      · exact .inl
      · rintro (before | rfl)
        · exact before
        · exact member
  · rw [List.mem_append, List.mem_singleton]

namespace Engine

/-- A transfer that was cut goes on, and all its fragments are in flight. -/
structure Cutting.IsOf
    (cutting : Cutting)
    (token : TokenKey)
    (transfer : OutboundTransfer) :
    Prop where
  continues : cutting.transfer.state.Continues transfer.state
  hooks_eq : cutting.transfer.hooks = transfer.hooks
  kept : ∀ id ∈ transfer.inFlight, id ∈ cutting.transfer.inFlight
  inFlight : ∀ id ∈ cutting.transfer.inFlight,
    id ∈ transfer.inFlight ∨ ∃ fragment ∈ cutting.fragments,
    fragment.message.id = id
  flies : ∀ fragment ∈ cutting.fragments,
    fragment.message.id ∈ cutting.transfer.inFlight
  hooked : ∀ fragment ∈ cutting.fragments,
    fragment.hooks = { onResend := some (.transfer token transfer.serial) }
  carries : ∀ fragment ∈ cutting.fragments, Carries transfer.state fragment.message

theorem Cutting.IsOf.of_none
    (transfer : OutboundTransfer)
    (token : TokenKey)
    {state : SendState}
    (continues : state.Continues transfer.state)
    (nextId : MessageId) :
    Cutting.IsOf ⟨[], { transfer with state := state }, nextId⟩ token transfer where
  continues := continues
  hooks_eq := rfl
  kept := fun _ member => member
  inFlight := fun _ member => .inl member
  flies := by simp
  hooked := by simp
  carries := by simp

theorem cutWithin_isOf
    (token : TokenKey)
    (room : Nat)
    (transfer : OutboundTransfer)
    (nextId : MessageId) :
    (cutWithin token room transfer nextId).IsOf token transfer ∧
      (cutWithin token room transfer nextId).fragments.length ≤ room := by
  induction room generalizing transfer nextId with
  | zero => exact ⟨.of_none transfer token (.refl _) _, Nat.le_refl _⟩
  | succ room inductionHypothesis =>
      have popped := SendState.Continues.pop? transfer.state
      unfold cutWithin
      split
      · next state isNone =>
          rw [isNone] at popped
          exact ⟨.of_none transfer token popped nextId, Nat.zero_le _⟩
      · next block state isSome =>
          rw [isSome] at popped
          have inside : ∃ number, transfer.state.block? number = some block := by
            unfold SendState.pop? at isSome
            split at isSome
            · cases isSome
            · exact ⟨_, (Prod.mk.inj isSome).1⟩
          obtain ⟨number, isBlock⟩ := inside
          have counted : state.onMessage.Continues transfer.state :=
            popped.with_stats _
          have id_eq : (fragmentOf state block nextId).id = nextId :=
            id_fragmentOf _ _ _
          obtain ⟨others, lengthLe⟩ :=
            inductionHypothesis (transfer.withFragment state nextId) (nextId + 1)
          have drawn : nextId ∈
              (cutWithin token room (transfer.withFragment state nextId)
                (nextId + 1)).transfer.inFlight :=
            others.kept nextId (transfer.mem_withFragment.mpr (.inr rfl))
          refine ⟨⟨others.continues.trans counted, others.hooks_eq, ?_, ?_, ?_, ?_,
            ?_⟩, Nat.succ_le_succ lengthLe⟩
          · exact fun id member =>
              others.kept id (transfer.mem_withFragment.mpr (.inl member))
          · intro id member
            rcases others.inFlight id member with
              earlier | ⟨fragment, inOthers, same⟩
            · rcases transfer.mem_withFragment.mp earlier with before | isNew
              · exact .inl before
              · exact .inr ⟨_, List.mem_cons_self, id_eq.trans isNew.symm⟩
            · exact .inr ⟨fragment, List.mem_cons_of_mem _ inOthers, same⟩
          · exact List.forall_mem_cons.mpr ⟨id_eq.symm ▸ drawn, others.flies⟩
          · exact List.forall_mem_cons.mpr ⟨rfl, others.hooked⟩
          · refine List.forall_mem_cons.mpr ⟨⟨number, block, isBlock, ?_⟩, ?_⟩
            · rw [id_eq]
              exact popped.fragmentOf_eq block nextId
            · exact fun fragment inOthers =>
                (others.carries fragment inOthers).of_continues counted

/-- Cutting what the window releases goes on with the transfer. -/
theorem cut_isOf
    (token : TokenKey)
    (transfer : OutboundTransfer)
    (nextId : MessageId) :
    (cut token transfer nextId).IsOf token transfer ∧
      (cut token transfer nextId).fragments.length ≤
        transfer.state.windowSize + 1 :=
  cutWithin_isOf token (transfer.state.windowSize + 1) transfer nextId

/-- The identifiers of the fragments that are cut count up. -/
theorem cutWithin_ids
    (token : TokenKey)
    (room : Nat)
    (transfer : OutboundTransfer)
    (nextId : MessageId) :
    (cutWithin token room transfer nextId).fragments.map (·.message.id) =
      (List.range (cutWithin token room transfer nextId).fragments.length).map
        fun index => nextId + UInt16.ofNat index := by
  induction room generalizing transfer nextId with
  | zero => rfl
  | succ room inductionHypothesis =>
      unfold cutWithin
      split
      · rfl
      · next block state _ =>
          have others :=
            inductionHypothesis (transfer.withFragment state nextId) (nextId + 1)
          have shifted (index : Nat) :
              nextId + 1 + UInt16.ofNat index =
                nextId + UInt16.ofNat (index + 1) := by
            rw [UInt16.ofNat_add, UInt16.add_assoc, UInt16.add_comm 1]
            rfl
          have id_eq : (fragmentOf state block nextId).id = nextId :=
            id_fragmentOf _ _ _
          simp only [List.map_cons, List.length_cons, List.range_succ_eq_map,
            List.map_map, id_eq]
          refine congrArg₂ List.cons (UInt16.add_zero nextId).symm (others.trans ?_)
          exact List.map_congr_left fun index _ => shifted index

/-- Every block that cutting releases has a fragment. -/
theorem cutWithin_tracks
    (token : TokenKey)
    (room : Nat)
    {transfer : OutboundTransfer}
    {released : Nat}
    {confirmed : Nat → Prop}
    (positive : 0 < transfer.state.blockSize)
    (tracks : transfer.state.Tracks released confirmed)
    (nextId : MessageId) :
    ∃ further,
      (cutWithin token room transfer nextId).transfer.state.Tracks
        further confirmed ∧
        ∀ number, released ≤ number → number < further →
          ∃ fragment ∈ (cutWithin token room transfer nextId).fragments, ∃ block,
            transfer.state.block? number = some block ∧
              fragment.message =
                fragmentOf transfer.state block fragment.message.id := by
  induction room generalizing transfer released nextId with
  | zero =>
      exact ⟨released, tracks,
        fun number lower upper => absurd upper (Nat.not_lt.mpr lower)⟩
  | succ room inductionHypothesis =>
      have popped := tracks.pop?_snd positive
      have next {block : Block} (isPopped : transfer.state.pop?.1 = some block) :=
        tracks.block?_of_pop? positive isPopped
      have continues := SendState.Continues.pop? transfer.state
      unfold cutWithin
      split
      · next state isNone =>
          rw [isNone] at popped
          exact ⟨released, popped,
            fun number lower upper => absurd upper (Nat.not_lt.mpr lower)⟩
      · next block state isSome =>
          rw [isSome] at popped next continues
          have counted : state.onMessage.Continues transfer.state :=
            continues.with_stats _
          have positiveAfter :
              0 < (transfer.withFragment state nextId).state.blockSize :=
            counted.blockSize_eq.symm ▸ positive
          obtain ⟨further, tracksOn, carried⟩ :=
            @inductionHypothesis (transfer.withFragment state nextId)
              (released + 1) positiveAfter
              { popped with } (nextId + 1)
          refine ⟨further, tracksOn, fun number lower upper => ?_⟩
          rcases Nat.eq_or_lt_of_le lower with rfl | above
          · have id_eq : (fragmentOf state block nextId).id = nextId :=
              id_fragmentOf _ _ _
            refine ⟨_, List.mem_cons_self, block, next rfl, ?_⟩
            dsimp only
            rw [id_eq, continues.fragmentOf_eq]
          · obtain ⟨fragment, member, carriedBlock, isBlock, message_eq⟩ :=
              carried number above upper
            refine ⟨fragment, List.mem_cons_of_mem _ member, carriedBlock, ?_, ?_⟩
            · rw [← counted.block?_eq]
              exact isBlock
            · rw [← counted.fragmentOf_eq]
              exact message_eq

/--
Cutting goes on with the same transfer, and cuts fragments of its message only.
-/
theorem cut_sends
    (token : TokenKey)
    {transfer : OutboundTransfer}
    {whole : Message}
    {blockSize : Nat}
    {known : Nat → Prop}
    (positive : 0 < blockSize)
    (sends : transfer.state.Sends whole blockSize known)
    (nextId : MessageId) :
    (cut token transfer nextId).transfer.state.Sends whole blockSize known ∧
      ∀ fragment ∈ (cut token transfer nextId).fragments,
        fragment.message.IsFragmentOf whole blockSize := by
  obtain ⟨isOf, _⟩ := cut_isOf token transfer nextId
  obtain ⟨released, confirmed, tracks, isKnown⟩ := sends.tracks
  rw [← sends.blockSize_eq] at positive
  obtain ⟨further, tracksOn, _⟩ :=
    cutWithin_tracks token (transfer.state.windowSize + 1) positive tracks nextId
  constructor
  · exact
      { data_eq := isOf.continues.data_eq.trans sends.data_eq
        blockSize_eq := isOf.continues.blockSize_eq.trans sends.blockSize_eq
        whole_eq := isOf.continues.whole_eq.trans sends.whole_eq
        tracks := ⟨further, confirmed, tracksOn, isKnown⟩ }
  · intro fragment member
    obtain ⟨number, block, isBlock, message_eq⟩ := isOf.carries fragment member
    exact ⟨transfer.state, number, block, fragment.message.id, sends.data_eq,
      sends.blockSize_eq, sends.whole_eq, isBlock, message_eq⟩

end Engine

end Coap
