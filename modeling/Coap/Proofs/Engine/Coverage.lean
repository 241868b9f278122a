import Mathlib.Tactic.Common
import Coap.Proofs.Engine.Cut
import Coap.Proofs.Engine.Guarding

namespace Coap

/-!
# Blocks that are out are guarded

A transfer stays in progress until its blocks are confirmed or it fails, so each
block that is out and not confirmed must have its fragment guarded. `Covered` says
so of every transfer. It holds as long as identifiers are not used twice and nobody
takes a fragment out of the pool without its transfer knowing.
-/

/-- A transfer cuts confirmable fragments, and few enough blocks to number them. -/
structure OutboundTransfer.IsRegular
    (transfer : OutboundTransfer)
    (arq : ArqConfig) :
    Prop where
  positive : 0 < transfer.state.blockSize
  small : transfer.state.total ≤ 2 ^ 28
  narrow : transfer.state.windowSize ≤ arq.windowSize
  confirmable : transfer.state.whole.kind = .confirmable

/-- The message is a fragment of the transfer that carries the block of a number. -/
def OutboundTransfer.HasSent
    (transfer : OutboundTransfer)
    (number : Nat)
    (message : Message) :
    Prop :=
  message.id ∈ transfer.inFlight ∧
    ∃ block, transfer.state.block? number = some block ∧
      message = Engine.fragmentOf transfer.state block message.id

namespace OutboundTransfer

variable {transfer earlier : OutboundTransfer} {arq : ArqConfig} {number : Nat}
variable {message : Message}

theorem IsRegular.of_continues
    (regular : earlier.IsRegular arq)
    (continues : transfer.state.Continues earlier.state) :
    transfer.IsRegular arq where
  positive := continues.blockSize_eq.symm ▸ regular.positive
  small := by
    unfold SendState.total
    rw [continues.data_eq, continues.blockSize_eq]
    exact regular.small
  narrow := by
    unfold SendState.windowSize
    rw [continues.size_eq]
    exact regular.narrow
  confirmable := continues.whole_eq.symm ▸ regular.confirmable

/-- Block numbers are few enough to be told apart. -/
theorem IsRegular.toNat_number
    (regular : transfer.IsRegular arq)
    {block : Block}
    (isBlock : transfer.state.block? number = some block) :
    block.number.toNat = number ∧ block.number.toNat < 2 ^ 28 := by
  have inside := (SendState.block?_isSome_iff number regular.positive).mp
    (Option.isSome_of_mem isBlock)
  have small := regular.small
  rw [(SendState.block?_spec regular.positive isBlock).1]
  have toNat_eq : (UInt32.ofNat number).toNat = number % 2 ^ 32 :=
    UInt32.toNat_ofNat'
  omega

/-- What counted differs at most, so the transfer goes on with the same blocks. -/
theorem IsLike.continues (isLike : transfer.IsLike earlier) :
    transfer.state.Continues earlier.state := by
  obtain ⟨_, rfl⟩ := isLike
  exact ⟨rfl, rfl, rfl, rfl⟩

theorem IsLike.tracks
    (isLike : transfer.IsLike earlier)
    {released : Nat}
    {confirmed : Nat → Prop}
    (tracks : earlier.state.Tracks released confirmed) :
    transfer.state.Tracks released confirmed := by
  obtain ⟨_, rfl⟩ := isLike
  exact { tracks with }

theorem HasSent.of_continues
    (sent : earlier.HasSent number message)
    (continues : transfer.state.Continues earlier.state)
    (inFlight : message.id ∈ transfer.inFlight) :
    transfer.HasSent number message := by
  obtain ⟨_, block, isBlock, message_eq⟩ := sent
  refine ⟨inFlight, block, ?_, ?_⟩
  · rw [continues.block?_eq]
    exact isBlock
  · rw [continues.fragmentOf_eq]
    exact message_eq

end OutboundTransfer

namespace Engine

/--
Each block that is out is confirmed, exempt, or carried by a guarded fragment.
-/
def Shelters
    (engine : Engine)
    (exempt : Nat → Prop)
    (token : TokenKey)
    (transfer : OutboundTransfer) :
    Prop :=
  ∃ released confirmed, transfer.state.Tracks released confirmed ∧
    ∀ number < released,
      confirmed number ∨ exempt number ∨
        ∃ message, transfer.HasSent number message ∧ engine.Guards token message

/--
Messages are queued under their own identifiers, and only capacity takes them away.
-/
structure Tidy (engine : Engine) : Prop where
  keyed : engine.pool.IsKeyed
  lasting : engine.pool.entries.idle = none
  unlimited : engine.acks.capacity = none

/-- The identifier belongs to a fragment of a transfer in progress. -/
def InFlight
    (engine : Engine)
    (id : MessageId) :
    Prop :=
  ∃ token transfer,
    engine.outgoing.find? token = some transfer ∧ id ∈ transfer.inFlight

instance (engine : Engine) (id : MessageId) : Decidable (engine.InFlight id) :=
  inferInstanceAs (Decidable (∃ token transfer,
    engine.outgoing.find? token = some transfer ∧ id ∈ transfer.inFlight))

/-- Blocks that are out are guarded, up to the exempt ones. -/
structure Covered
    (exempt : TokenKey → Nat → Prop)
    (engine : Engine) :
    Prop where
  tidy : engine.Tidy
  apart : engine.Apart
  passes : ∀ id entry,
    engine.InFlight id → engine.pool.entries.Stores id entry →
      engine.needsTransfer entry.message = false ∧ entry.message.kind = .confirmable
  regular : ∀ token transfer,
    engine.outgoing.find? token = some transfer → transfer.IsRegular engine.arq
  sheltered : ∀ token transfer,
    engine.outgoing.find? token = some transfer →
      engine.Shelters (exempt token) token transfer

/-- No block is exempt. -/
def NoExemption (_ : TokenKey) (_ : Nat) : Prop :=
  False

variable {exempt wider : TokenKey → Nat → Prop} {engine later : Engine}
variable {gone : MessageId → Prop} {token : TokenKey}

namespace Tidy

theorem of_windsDown
    (tidy : engine.Tidy)
    (winds : WindsDown gone engine later) :
    later.Tidy where
  keyed := tidy.keyed.of_thins winds.pool
  lasting := winds.pool.idle_eq.trans tidy.lasting
  unlimited := winds.acksCapacity_eq.trans tidy.unlimited

theorem register
    (tidy : engine.Tidy)
    (id : MessageId)
    (handler : AckHandler) :
    (engine.register id handler).Tidy :=
  { tidy with unlimited := Cache.insert_bounds.1.trans tidy.unlimited }

theorem inserted
    (tidy : engine.Tidy)
    (message : Message)
    (hooks : Hooks) :
    (engine.inserted message hooks).Tidy :=
  { tidy with
    keyed := tidy.keyed.enqueue engine.now message hooks
    lasting := by
      unfold Engine.inserted
      dsimp only
      rw [Pool.enqueue_entries, Cache.insert_bounds.2]
      exact tidy.lasting }

end Tidy

/-- Queueing is inserting, and giving up what had to make room. -/
theorem enqueue_windsDown
    (engine : Engine)
    (message : Message)
    (hooks : Hooks) :
    ∃ gone, WindsDown gone (engine.inserted message hooks)
      (engine.enqueue message hooks) := by
  unfold enqueue
  dsimp only
  split
  · exact ⟨fun _ => False, .refl _⟩
  · next entry _ => exact ⟨_, giveUp_windsDown _ entry .evicted⟩

/--
What is queued after queueing a message is that message, or was queued before.
-/
theorem stores_of_enqueue
    {message : Message}
    {hooks : Hooks}
    {id : MessageId}
    {entry : PoolEntry}
    (stores : (engine.enqueue message hooks).pool.entries.Stores id entry) :
    (id = message.id ∧ entry.message = message) ∨
      ∃ earlier, engine.pool.entries.Stores id earlier ∧
        entry.message = earlier.message := by
  obtain ⟨gone, winds⟩ := engine.enqueue_windsDown message hooks
  obtain ⟨middle, middleStores, isLike⟩ := winds.pool.queued id entry stores
  rcases Pool.stores_of_enqueue middleStores with ⟨isNew, rfl⟩ | before
  · exact .inl ⟨isNew, isLike.1⟩
  · exact .inr ⟨middle, before, isLike.1⟩

/-- An identifier that is not in flight belongs to no guarded fragment. -/
theorem Spares.of_idle
    {id : MessageId}
    (idle : ¬ engine.InFlight id) :
    engine.Spares id := by
  rintro token transfer message found member _ rfl
  exact idle ⟨token, transfer, found, member⟩

theorem InFlight.of_outgoing
    (outgoing : ∀ token transfer,
      later.outgoing.find? token = some transfer →
        ∃ earlier, engine.outgoing.find? token = some earlier ∧
          transfer.IsLike earlier)
    {id : MessageId}
    (inFlight : later.InFlight id) :
    engine.InFlight id := by
  obtain ⟨token, transfer, found, member⟩ := inFlight
  obtain ⟨earlier, earlierFound, isLike⟩ := outgoing token transfer found
  exact ⟨token, earlier, earlierFound, isLike.inFlight_eq ▸ member⟩

namespace Covered

/-- Transfers go on or end, and the blocks of those that go on are covered. -/
theorem of_frame
    (covered : engine.Covered exempt)
    (tidy : later.Tidy)
    (arq_eq : later.arq = engine.arq)
    (outgoing : ∀ token transfer,
      later.outgoing.find? token = some transfer →
        ∃ earlier, engine.outgoing.find? token = some earlier ∧
          transfer.IsLike earlier)
    (passes : ∀ id entry,
      later.InFlight id → later.pool.entries.Stores id entry →
        engine.needsTransfer entry.message = false ∧
          entry.message.kind = .confirmable)
    (kept : ∀ token transfer number message,
      engine.outgoing.find? token = some transfer →
        later.outgoing.find? token ≠ none →
        transfer.HasSent number message → engine.Guards token message →
          wider token number ∨ later.Guards token message)
    (included : ∀ token number, exempt token number → wider token number) :
    later.Covered wider where
  tidy := tidy
  apart := covered.apart.of_outgoing outgoing
  passes := by
    intro id entry inFlight stores
    rw [needsTransfer_congr arq_eq]
    exact passes id entry inFlight stores
  regular := by
    intro token transfer found
    obtain ⟨earlier, earlierFound, isLike⟩ := outgoing token transfer found
    rw [arq_eq]
    exact (covered.regular token earlier earlierFound).of_continues isLike.continues
  sheltered := by
    intro token transfer found
    obtain ⟨earlier, earlierFound, isLike⟩ := outgoing token transfer found
    obtain ⟨released, confirmed, tracks, shelters⟩ :=
      covered.sheltered token earlier earlierFound
    refine ⟨released, confirmed, isLike.tracks tracks, fun number isOut => ?_⟩
    rcases shelters number isOut with
      isConfirmed | isExempt | ⟨message, sent, guards⟩
    · exact .inl isConfirmed
    · exact .inr (.inl (included token number isExempt))
    · have remains : later.outgoing.find? token ≠ none :=
        Option.ne_none_iff_exists'.mpr ⟨transfer, found⟩
      refine .inr ((kept token earlier number message earlierFound remains sent
        guards).imp_right
        fun stillGuards => ⟨message, ?_, stillGuards⟩)
      exact sent.of_continues isLike.continues (isLike.inFlight_eq ▸ sent.1)

/-- What keeps guarded fragments guarded keeps the blocks covered. -/
theorem of_retains
    (covered : engine.Covered exempt)
    (retains : Retains engine later)
    (tidy : later.Tidy)
    (arq_eq : later.arq = engine.arq)
    (passes : ∀ id entry,
      later.InFlight id → later.pool.entries.Stores id entry →
        engine.needsTransfer entry.message = false ∧
          entry.message.kind = .confirmable) :
    later.Covered exempt :=
  covered.of_frame tidy arq_eq retains.outgoing passes
    (fun token transfer _ message found remains sent guards =>
      .inr (retains.guards token transfer message found remains sent.1 guards))
    fun _ _ => id

/--
What is still queued of fragments in flight passes, when an engine has wound down.
-/
theorem passes_of_windsDown
    (covered : engine.Covered exempt)
    (winds : WindsDown gone engine later)
    {id : MessageId}
    {entry : PoolEntry}
    (inFlight : later.InFlight id)
    (stores : later.pool.entries.Stores id entry) :
    engine.needsTransfer entry.message = false ∧
      entry.message.kind = .confirmable := by
  obtain ⟨earlier, earlierStores, isLike⟩ := winds.pool.queued id entry stores
  rw [isLike.1]
  exact covered.passes id earlier
    (.of_outgoing winds.outgoing inFlight) earlierStores

theorem of_retains_windsDown
    (covered : engine.Covered exempt)
    (retains : Retains engine later)
    (winds : WindsDown gone engine later) :
    later.Covered exempt :=
  covered.of_retains retains
    (covered.tidy.of_windsDown winds) winds.arq_eq fun _ _ =>
    covered.passes_of_windsDown winds

/-- What winds down may lose guarded fragments of transfers that end. -/
theorem of_windsDown
    (covered : engine.Covered exempt)
    (winds : WindsDown gone engine later)
    (ends : ∀ token transfer message,
      engine.outgoing.find? token = some transfer → message.id ∈ transfer.inFlight →
        engine.Guards token message → gone message.id →
          later.outgoing.find? token = none) :
    later.Covered exempt :=
  covered.of_retains_windsDown
    (.of_windsDown covered.apart covered.tidy.lasting winds ends) winds

/-- What takes away no fragment in flight keeps the blocks covered. -/
theorem of_spared
    (covered : engine.Covered exempt)
    (winds : WindsDown gone engine later)
    (spared : ∀ id, engine.InFlight id → ¬ gone id) :
    later.Covered exempt :=
  covered.of_windsDown winds fun token transfer message found member _ isGone =>
    (spared message.id ⟨token, transfer, found, member⟩ isGone).elim

theorem of_winds
    (covered : engine.Covered exempt)
    (winds : ∀ gone, WindsDown gone engine later) :
    later.Covered exempt :=
  covered.of_spared (winds fun _ => False) fun _ _ => id

/-- Blocks that are guarded after all need no exemption. -/
theorem of_guarded
    (covered : engine.Covered wider)
    (guarded : ∀ token transfer number,
      engine.outgoing.find? token = some transfer → wider token number →
        exempt token number ∨
          ∃ message, transfer.HasSent number message ∧
            engine.Guards token message) :
    engine.Covered exempt :=
  { covered with
    sheltered := by
      intro token transfer found
      obtain ⟨released, confirmed, tracks, shelters⟩ :=
        covered.sheltered token transfer found
      refine ⟨released, confirmed, tracks, fun number isOut => ?_⟩
      rcases shelters number isOut with isConfirmed | isWider | guards
      · exact .inl isConfirmed
      · exact .inr (guarded token transfer number found isWider)
      · exact .inr (.inr guards) }

/-- Who waits for responses does not matter. -/
theorem with_expected
    (covered : engine.Covered exempt)
    (expected : Cache TokenKey ResponseHandler) :
    { engine with expected := expected }.Covered exempt :=
  { covered with tidy := { covered.tidy with } }

/-- A fresh engine has no transfers. -/
theorem create
    (poolConfig : PoolConfig)
    (arqConfig : ArqConfig)
    (nextId : MessageId) :
    (create poolConfig arqConfig nextId).Covered NoExemption where
  tidy :=
    { keyed := by rintro id entry ⟨slot, found, _⟩; cases found
      lasting := rfl
      unlimited := rfl }
  apart := by intro token other transfer rival id found; cases found
  passes := by rintro id entry _ ⟨slot, found, _⟩; cases found
  regular := by intro token transfer found; cases found
  sheltered := by intro token transfer found; cases found

/-! ## Queueing -/

theorem register
    (covered : engine.Covered exempt)
    {id : MessageId}
    (spares : engine.Spares id)
    (handler : AckHandler) :
    (engine.register id handler).Covered exempt :=
  covered.of_retains (register_retains covered.tidy.unlimited spares handler)
    (covered.tidy.register id handler) rfl covered.passes

/--
A message is queued that replaces no guarded fragment; if it is one, it passes.
-/
theorem enqueue
    (covered : engine.Covered exempt)
    {message : Message}
    (spares : engine.Spares message.id)
    (passes : engine.InFlight message.id →
      engine.needsTransfer message = false ∧ message.kind = .confirmable)
    (hooks : Hooks) :
    (engine.enqueue message hooks).Covered exempt := by
  have retains := enqueue_retains covered.tidy.keyed covered.tidy.lasting
    covered.apart spares hooks
  obtain ⟨gone, winds⟩ := engine.enqueue_windsDown message hooks
  refine covered.of_retains retains
    ((covered.tidy.inserted message hooks).of_windsDown winds) winds.arq_eq ?_
  intro id entry inFlight stores
  have wasInFlight := InFlight.of_outgoing retains.outgoing inFlight
  rcases stores_of_enqueue stores with ⟨rfl, isNew⟩ | ⟨earlier, earlierStores, same⟩
  · rw [isNew]
    exact passes wasInFlight
  · rw [same]
    exact covered.passes id earlier wasInFlight earlierStores

end Covered

end Engine

end Coap
