import Mathlib.Tactic.Common
import Coap.Proofs.Engine.Discipline
import Coap.Proofs.Engine.Resupply

namespace Coap

/-!
# The last block of a transfer

A transfer is complete when its blocks are confirmed from the first one to the last.
A block that has just been released is not confirmed, so the confirmation that
completes a transfer releases no further block: nothing is cut, and all that changes
is that the transfer ends.
-/

namespace Window

variable {α : Type}

/-- The slot at the tail of a window that has moved up is empty. -/
theorem read?_tail_of_advance
    {window : Window α}
    {value : α}
    (moved : window.advance.1 = some value) :
    window.advance.2.read? window.advance.2.tail = none := by
  unfold advance at moved ⊢
  split at moved
  · next filled rest slots_eq =>
      unfold read? tail slot? size
      have position : (window.offset + 1 + ((rest ++ [none]).length : Nat) - 1 -
          (window.offset + 1)).toNat = rest.length := by
        simp
        omega
      dsimp only
      rw [position]
      simp
  · cases moved

end Window

namespace SendState

variable {state : SendState} {index : Int}

/--
A block that holds data is not confirmed, and the window has not left it behind.
-/
structure Lacks
    (state : SendState)
    (index : Int) :
    Prop where
  reached : state.window.offset ≤ index
  unconfirmed : state.window.read? index = none
  within : index.toNat * state.blockSize < state.data.length

/-- A transfer that lacks a block is not complete. -/
theorem Lacks.isCompleted_eq_false
    (lacks : state.Lacks index) :
    state.isCompleted = false := by
  have gap : state.window.offset + state.window.leadingFilled ≤ index := by
    by_contra beyond
    have filled :=
      Window.le_leadingFilled_iff.mp (Nat.le_refl state.window.leadingFilled)
        (index - state.window.offset).toNat (by have := lacks.reached; omega)
    have index_eq : state.window.offset +
        ((index - state.window.offset).toNat : Int) = index := by
      have := lacks.reached
      omega
    rw [index_eq, lacks.unconfirmed] at filled
    cases filled
  have count_le : state.confirmedCount ≤ index.toNat := Int.toNat_le_toNat gap
  unfold isCompleted
  rw [decide_eq_false_iff_not, Nat.not_le]
  have end_le := Nat.mul_le_mul_right state.blockSize count_le
  exact Nat.lt_of_le_of_lt (Nat.le_trans (word_le _ _) end_le) lacks.within

/-- Popping confirms nothing. -/
theorem Lacks.pop? (lacks : state.Lacks index) : state.pop?.2.Lacks index := by
  unfold SendState.pop?
  split
  · exact lacks
  · next value window moves =>
      have moved : state.window.advance.1 = some value := by rw [moves]
      have window_eq : state.window.advance.2 = window := by rw [moves]
      have filled : (state.window.read? state.window.offset).isSome := by
        rw [← Window.advance_fst, moved]
        rfl
      have above : state.window.offset < index := by
        refine lt_of_le_of_ne lacks.reached ?_
        rintro rfl
        rw [lacks.unconfirmed] at filled
        cases filled
      have offset_eq := (Window.advance_snd_of_some moved).1
      have unconfirmed := Window.read?_advance moved above
      rw [window_eq] at offset_eq unconfirmed
      exact
        { reached := by
            dsimp only
            rw [offset_eq]
            omega
          unconfirmed := unconfirmed.trans lacks.unconfirmed
          within := lacks.within }

/-- A block that is popped is lacking from then on. -/
theorem lacks_of_pop?
    {block : Block}
    (popped : state.pop?.1 = some block) :
    ∃ index, state.pop?.2.Lacks index := by
  unfold SendState.pop? at popped ⊢
  split at popped
  · cases popped
  · next value window moves =>
      have moved : state.window.advance.1 = some value := by rw [moves]
      have window_eq : state.window.advance.2 = window := by rw [moves]
      have empty := Window.read?_tail_of_advance moved
      have nonempty : 0 < window.size := by
        rw [← window_eq, (Window.advance_snd_of_some moved).2]
        unfold Window.advance at moved
        split at moved
        · next slots_eq =>
            unfold Window.size
            rw [slots_eq]
            exact Nat.succ_pos _
        · cases moved
      rw [window_eq] at empty
      refine ⟨window.tail, ?_, empty, ?_⟩
      · unfold Window.tail
        dsimp only
        omega
      · change state.block? window.tail.toNat = some block at popped
        unfold block? at popped
        dsimp only at popped
        split at popped
        · cases popped
        · next inside => exact Nat.lt_of_not_le inside

end SendState

namespace Engine

/-- A transfer that lacks a block before it is cut lacks it afterwards. -/
theorem cutWithin_lacks
    (token : TokenKey)
    (room : Nat)
    {transfer : OutboundTransfer}
    {index : Int}
    (lacks : transfer.state.Lacks index)
    (nextId : MessageId) :
    (cutWithin token room transfer nextId).transfer.state.Lacks index := by
  induction room generalizing transfer nextId with
  | zero => exact lacks
  | succ room inductionHypothesis =>
      have popped := lacks.pop?
      unfold cutWithin
      split
      · next state pops =>
          rw [pops] at popped
          exact popped
      · next block state pops =>
          rw [pops] at popped
          exact inductionHypothesis
            ⟨popped.reached, popped.unconfirmed, popped.within⟩ _

/-- The confirmation that completes a transfer releases nothing. -/
theorem cut_of_completed
    {token : TokenKey}
    {transfer : OutboundTransfer}
    {nextId : MessageId}
    (completed : (cut token transfer nextId).transfer.state.isCompleted = true) :
    (cut token transfer nextId).fragments = [] ∧
      (cut token transfer nextId).nextId = nextId ∧
        (cut token transfer nextId).transfer.inFlight = transfer.inFlight := by
  unfold cut at completed ⊢
  unfold cutWithin at completed ⊢
  split at completed
  · exact ⟨rfl, rfl, rfl⟩
  · next block state pops =>
      obtain ⟨index, lacks⟩ := SendState.lacks_of_pop? (congrArg Prod.fst pops)
      rw [pops] at lacks
      have nextLacks : (transfer.withFragment state nextId).state.Lacks index :=
        ⟨lacks.reached, lacks.unconfirmed, lacks.within⟩
      have stillLacks :=
        cutWithin_lacks token transfer.state.windowSize nextLacks (nextId + 1)
      cases stillLacks.isCompleted_eq_false.symm.trans completed

theorem confirmBlock_of_missing
    {engine : Engine}
    {token : TokenKey}
    (missing : engine.outgoing.find? token = none)
    (number : UInt32)
    (id : MessageId) :
    engine.confirmBlock token number id = engine := by
  unfold confirmBlock
  rw [missing]

/-- A confirmed block has its transfer cut what that releases. -/
theorem confirmBlock_of_find?
    {engine : Engine}
    {token : TokenKey}
    {transfer : OutboundTransfer}
    (found : engine.outgoing.find? token = some transfer)
    (number : UInt32)
    (id : MessageId) :
    let cutting := cut token (confirmedTransfer transfer number id) engine.nextId
    engine.confirmBlock token number id =
      { engine with
        outgoing := engine.outgoing.put token cutting.transfer
        nextId := cutting.nextId }.dispatchFragments token cutting.fragments := by
  unfold confirmBlock
  rw [found]
  rfl

variable {engine : Engine} {message : Message} {block : Block}
variable {transfer : OutboundTransfer}

/--
The block that completes a transfer leaves the engine as it is,
but for the block itself.
-/
theorem blockConfirmed_of_completed
    (found : (engine.blockConfirmed message block).outgoing.find?
      message.key = some transfer)
    (completed : transfer.state.isCompleted = true) :
    ∃ earlier,
      engine.outgoing.find? message.key = some earlier ∧
        transfer.state.whole = earlier.state.whole ∧
          transfer.hooks = earlier.hooks ∧
        transfer.inFlight =
          earlier.inFlight.filter (fun fragment => fragment ≠ message.id) ∧
        engine.blockConfirmed message block =
          { (engine.dropAck message.id).discard message.id with
            outgoing := engine.outgoing.put message.key transfer } := by
  unfold blockConfirmed at found ⊢
  have cleared_eq :
      ((engine.dropAck message.id).discard message.id).outgoing = engine.outgoing :=
    rfl
  generalize (engine.dropAck message.id).discard message.id = cleared at *
  cases present : cleared.outgoing.find? message.key with
  | none =>
      rw [confirmBlock_of_missing present] at found
      cases present.symm.trans found
  | some earlier =>
      rw [confirmBlock_of_find? present] at found ⊢
      obtain ⟨isOf, _⟩ :=
        cut_isOf message.key (confirmedTransfer earlier block.number message.id)
          cleared.nextId
      have last := @cut_of_completed message.key
        (confirmedTransfer earlier block.number message.id) cleared.nextId
      generalize cut message.key
        (confirmedTransfer earlier block.number message.id) cleared.nextId =
        cutting at *
      -- what is queued next can only have counted in the transfer
      obtain ⟨placed, stats, isPlaced, state_eq⟩ :=
        (dispatchFragments_evolves _ message.key cutting.fragments).outgoing
          message.key transfer found
      cases (Table.find?_put_self _ _ _).symm.trans isPlaced
      have placedCompleted : cutting.transfer.state.isCompleted = true := by
        rw [state_eq] at completed
        exact completed
      obtain ⟨none_eq, nextId_eq, inFlight_eq⟩ := last placedCompleted
      rw [none_eq] at found ⊢
      cases (Table.find?_put_self _ _ _).symm.trans found
      refine ⟨earlier, cleared_eq ▸ present, isOf.continues.whole_eq, isOf.hooks_eq,
        inFlight_eq, ?_⟩
      rw [nextId_eq, cleared_eq]
      rfl

end Engine

end Coap
