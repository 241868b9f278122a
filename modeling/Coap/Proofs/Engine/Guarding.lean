import Mathlib.Tactic.Common
import Coap.Proofs.Engine.Activity

namespace Coap.Engine

/-!
# Fragments whose loss is noticed

A fragment is guarded while it is queued and its handler is registered: then the
retry rules end in an acknowledgement, or in its loss, which fails its transfer.
`Retains` says that every guarded fragment of a transfer that is still in progress
stays guarded. Giving fragments up is no exception, since that ends their transfers.
-/

/-- No identifier in flight belongs to another transfer, or to a whole message. -/
def Apart (engine : Engine) : Prop :=
  ∀ token other transfer rival id,
    engine.outgoing.find? token = some transfer →
      engine.outgoing.find? other = some rival →
      id ∈ transfer.inFlight →
        (id ∈ rival.inFlight → other = token) ∧ id ≠ rival.state.whole.id

/--
The message is queued, and whoever waits for it fails the transfer of the token.
-/
def Guards
    (engine : Engine)
    (token : TokenKey)
    (message : Message) :
    Prop :=
  (∃ entry, engine.pool.entries.Stores message.id entry ∧ entry.message = message) ∧
    ∃ block, engine.acks.Stores message.id (.fragment token block)

/-- Guarded fragments of transfers that are still in progress stay guarded. -/
structure Retains (before after : Engine) : Prop where
  outgoing : ∀ token transfer,
    after.outgoing.find? token = some transfer →
      ∃ earlier, before.outgoing.find? token = some earlier ∧
        transfer.IsLike earlier
  guards : ∀ token transfer message,
    before.outgoing.find? token = some transfer →
      after.outgoing.find? token ≠ none →
      message.id ∈ transfer.inFlight → before.Guards token message →
        after.Guards token message

variable {gone : MessageId → Prop} {engine before after later : Engine}
variable {token : TokenKey} {transfer : OutboundTransfer} {id : MessageId}

namespace Apart

/-- Identifiers stay apart while transfers only end. -/
theorem of_outgoing
    (apart : before.Apart)
    (outgoing : ∀ token transfer,
      after.outgoing.find? token = some transfer →
        ∃ earlier, before.outgoing.find? token = some earlier ∧
          transfer.IsLike earlier) :
    after.Apart := by
  intro token other transfer rival id found rivalFound member
  obtain ⟨earlier, earlierFound, isLike⟩ := outgoing token transfer found
  obtain ⟨earlierRival, earlierRivalFound, rivalLike⟩ :=
    outgoing other rival rivalFound
  rw [isLike.inFlight_eq] at member
  rw [rivalLike.inFlight_eq, rivalLike.whole_eq]
  exact apart token other earlier earlierRival id earlierFound
    earlierRivalFound member

/--
An identifier in flight of a transfer that remains has not ended with another one.
-/
theorem not_hasEnded
    (apart : before.Apart)
    (found : before.outgoing.find? token = some transfer)
    (member : id ∈ transfer.inFlight)
    (remains : after.outgoing.find? token ≠ none) :
    ¬ HasEnded before after id := by
  rintro ⟨other, rival, rivalFound, missing, belongs⟩
  obtain ⟨own, different⟩ :=
    apart token other transfer rival id found rivalFound member
  rcases belongs with inRival | isWhole
  · rw [own inRival] at missing
    exact remains missing
  · exact different isWhole

end Apart

/--
What winds down loses only guarded fragments that it names, or of
transfers that end.
-/
theorem Guards.of_windsDown
    {message : Message}
    (guards : before.Guards token message)
    (apart : before.Apart)
    (lasting : before.pool.entries.idle = none)
    (winds : WindsDown gone before after)
    (found : before.outgoing.find? token = some transfer)
    (member : message.id ∈ transfer.inFlight)
    (remains : after.outgoing.find? token ≠ none)
    (stays : ¬ gone message.id) :
    after.Guards token message := by
  have present : ¬ (gone message.id ∨ HasEnded before after message.id) :=
    not_or.mpr ⟨stays, apart.not_hasEnded found member remains⟩
  obtain ⟨⟨entry, stores, message_eq⟩, block, watched⟩ := guards
  obtain ⟨kept, keptStores, isLike⟩ :=
    winds.pool.kept lasting message.id entry stores present
  exact ⟨⟨kept, keptStores, isLike.1.trans message_eq⟩, block,
    winds.keptWatched message.id _ watched present⟩

/-- Whenever a guarded fragment is given up, its transfer ends. -/
theorem Guards.giveUp_ends
    {message : Message}
    (guards : engine.Guards token message)
    {entry : PoolEntry}
    (stores : engine.pool.entries.Stores message.id entry)
    (reason : FailureReason) :
    (engine.giveUp entry reason).outgoing.find? token = none := by
  obtain ⟨⟨queued, queuedStores, message_eq⟩, block, watched⟩ := guards
  have same : entry.message = message := by
    rw [stores.unique queuedStores]
    exact message_eq
  rw [← same] at watched
  exact Engine.giveUp_ends engine watched reason

namespace Retains

theorem refl (engine : Engine) : Retains engine engine where
  outgoing := fun _ transfer found => ⟨transfer, found, .refl transfer⟩
  guards := fun _ _ _ _ _ _ guards => guards

/-- What winds down loses only guarded fragments of transfers that have ended. -/
theorem of_windsDown
    (apart : before.Apart)
    (lasting : before.pool.entries.idle = none)
    (winds : WindsDown gone before after)
    (ends : ∀ token transfer message,
      before.outgoing.find? token = some transfer → message.id ∈ transfer.inFlight →
        before.Guards token message → gone message.id →
          after.outgoing.find? token = none) :
    Retains before after where
  outgoing := winds.outgoing
  guards := by
    intro token transfer message found remains member guards
    exact guards.of_windsDown apart lasting winds found member remains fun isGone =>
      remains (ends token transfer message found member guards isGone)

end Retains

/-! ## Queueing -/

/-- No guarded fragment of a transfer in progress has the identifier. -/
def Spares
    (engine : Engine)
    (id : MessageId) :
    Prop :=
  ∀ token transfer message,
    engine.outgoing.find? token = some transfer → message.id ∈ transfer.inFlight →
      engine.Guards token message → message.id ≠ id

/-- What nobody queued is not guarded. -/
theorem Spares.of_unqueued
    (unqueued : ∀ entry, ¬ engine.pool.entries.Stores id entry) :
    engine.Spares id := by
  rintro token transfer message _ _ ⟨⟨entry, stores, _⟩, _⟩ rfl
  exact unqueued entry stores

theorem register_retains
    (unlimited : engine.acks.capacity = none)
    (spares : engine.Spares id)
    (handler : AckHandler) :
    Retains engine (engine.register id handler) where
  outgoing := fun _ transfer found => ⟨transfer, found, .refl transfer⟩
  guards := by
    intro token transfer message found _ member guards
    have different := spares token transfer message found member guards
    obtain ⟨queued, block, watched⟩ := guards
    have vacant : engine.acks.isFull = false := by
      unfold Cache.isFull
      rw [unlimited]
    refine ⟨queued, block, (watched.insert different).resolve_right ?_⟩
    rw [Cache.insert_fst_of_room vacant]
    exact Option.some_ne_none _ ∘ Eq.symm

/--
The engine when a message is queued, before anyone is told who had to make room.
-/
def inserted
    (engine : Engine)
    (message : Message)
    (hooks : Hooks) :
    Engine :=
  { engine with pool := (engine.pool.enqueue engine.now message hooks).2 }

/-- Who had to make room was queued under an identifier of its own. -/
theorem evicted_spec
    (keyed : engine.pool.IsKeyed)
    {message : Message}
    {hooks : Hooks}
    {entry : PoolEntry}
    (evicted : (engine.pool.enqueue engine.now message hooks).1 = some entry) :
    engine.pool.entries.Stores entry.message.id entry ∧
      ∀ queued, ¬ (engine.inserted message hooks).pool.entries.Stores
        entry.message.id queued := by
  obtain ⟨id, stores, _, missing⟩ := Pool.stores_of_enqueue_fst evicted
  rw [keyed id entry stores]
  exact ⟨stores, missing⟩

/--
Giving up who had to make room loses no guarded fragment that is still queued.
-/
theorem inserted_retains
    (keyed : engine.pool.IsKeyed)
    (lasting : engine.pool.entries.idle = none)
    (apart : engine.Apart)
    (message : Message)
    (hooks : Hooks) :
    Retains (engine.inserted message hooks) (engine.enqueue message hooks) := by
  unfold enqueue
  dsimp only
  split
  · exact .refl _
  · next entry evicted =>
      have stillLasting :
          (engine.inserted message hooks).pool.entries.idle = none := by
        unfold inserted
        dsimp only
        rw [Pool.enqueue_entries, Cache.insert_bounds.2]
        exact lasting
      refine .of_windsDown apart stillLasting (giveUp_windsDown _ entry .evicted) ?_
      rintro token transfer lost _ _ ⟨⟨queued, stores, _⟩, _⟩ same
      rw [same] at stores
      exact absurd stores ((evicted_spec keyed evicted).2 queued)

/--
A message that replaces no guarded fragment loses none of a transfer that goes on.
-/
theorem enqueue_retains
    (keyed : engine.pool.IsKeyed)
    (lasting : engine.pool.entries.idle = none)
    (apart : engine.Apart)
    {message : Message}
    (spares : engine.Spares message.id)
    (hooks : Hooks) :
    Retains engine (engine.enqueue message hooks) := by
  have settles := inserted_retains keyed lasting apart message hooks
  refine ⟨settles.outgoing, ?_⟩
  intro token transfer fragment found remains member guards
  have different := spares token transfer fragment found member guards
  obtain ⟨⟨entry, stores, message_eq⟩, block, watched⟩ := guards
  rcases Pool.stores_enqueue stores different with stays | evicted
  · exact settles.guards token transfer fragment found remains member
      ⟨⟨entry, stays, message_eq⟩, block, watched⟩
  · -- the fragment itself had to make room, which ends its transfer
    have ended : (engine.enqueue message hooks).outgoing.find? token = none := by
      unfold enqueue
      dsimp only
      rw [evicted]
      rw [← message_eq] at watched
      exact giveUp_ends (engine.inserted message hooks) watched .evicted
    exact absurd ended remains

/-! ## Scans -/

/-- Giving up a guarded fragment among others ends its transfer. -/
theorem giveUpAll_ends
    (apart : engine.Apart)
    {block : Nat}
    (found : engine.outgoing.find? token = some transfer)
    (member : id ∈ transfer.inFlight)
    (watched : engine.acks.Stores id (.fragment token block))
    {failures : List (PoolEntry × FailureReason)}
    (lost : ∃ lost ∈ failures, lost.1.message.id = id) :
    (engine.giveUpAll failures).outgoing.find? token = none := by
  induction failures generalizing engine transfer with
  | nil =>
      obtain ⟨_, inNil, _⟩ := lost
      cases inNil
  | cons first rest inductionHypothesis =>
      have winds := engine.giveUp_windsDown first.1 first.2
      cases later : (engine.giveUp first.1 first.2).outgoing.find? token with
      | none => exact (giveUpAll_windsDown _ rest).outgoing_none later
      | some remaining =>
          have remains :
              (engine.giveUp first.1 first.2).outgoing.find? token ≠ none :=
            Option.ne_none_iff_exists'.mpr ⟨remaining, later⟩
          have different : first.1.message.id ≠ id := by
            rintro rfl
            exact remains (engine.giveUp_ends watched first.2)
          obtain ⟨earlier, earlierFound, isLike⟩ :=
            winds.outgoing token remaining later
          cases found.symm.trans earlierFound
          have stillWatched := winds.keptWatched id _ watched (by
            rintro (isFirst | ended)
            · exact different isFirst.symm
            · exact apart.not_hasEnded found member remains ended)
          refine inductionHypothesis (apart.of_outgoing winds.outgoing) later
            (isLike.inFlight_eq ▸ member) stillWatched ?_
          obtain ⟨lost, inFailures, isLost⟩ := lost
          rcases List.mem_cons.mp inFailures with rfl | inRest
          · exact absurd isLost different
          · exact ⟨lost, inRest, isLost⟩

/-- A scan loses guarded fragments only with their transfers. -/
theorem next_retains
    (keyed : engine.pool.IsKeyed)
    (lasting : engine.pool.entries.idle = none)
    (apart : engine.Apart) :
    Retains engine engine.next.2 := by
  refine .of_windsDown apart lasting (engine.next_windsDown keyed) ?_
  rintro token transfer message found member ⟨_, block, watched⟩ lost
  -- up to the hooks that count resends, handlers and transfers are as before the
  -- scan
  have resends : WindsDown (fun _ => False)
      engine.afterScan engine.scanned :=
    .foldl _ (fun engine hooks _ => engine.fireResend_windsDown hooks) _
  rw [next_eq]
  cases later : engine.scanned.outgoing.find? token with
  | none => exact (giveUpAll_windsDown _ engine.givenUp).outgoing_none later
  | some remaining =>
      have remains : engine.scanned.outgoing.find? token ≠ none :=
        Option.ne_none_iff_exists'.mpr ⟨remaining, later⟩
      obtain ⟨earlier, earlierFound, isLike⟩ :=
        resends.outgoing token remaining later
      cases found.symm.trans earlierFound
      have stillWatched := resends.keptWatched message.id _ watched (by
        rintro (impossible | ended)
        · exact impossible
        · exact apart.not_hasEnded found member remains ended)
      exact giveUpAll_ends (apart.of_outgoing resends.outgoing) later
        (isLike.inFlight_eq ▸ member) stillWatched lost

end Coap.Engine
