import Mathlib.Tactic.Common
import Coap.Proofs.Engine.Ownership
import Coap.Proofs.Engine.Resupply

namespace Coap.Engine

/-!
# No transfer is stranded

Every block that is out and not confirmed is guarded, so that the retry rules
must end in a confirmation or in the failure of its transfer. This needs each
fragment to leave the pool with its transfer knowing: a plain acknowledgement of
a fragment, a response to a message that is still being sent, a sweep of the
handler of a fragment, and an identifier that is used twice all take a fragment
away, and tell nobody.
-/

variable {engine : Engine} {message : Message}

/-! ## What arrives -/

/--
If the message has the identifier of a fragment, then it acknowledges
the block of that fragment.
-/
def NamesItsBlock
    (engine : Engine)
    (message : Message)
    (number : UInt32) :
    Prop :=
  engine.InFlight message.id →
    ∃ transfer ∈ engine.outgoing.find? message.key, message.id ∈ transfer.inFlight ∧
      ∃ slot ∈ engine.pool.entries.entries.find? message.id,
        ∃ block ∈ transfer.state.block? number.toNat,
          slot.value.message = fragmentOf transfer.state block message.id

instance (engine : Engine) (message : Message) (number : UInt32) :
    Decidable (engine.NamesItsBlock message number) :=
  inferInstanceAs (Decidable (_ → ∃ _ ∈ _, _ ∧ ∃ _ ∈ _, ∃ _ ∈ _, _))

/--
Behind the block-wise stage, a message completes a fragment only if it
reports an error to the transfer, and no fragment is taken for the
request that a response answers.
-/
structure SparesFragments
    (engine : Engine)
    (message : Message) :
    Prop where
  acknowledged :
    (message.isRequest || !message.kind.isAckOrReset) = false →
      engine.InFlight message.id →
      message.responseError?.isSome ∧
        (engine.acks.peek? engine.now message.id).isSome
  answered :
    (engine.expected.entries.find? message.key).isSome →
      ∀ id ∈ engine.pool.idOf? message.key, ¬ engine.InFlight id

instance
    (engine : Engine)
    (message : Message) :
    Decidable (engine.SparesFragments message) :=
  letI : Decidable (∀ id ∈ engine.pool.idOf? message.key, ¬ engine.InFlight id) :=
    Option.decidableForallMem _
  decidable_of_iff (_ ∧ _)
    ⟨fun holds => ⟨holds.1, holds.2⟩,
      fun spares => ⟨spares.acknowledged, spares.answered⟩⟩

namespace Covered

variable {exempt : TokenKey → Nat → Prop}

/--
The message of a block leaves the pool, and no other block loses its fragment.
-/
theorem clear
    {number : UInt32}
    (covered : engine.Covered NoExemption)
    (names : engine.NamesItsBlock message number) :
    ((engine.dropAck message.id).discard message.id).Covered
      (Only message.key number.toNat) := by
  obtain ⟨winds, _, _⟩ := engine.dropAck_discard_spec message.id
  refine covered.of_frame
    (covered.tidy.of_windsDown winds) winds.arq_eq winds.outgoing
    (fun _ _ => covered.passes_of_windsDown winds) ?_ fun _ _ => False.elim
  intro token transfer other fragment found remains sent guards
  by_cases isCleared : fragment.id = message.id
  · -- this is the fragment that the message names, and it carries one block only
    obtain ⟨member, sentBlock, isSent, sent_eq⟩ := sent
    obtain ⟨⟨entry, stores, entry_eq⟩, _⟩ := guards
    rw [isCleared] at member stores sent_eq
    obtain ⟨own, ownFound, ownMember, slot, slotFound, block, isBlock, slot_eq⟩ :=
      names ⟨token, transfer, found, member⟩
    obtain ⟨same, _⟩ :=
      covered.apart message.key token own transfer message.id
        ownFound found ownMember
    have token_eq := same member
    subst token_eq
    cases found.symm.trans ownFound
    have regular := covered.regular message.key transfer found
    obtain ⟨number_eq, small⟩ := regular.toNat_number isBlock
    obtain ⟨other_eq, otherSmall⟩ := regular.toNat_number isSent
    have entry_is : slot.value = entry :=
      Cache.Stores.unique ⟨slot, slotFound, rfl⟩ stores
    rw [entry_is, entry_eq, sent_eq] at slot_eq
    refine .inl ⟨rfl, ?_⟩
    rw [← other_eq, ← number_eq,
      number_eq_of_fragmentOf_eq otherSmall small slot_eq]
  · exact .inr (guards.of_windsDown covered.apart covered.tidy.lasting winds
      found sent.1 remains isCleared)

/-- The acknowledgement of a block confirms it, and may end its transfer. -/
theorem onBlockAcknowledged
    (covered : engine.Covered NoExemption)
    (cell : Option SocketAddress)
    (option : OptionNumber)
    (block : Block)
    (names : engine.NamesItsBlock message block.number)
    (fresh : engine.DrawsFresh) :
    (engine.onBlockAcknowledged message cell option block).state.Covered
      NoExemption := by
  obtain ⟨winds, unqueued, _⟩ := engine.dropAck_discard_spec message.id
  have confirmed : (engine.blockConfirmed message block).Covered NoExemption :=
    (covered.clear names).confirmBlock unqueued (fresh.of_windsDown winds)
  rcases engine.onBlockAcknowledged_cases message cell option block with
      ⟨state_eq, _⟩ | ⟨transfer, released, found, _, _, ends, _, waits | answers⟩
  · rw [state_eq]
    exact confirmed
  · rw [waits.1]
    have idle : ¬ released.InFlight transfer.state.whole.id := fun inFlight =>
      confirmed.whole_not_inFlight found
        (.of_outgoing (ends fun _ => False).outgoing inFlight)
    refine ((confirmed.of_winds ends).enqueue (.of_idle idle) ?_ _).of_winds
      fun _ => suppress_windsDown _ _
    exact fun inFlight => absurd inFlight idle
  · rw [answers.1]
    exact confirmed.of_winds ends

end Covered

/-- An error that is reported to a fragment ends its transfer. -/
theorem acknowledgementStage_ends
    {token : TokenKey}
    {block : Nat}
    (related : (message.isRequest || !message.kind.isAckOrReset) = false)
    (watched : engine.acks.Stores message.id (.fragment token block))
    (live : (engine.acks.peek? engine.now message.id).isSome)
    (fails : message.responseError?.isSome)
    (cell : Option SocketAddress) :
    (engine.acknowledgementStage message cell).state.outgoing.find? token =
      none := by
  obtain ⟨waiting, peeked⟩ := Option.isSome_iff_exists.mp live
  have isFragment : waiting = .fragment token block :=
    (Cache.stores_of_peek? peeked).unique watched
  rw [isFragment] at peeked
  have found : ((engine.discard message.id).acks.get (engine.discard message.id).now
      message.id).1 = some (.fragment token block) :=
    Cache.get_fst.trans peeked
  unfold acknowledgementStage
  simp only [related, Bool.false_eq_true, ↓reduceIte, found, tellAck, fails]
  split
  · exact failTransfer_ends _ token
  · exact failTransfer_ends _ token

namespace Covered

variable {exempt : TokenKey → Nat → Prop}

theorem acknowledgementStage
    (covered : engine.Covered exempt)
    (spares : engine.SparesFragments message)
    (cell : Option SocketAddress) :
    (engine.acknowledgementStage message cell).state.Covered exempt := by
  cases related : (message.isRequest || !message.kind.isAckOrReset) with
  | true =>
      rw [acknowledgementStage_of_unrelated related]
      exact covered
  | false =>
      refine covered.of_windsDown
        (engine.acknowledgementStage_windsDown message cell) ?_
      rintro token transfer fragment found member ⟨_, block, watched⟩ isCompleted
      rw [isCompleted] at member watched
      obtain ⟨fails, live⟩ :=
        spares.acknowledged related ⟨token, transfer, found, member⟩
      exact acknowledgementStage_ends related watched live fails cell

theorem responseReceive
    (covered : engine.Covered exempt)
    (spared : (engine.expected.entries.find? message.key).isSome →
      ∀ id ∈ engine.pool.idOf? message.key, ¬ engine.InFlight id)
    (cell : Option SocketAddress) :
    (engine.responseReceive message cell).state.Covered exempt := by
  obtain ⟨refusals, sent, noted | ⟨handler, ⟨slot, awaited, _⟩, completed⟩⟩ :=
    engine.responseReceive_cases message cell
  · rw [noted]
    exact covered.of_winds fun _ => .of_records engine _ _ _ _ _ _ _
  · rw [completed]
    have noted : { engine with
        expected := engine.expected.erase message.key
        refusals := refusals
        sent := sent }.Covered exempt :=
      (covered.with_expected _).of_winds fun _ =>
        .of_records { engine with
          expected := engine.expected.erase message.key } _ _ _ _ _ _ _
    refine noted.of_spared (completeRequest_windsDown _ message handler) ?_
    exact fun id inFlight maps =>
      spared (Option.isSome_of_mem awaited) id maps inFlight

theorem handOver
    (covered : engine.Covered exempt)
    (spares : engine.SparesFragments message)
    (cell : Option SocketAddress) :
    (engine.handOver message cell).2.Covered exempt := by
  have winds := engine.acknowledgementStage_windsDown message cell
  have responded :
      ((engine.acknowledgementStage message cell).state.responseReceive message
      cell).state.Covered exempt := by
    refine (covered.acknowledgementStage spares cell).responseReceive ?_ cell
    intro awaited id maps inFlight
    rw [winds.expected_eq] at awaited
    exact spares.answered awaited id
      (winds.pool.mapped covered.tidy.lasting _ id maps).1
      (.of_outgoing winds.outgoing inFlight)
  unfold Engine.handOver
  dsimp only
  split
  · split
    · exact responded.of_winds fun _ => deliver_windsDown _ _
    · exact responded
  · exact responded

/-! ## What is sent -/

/--
A message that becomes a transfer leaves the pool, and its fragments are guarded.
-/
theorem blockwiseSend
    (covered : engine.Covered NoExemption)
    (passes : engine.InFlight message.id → engine.needsTransfer message = false)
    (begins : engine.needsTransfer message = true →
      engine.DrawsFresh ∧ message.id ∉ engine.drawn ∧
        SendState.blockCount message.body.length engine.arq.maxPayload ≤ 2 ^ 28)
    (cell : Option SocketAddress) :
    (engine.blockwiseSend message cell).state.Covered NoExemption ∧
      ((engine.blockwiseSend message cell).state.InFlight message.id →
        engine.InFlight message.id) := by
  cases needs : engine.needsTransfer message with
  | false =>
      rw [blockwiseSend_of_pass needs]
      exact ⟨covered, id⟩
  | true =>
      have takes := engine.take_windsDown message.id
      have idle : ¬ engine.InFlight message.id := fun inFlight => by
        rw [passes inFlight] at needs
        cases needs
      have taken :=
        covered.of_spared takes fun other inFlight same => idle (same ▸ inFlight)
      rcases Nat.eq_zero_or_pos engine.arq.maxPayload with zero | positive
      · rw [blockwiseSend_of_zero needs zero]
        exact ⟨{ taken with tidy := { taken.tidy with } }, id⟩
      · obtain ⟨fresh, undrawn, small⟩ := begins needs
        have whole_id : (transferMessage message).id = message.id := by
          unfold transferMessage
          split <;> rfl
        have count_eq :
            SendState.blockCount message.body.length engine.arq.maxPayload =
            SendState.blocksFor message.body.length engine.arq.maxPayload :=
          SendState.blockCount_eq_of_le
            (Nat.le_of_lt (lt_bodyLength_of_needsTransfer needs))
        rw [count_eq] at small
        have started := taken.startTransfer (fresh.of_windsDown takes) message.body
          (((engine.take message.id).1.map PoolEntry.hooks).getD {}) message.key
          (by rw [whole_id]; exact idle) (by rw [whole_id]; exact undrawn)
          (transferMessage_kind message) positive small
        rw [blockwiseSend_of_needsTransfer needs positive]
        exact ⟨started.1,
          fun inFlight => (started.2 _ inFlight).resolve_right undrawn⟩

theorem dispatch
    (covered : engine.Covered NoExemption)
    (passes : engine.InFlight message.id →
      engine.needsTransfer message = false ∧ message.kind = .confirmable)
    (begins : engine.needsTransfer message = true →
      engine.DrawsFresh ∧ message.id ∉ engine.drawn ∧
        SendState.blockCount message.body.length engine.arq.maxPayload ≤ 2 ^ 28) :
    (engine.dispatch message).Covered NoExemption := by
  obtain ⟨expected, responded_eq⟩ := responded_spec engine message
  have winds := (engine.dispatch_windsDown message).1
  rw [responded_eq] at winds
  obtain ⟨staged, inFlight⟩ := (covered.with_expected expected).blockwiseSend
    (fun inFlight => (passes inFlight).1)
    (fun needs => (begins needs).imp_left fun fresh =>
      { fresh with }) message.target?
  refine staged.of_spared winds ?_
  rintro _ flies ⟨rfl, unconfirmable⟩
  exact unconfirmable (passes (inFlight flies)).2

end Covered

/-! ## Runs -/

/--
The next poll starts a transfer only with identifiers that nobody uses, and with
few enough blocks to number.
-/
def StartsFresh (engine : Engine) : Prop :=
  ∀ message ∈ engine.next.1, engine.needsTransfer message = true →
    engine.DrawsFresh ∧
      SendState.blockCount message.body.length engine.arq.maxPayload ≤ 2 ^ 28

instance (engine : Engine) : Decidable engine.StartsFresh :=
  inferInstanceAs (Decidable (∀ _ ∈ _, _ → _))

/-- What arrives takes away no fragment without its transfer knowing. -/
structure ReceivesFairly
    (engine : Engine)
    (message : Message)
    (cell : Option SocketAddress) :
    Prop where
  confirms : ∀ block ∈ acknowledgedBlock? message,
    engine.NamesItsBlock message block.number ∧ engine.DrawsFresh
  completes : ∀ current ∈ (engine.blockwiseReceive message cell).through?,
    (engine.blockwiseReceive message cell).state.SparesFragments current

instance (engine : Engine) (message : Message) (cell : Option SocketAddress) :
    Decidable (engine.ReceivesFairly message cell) :=
  decidable_of_iff (_ ∧ _)
    ⟨fun holds => ⟨holds.1, holds.2⟩, fun fair => ⟨fair.confirms, fair.completes⟩⟩

/-- No fragment in flight is taken away without its transfer knowing. -/
def keepsFragments
    (engine : Engine) :
    Action →
    Bool
  | .register id _ => decide (¬ engine.InFlight id)
  | .enqueue message _ _ => decide (¬ engine.InFlight message.id)
  | .request message _ => decide (¬ engine.InFlight message.id)
  | .poll => decide engine.StartsFresh
  | .requeue _ => true
  | .purge =>
      decide (∀ purged ∈ (engine.acks.purge engine.now).1,
        ¬ engine.InFlight purged.1)
  | .advance _ => true
  | .receive message source =>
      decide (engine.ReceivesFairly
        { message with address := some source } (some source))

namespace Covered

theorem poll
    (covered : engine.Covered NoExemption)
    (starts : engine.StartsFresh) :
    engine.poll.2.Covered NoExemption := by
  have scans := engine.next_windsDown covered.tidy.keyed
  have scanned := covered.of_retains_windsDown
    (next_retains covered.tidy.keyed covered.tidy.lasting covered.apart) scans
  rw [poll_snd]
  cases picked : engine.next.1 with
  | none => exact scanned
  | some message =>
      obtain ⟨id, entry, stores, message_eq⟩ := engine.next_fst picked
      have id_eq : id = message.id := by
        rw [← covered.tidy.keyed id entry stores, message_eq]
      rw [id_eq] at stores
      refine scanned.dispatch ?_ ?_
      · intro inFlight
        rw [needsTransfer_congr scans.arq_eq, ← message_eq]
        exact covered.passes message.id entry
          (.of_outgoing scans.outgoing inFlight) stores
      · intro needs
        rw [needsTransfer_congr scans.arq_eq] at needs
        obtain ⟨fresh, small⟩ := starts message picked needs
        have undrawn : message.id ∉ engine.drawn := fun isDrawn =>
          (fresh.unused _ isDrawn).1 entry stores
        unfold drawn
        rw [scans.arq_eq, scans.nextId_eq]
        exact ⟨fresh.of_windsDown scans, undrawn, small⟩

theorem receive
    (covered : engine.Covered NoExemption)
    (message : Message)
    (source : SocketAddress)
    (fair : engine.ReceivesFairly { message with address := some source }
      (some source)) :
    (engine.receive message source).2.Covered NoExemption := by
  have completes := fair.completes
  have staged : (engine.blockwiseReceive { message with address := some source }
      (some source)).state.Covered NoExemption := by
    rcases engine.blockwiseReceive_cases { message with address := some source }
      (some source) with
        notes | ⟨option, block, isBlock, acknowledges⟩
    · exact covered.of_winds notes.winds
    · rw [acknowledges]
      obtain ⟨names, fresh⟩ := fair.confirms block isBlock
      exact covered.onBlockAcknowledged _ option block names fresh
  rw [receive_eq rfl]
  cases through :
      (engine.blockwiseReceive { message with address := some source }
        (some source)).through? with
  | none => exact staged
  | some current => exact staged.handOver (completes current through) _

/-- Every allowed action keeps blocks that are out guarded. -/
theorem step
    (covered : engine.Covered NoExemption)
    (action : Action)
    (allowed : engine.keepsFragments action = true) :
    (engine.step action).Covered NoExemption := by
  cases action with
  | register id who =>
      exact covered.register (.of_idle (of_decide_eq_true allowed)) _
  | enqueue message resends outcome =>
      have idle := of_decide_eq_true allowed
      exact covered.enqueue (.of_idle idle) (fun inFlight => absurd inFlight idle) _
  | request message who =>
      have idle := of_decide_eq_true allowed
      have expecting :
          (({ engine with nextGuard := engine.nextGuard + 1 }).expect message.key
          ⟨who, some engine.nextGuard⟩).Covered NoExemption :=
        { covered with tidy := { covered.tidy with } }
      exact expecting.enqueue (.of_idle idle)
        (fun inFlight => absurd inFlight idle) _
  | poll => exact covered.poll (of_decide_eq_true allowed)
  | requeue id => exact covered.of_winds fun _ => engine.requeue_windsDown id
  | purge =>
      refine (covered.with_expected _).of_spared engine.purge_windsDown ?_
      rintro _ inFlight ⟨purged, member, rfl⟩
      exact of_decide_eq_true allowed purged member inFlight
  | advance length => exact { covered with tidy := { covered.tidy with } }
  | receive message source =>
      exact covered.receive message source (of_decide_eq_true allowed)

end Covered

/-- A run in which one of two fragments is acknowledged without naming its block. -/
def strandedRun : List Action :=
  [.request sampleUpload (.observer "asker"), .poll, .poll, .poll,
    .receive { sampleAck 100 8 with options := [] } (.v4 10 0 0 2 5683),
    .receive (sampleAck 101 16) (.v4 10 0 0 2 5683)]

end Coap.Engine
