import Mathlib.Tactic.Common
import Coap.Proofs.Engine.LastBlock
import Coap.Proofs.Engine.Ownership

namespace Coap

/-!
# Uploads that are complete, and those that start again

When a peer has acknowledged the last block of an upload without an answer, the
whole message is queued again, to wait for the answer, and need not be sent. The
entry that need not be sent is looked up by the token of the message first. If an
older message with this token is queued, it is the one that is silenced, and the
upload starts again.
-/

namespace Pool

variable {pool : Pool} {now : Timestamp} {message : Message} {hooks : Hooks}

/--
The identifier to which the token of a message leads once the message is queued.
-/
def leadOf
    (pool : Pool)
    (message : Message) :
    MessageId :=
  (pool.idOf? message.key).getD message.id

/--
The token of a message that is queued leads to the older message
with it, if there is one.
-/
theorem idOf?_enqueue_self (roomy : (pool.enqueue now message hooks).1 = none) :
    (pool.enqueue now message hooks).2.idOf? message.key =
      some (pool.leadOf message) := by
  rw [enqueue_fst_eq, Option.map_eq_none_iff] at roomy
  unfold enqueue leadOf
  dsimp only
  rw [roomy]
  unfold mapIfAbsent idOf?
  dsimp only
  cases mapped : pool.idsByToken.find? message.key with
  | none => exact Table.find?_put_self _ _ _
  | some id => exact mapped

/--
Where nothing has to make room, a message that is queued replaces its namesake only.
-/
theorem stores_enqueue_of_roomy
    (roomy : (pool.enqueue now message hooks).1 = none)
    (id : MessageId)
    (entry : PoolEntry) :
    (pool.enqueue now message hooks).2.entries.Stores id entry ↔
      id = message.id ∧ entry = PoolEntry.create now message hooks ∨
        id ≠ message.id ∧ pool.entries.Stores id entry := by
  by_cases same : id = message.id
  · subst same
    have self : (pool.enqueue now message hooks).2.entries.Stores message.id
        (PoolEntry.create now message hooks) :=
      stores_enqueue_self
    constructor
    · exact fun stores => .inl ⟨rfl, stores.unique self⟩
    · rintro (⟨_, rfl⟩ | ⟨different, _⟩)
      · exact self
      · exact absurd rfl different
  · constructor
    · intro stores
      rcases stores_of_enqueue stores with ⟨isSelf, _⟩ | before
      · exact absurd isSelf same
      · exact .inr ⟨same, before⟩
    · rintro (⟨isSelf, _⟩ | ⟨_, before⟩)
      · exact absurd isSelf same
      · rcases stores_enqueue before same with kept | evicted
        · exact kept
        · cases roomy.symm.trans evicted

/-- What is stored when a message has been queued and silenced by its token. -/
theorem IsSound.stores_enqueue_suppress
    (sound : pool.IsSound)
    (roomy : (pool.enqueue now message hooks).1 = none)
    (id : MessageId)
    (entry : PoolEntry) :
    ((pool.enqueue now message hooks).2.suppress now
      message).entries.Stores id entry ↔
      ∃ earlier,
        (id = message.id ∧ earlier = PoolEntry.create now message hooks ∨
            id ≠ message.id ∧ pool.entries.Stores id earlier) ∧
          entry = if id = pool.leadOf message then earlier.suppressed
            else earlier := by
  have soundLater := sound.enqueue now message hooks
  have adjusted {earlier : PoolEntry}
      (stores : (pool.enqueue now message hooks).2.entries.Stores id earlier) :
      ((pool.enqueue now message hooks).2.suppress now message).entries.Stores id
        (if id = pool.leadOf message then earlier.suppressed else earlier) := by
    unfold suppress
    rw [idOf?_enqueue_self roomy]
    exact stores.adjust soundLater.unlimited PoolEntry.suppressed
  constructor
  · intro stores
    obtain ⟨earlier, earlierStores, _⟩ := (suppress_calms _ message) id entry stores
    exact ⟨earlier, (stores_enqueue_of_roomy roomy id earlier).mp earlierStores,
      stores.unique (adjusted earlierStores)⟩
  · rintro ⟨earlier, earlierStores, rfl⟩
    exact adjusted ((stores_enqueue_of_roomy roomy id earlier).mpr earlierStores)

/-- What is left when several entries have been removed. -/
theorem stores_foldl_discard
    {ids : List MessageId}
    {id : MessageId}
    {entry : PoolEntry} :
    (ids.foldl discard pool).entries.Stores id entry ↔
      id ∉ ids ∧ pool.entries.Stores id entry := by
  induction ids generalizing pool with
  | nil => simp
  | cons first rest inductionHypothesis =>
      rw [List.foldl_cons, inductionHypothesis, discard_entries, Cache.stores_erase,
        List.mem_cons, not_or]
      constructor
      · rintro ⟨absent, different, stores⟩
        exact ⟨⟨different, absent⟩, stores⟩
      · rintro ⟨⟨different, absent⟩, stores⟩
        exact ⟨absent, different, stores⟩

theorem isSound_foldl_discard
    {ids : List MessageId}
    (sound : pool.IsSound) :
    (ids.foldl discard pool).IsSound := by
  induction ids generalizing pool with
  | nil => exact sound
  | cons first rest inductionHypothesis =>
      exact inductionHypothesis (sound.of_thins (pool.discard_thins first))

end Pool

namespace Engine

variable {engine : Engine} {message : Message} {transfer : OutboundTransfer}
variable {block : Block}

/-! ## The last acknowledgement -/

/--
The message acknowledges, without an answer, the block that completes a transfer.
-/
structure Concluding
    (engine : Engine)
    (message : Message)
    (transfer : OutboundTransfer) :
    Prop where
  tokened : message.token.isSome
  plain : isPlainAck message = true
  confirms : ∃ block,
    acknowledgedBlock? message = some block ∧
      (engine.blockConfirmed message block).outgoing.find?
        message.key = some transfer
  completed : transfer.state.isCompleted = true

/--
What is queued besides the message acknowledged and the fragments of the transfer.
-/
def othersQueued
    (engine : Engine)
    (message : Message)
    (transfer : OutboundTransfer) :
    Pool :=
  transfer.inFlight.foldl Pool.discard (engine.pool.discard message.id)

theorem stores_othersQueued
    {id : MessageId}
    {entry : PoolEntry} :
    (engine.othersQueued message transfer).entries.Stores id entry ↔
      id ≠ message.id ∧ id ∉ transfer.inFlight ∧
        engine.pool.entries.Stores id entry := by
  unfold othersQueued
  rw [Pool.stores_foldl_discard, Pool.discard_entries, Cache.stores_erase]
  exact and_left_comm

theorem releaseFragments_pool
    (engine : Engine)
    (ids : List MessageId) :
    (engine.releaseFragments ids).pool = ids.foldl Pool.discard engine.pool := by
  induction ids generalizing engine with
  | nil => rfl
  | cons first rest inductionHypothesis => exact inductionHypothesis _

/-- With a token, the acknowledgement of a block is taken as one. -/
theorem blockwiseReceive_of_acknowledgedBlock
    (tokened : message.token.isSome)
    (acknowledges : acknowledgedBlock? message = some block)
    (engine : Engine)
    (cell : Option SocketAddress) :
    ∃ option,
      engine.blockwiseReceive message cell =
        engine.onBlockAcknowledged message cell option block := by
  unfold acknowledgedBlock? at acknowledges
  split at acknowledges
  · next answers =>
      obtain ⟨windowed, isAnswer⟩ := Bool.and_eq_true_iff.mp answers
      obtain ⟨window, isWindow⟩ := Option.isSome_iff_exists.mp windowed
      obtain ⟨option, isOption, reads⟩ := Option.bind_eq_some_iff.mp acknowledges
      have isBlock : blockOf message option = .ok block := by
        cases read : blockOf message option with
        | error cause =>
            rw [read] at reads
            cases reads
        | ok value =>
            rw [read] at reads
            cases reads
            rfl
      have quiet : announcesTransfer message = false := by
        unfold announcesTransfer
        rw [isOption, Option.isNone_some, Bool.and_false]
      refine ⟨option, ?_⟩
      unfold blockwiseReceive onBlock
      simp only [isWindow, quiet, isOption, Option.isNone_eq_false_iff.mpr tokened,
        isBlock, Bool.false_eq_true, ↓reduceIte]
      cases kind : message.kind with
      | acknowledgement => rfl
      | reset => rfl
      | confirmable =>
          rw [kind] at isAnswer
          cases isAnswer
      | nonConfirmable =>
          rw [kind] at isAnswer
          cases isAnswer
  · cases acknowledges

/-- Where nothing has to make room, queueing changes the pool alone. -/
theorem enqueue_of_roomy
    {engine : Engine}
    {message : Message}
    {hooks : Hooks}
    (roomy : (engine.pool.enqueue engine.now message hooks).1 = none) :
    engine.enqueue message hooks =
      { engine with pool := (engine.pool.enqueue engine.now message hooks).2 } := by
  unfold enqueue
  dsimp only
  rw [roomy]

/-- The end of a transfer takes its fragments out of the pool. -/
theorem finished_spec
    (engine : Engine)
    (token : TokenKey)
    (transfer : OutboundTransfer) :
    ∃ delivery,
      (engine.finished token transfer).pool =
          { transfer.inFlight.foldl Pool.discard engine.pool with
            delivery := delivery } ∧
        (engine.finished token transfer).now = engine.now ∧
        (engine.finished token transfer).outgoing.find? token = none := by
  obtain ⟨winds, outgoing_eq, _⟩ := releaseFragments_spec
    { engine with outgoing := engine.outgoing.erase token } transfer.inFlight
  have pool_eq := releaseFragments_pool
    { engine with outgoing := engine.outgoing.erase token } transfer.inFlight
  unfold finished
  generalize { engine with
    outgoing := engine.outgoing.erase token }.releaseFragments
    transfer.inFlight = released at *
  obtain ⟨delivery, recorded⟩ : ∃ delivery,
      (released.recordTransfer token
        (transfer.state.onCompleted released.now).report).pool =
        { released.pool with delivery := delivery } :=
    ⟨_, rfl⟩
  refine ⟨delivery, recorded.trans (by rw [pool_eq]), winds.now_eq, ?_⟩
  change released.outgoing.find? token = none
  rw [outgoing_eq, Table.find?_erase_self]

/--
The whole message is queued again and silenced by its token, and
the transfer is gone.
-/
theorem blockwiseReceive_of_concluding
    (concluding : engine.Concluding message transfer)
    (roomy : ((engine.othersQueued message transfer).enqueue engine.now
      transfer.state.whole transfer.hooks).1 = none)
    (cell : Option SocketAddress) :
    let passage := engine.blockwiseReceive message cell
    passage.result = .ok .stop ∧ passage.state.outgoing.find? message.key = none ∧
      ∃ delivery,
        passage.state.pool =
          ({ engine.othersQueued message transfer with
            delivery := delivery }.enqueue engine.now
            transfer.state.whole transfer.hooks).2.suppress engine.now
            transfer.state.whole := by
  intro passage
  obtain ⟨block, acknowledges, found⟩ := concluding.confirms
  obtain ⟨option, staged_eq⟩ :=
    blockwiseReceive_of_acknowledgedBlock concluding.tokened
      acknowledges engine cell
  have concludes :=
    onBlockAcknowledged_of_completed found concluding.completed cell option
  rw [if_pos concluding.plain] at concludes
  have passage_eq : passage = _ := staged_eq.trans concludes
  obtain ⟨earlier, _, _, _, _, confirmed_eq⟩ :=
    blockConfirmed_of_completed found concluding.completed
  have confirmedPool : (engine.blockConfirmed message block).pool =
      engine.pool.discard message.id := by
    rw [confirmed_eq]
    rfl
  have confirmedNow : (engine.blockConfirmed message block).now = engine.now := by
    rw [confirmed_eq]
    rfl
  obtain ⟨delivery, pool_eq, now_eq, gone⟩ :=
    (engine.blockConfirmed message block).finished_spec message.key transfer
  generalize (engine.blockConfirmed message block).finished message.key
    transfer = finished at *
  rw [confirmedPool] at pool_eq
  rw [confirmedNow] at now_eq
  have queued := @enqueue_of_roomy finished transfer.state.whole transfer.hooks (by
    rw [pool_eq, now_eq]
    exact roomy)
  rw [queued] at passage_eq
  rw [passage_eq]
  refine ⟨rfl, gone, delivery, ?_⟩
  unfold suppress
  dsimp only
  rw [pool_eq, now_eq]
  rfl

end Engine

/-! ## Messages that are not sent again -/

/-- The operation queues something under an identifier, or starts it again. -/
def Operation.revives
    (id : MessageId) :
    Operation →
    Bool
  | .act (.enqueue message _ _) => decide (message.id = id)
  | .act (.request message _) => decide (message.id = id)
  | .act (.requeue other) => decide (other = id)
  | .ask message _ _ => decide (message.id = id)
  | _ => false

/--
A message rests: under its identifier and token only fragments need to be sent, and
no transfer under its token will queue it again.
-/
def Discipline.resting
    (arq : ArqConfig)
    (whole : Message) :
    Discipline arq where
  queues := fun id message hooks needsSend =>
    (tidy arq).queues id message hooks needsSend ∧
      (id = whole.id → message.key = whole.key → needsSend = true →
        Engine.IsPieceHook hooks)
  transfers := fun token sent hooks =>
    (tidy arq).transfers token sent hooks ∧ (token = whole.key → sent.id ≠ whole.id)
  rests := fun allowed =>
    ⟨(tidy arq).rests allowed.1, fun _ _ awake => absurd awake Bool.false_ne_true⟩
  cuts := fun id serial allowed isBlock =>
    ⟨(tidy arq).cuts id serial allowed.1 isBlock, fun _ _ _ => ⟨_, serial, rfl⟩⟩
  completes := fun allowed =>
    ⟨(tidy arq).completes allowed.1, fun sameId sameKey _ =>
      absurd sameId (allowed.2 (allowed.1.1.symm.trans sameKey))⟩
  starts := by
    intro engine message hooks arq_eq needs allowed
    obtain ⟨withHooks, without⟩ := (tidy arq).starts arq_eq needs allowed.1
    have different (sameKey : message.key = whole.key) :
        (Engine.transferMessage message).id ≠ whole.id := by
      rw [Engine.id_transferMessage]
      exact fun sameId => withHooks.2.1 (allowed.2 sameId sameKey rfl)
    exact ⟨⟨withHooks, different⟩, without, different⟩

/--
A message rests as long as nothing is queued or started again under its identifier.
-/
theorem Discipline.resting_allows
    {arq : ArqConfig}
    {whole : Message}
    {operation : Operation}
    (spares : operation.revives whole.id = false) :
    (resting arq whole).Allows operation := by
  have isTidy := @tidy_allows arq operation
  cases operation with
  | act action =>
      cases action with
      | enqueue message resends outcome =>
          exact ⟨isTidy, fun sameId => absurd sameId (of_decide_eq_false spares)⟩
      | request message who =>
          exact fun guard =>
            ⟨isTidy guard, fun sameId => absurd sameId (of_decide_eq_false spares)⟩
      | requeue id =>
          exact fun message hooks allowed =>
            ⟨isTidy message hooks allowed.1, fun sameId =>
              absurd sameId (of_decide_eq_false spares)⟩
      | _ => trivial
  | ask message resends handler =>
      exact ⟨isTidy, fun sameId => absurd sameId (of_decide_eq_false spares)⟩
  | _ => trivial

namespace Engine

variable {engine : Engine} {message whole : Message} {transfer : OutboundTransfer}

/-- A message that rests is not handed out. -/
theorem Obeys.next_ne
    {arq : ArqConfig}
    (obeys : engine.Obeys (.resting arq whole))
    (isWhole : IsWhole whole) :
    engine.next.1 ≠ some whole := by
  intro picked
  obtain ⟨id, entry, stores, message_eq, awake⟩ := awake_of_next picked
  have id_eq : id = whole.id := by
    rw [← message_eq]
    exact (obeys.keyed id entry stores).symm
  have allowed := obeys.queued id entry stores
  rw [awake] at allowed
  have piece := allowed.1 (allowed.2 id_eq (congrArg Message.key message_eq) rfl)
  rw [message_eq] at piece
  exact isWhole piece.hasOption

/--
The whole message of a transfer that has just ended rests if its token leads to it.
-/
theorem resting_of_stores
    (tidy : engine.Obeys (.tidy engine.arq))
    (ended : engine.outgoing.find? whole.key = none)
    (silenced : ∀ entry, engine.pool.entries.Stores whole.id entry →
      entry.needsSend = false) :
    engine.Obeys (.resting engine.arq whole) :=
  { tidy with
    queued := by
      intro id entry stores
      refine ⟨tidy.queued id entry stores, fun sameId _ awake => ?_⟩
      subst sameId
      cases (silenced entry stores).symm.trans awake
    filed := by
      intro token sent found
      refine ⟨tidy.filed token sent found, fun sameToken => ?_⟩
      subst sameToken
      cases ended.symm.trans found }

/--
The acknowledgement of the last block in full: what is queued
afterwards, and in what state.
-/
theorem Obeys.receive_of_concluding
    {arq : ArqConfig}
    (tidy : engine.Obeys (.tidy arq))
    (concluding : engine.Concluding message transfer)
    (roomy : ((engine.othersQueued message transfer).enqueue engine.now
      transfer.state.whole transfer.hooks).1 = none)
    (source : SocketAddress) :
    let later := (engine.receive message source).2
    later.outgoing.find? message.key = none ∧
      ∀ id entry,
        later.pool.entries.Stores id entry ↔
          ∃ earlier,
            (id = transfer.state.whole.id ∧
                  earlier = PoolEntry.create engine.now transfer.state.whole
                    transfer.hooks ∨
                id ≠ transfer.state.whole.id ∧
                  (engine.othersQueued message
                    transfer).entries.Stores id earlier) ∧
              entry =
                if id = (engine.othersQueued message transfer).leadOf
                    transfer.state.whole then
                  earlier.suppressed
                else earlier := by
  intro later
  have addressed :
      engine.Concluding { message with address := some source } transfer :=
    ⟨concluding.tokened, concluding.plain, concluding.confirms,
      concluding.completed⟩
  obtain ⟨stops, ended, delivery, pool_eq⟩ :=
    blockwiseReceive_of_concluding addressed roomy (some source)
  have later_eq : later =
      (engine.blockwiseReceive { message with address := some source }
        (some source)).state :=
    congrArg Prod.snd (receive_of_stop stops)
  rw [← later_eq] at ended pool_eq
  refine ⟨ended, fun id entry => ?_⟩
  -- the rest of the pool is sound, so that what is stored is what has been queued
  have sound : { engine.othersQueued message transfer with
    delivery := delivery }.IsSound := by
    have discarded : (engine.othersQueued message transfer).IsSound :=
      Pool.isSound_foldl_discard
        (tidy.sound.of_thins (engine.pool.discard_thins message.id))
    exact ⟨discarded.ordered, discarded.unlimited⟩
  rw [pool_eq]
  exact sound.stores_enqueue_suppress roomy id entry

/--
In every run, when the last block of an upload is acknowledged without an answer,
the whole message is queued again, and of the other messages none is taken out but
the one that the acknowledgement names and the fragments. If the token of the
message leads to no older message, the whole message is silenced, no other message
is touched, and whatever happens later, it is not handed out unless it is queued or
started again. If the token leads to an older message, this one is silenced in its
place, and the upload is due to start again.
-/
theorem completed_upload_rests_unless_token_leads_elsewhere
    (poolConfig : PoolConfig)
    (arqConfig : ArqConfig)
    (nextId : MessageId)
    (operations : List Operation)
    (message : Message)
    (source : SocketAddress)
    (transfer : OutboundTransfer)
    (concluding :
      ((create poolConfig arqConfig nextId).performAll operations).Concluding
        message transfer)
    (roomy :
      let engine := (create poolConfig arqConfig nextId).performAll operations
      ((engine.othersQueued message transfer).enqueue engine.now
        transfer.state.whole transfer.hooks).1 = none) :
    let engine := (create poolConfig arqConfig nextId).performAll operations
    let later := (engine.receive message source).2
    let whole := transfer.state.whole
    let lead := (engine.othersQueued message transfer).leadOf whole
    let fresh := PoolEntry.create engine.now whole transfer.hooks
    later.pool.entries.Stores whole.id
      (if whole.id = lead then fresh.suppressed else fresh) ∧
      (∀ id entry, id ≠ whole.id →
        (later.pool.entries.Stores id entry ↔
          ∃ earlier,
            (id ≠ message.id ∧ id ∉ transfer.inFlight ∧
                engine.pool.entries.Stores id earlier) ∧
              entry = if id = lead then earlier.suppressed else earlier)) ∧
      (lead = whole.id →
        ∀ further : List Operation,
          (∀ operation ∈ further, operation.revives whole.id = false) →
            (later.performAll further).next.1 ≠ some whole) ∧
      (lead ≠ whole.id → poolConfig.IsPatient →
        ∃ entry,
          later.pool.entries.Stores whole.id entry ∧ entry.message = whole ∧
            entry.decision poolConfig engine.now = .handOut) := by
  intro engine later whole lead fresh
  have tidyBefore : engine.Obeys (.tidy arqConfig) :=
    (Obeys.create poolConfig (.tidy arqConfig) nextId).performAll
      fun operation _ => Discipline.tidy_allows operation
  have tidy : later.Obeys (.tidy arqConfig) := tidyBefore.receive message source
  obtain ⟨ended, stores_iff⟩ :=
    tidyBefore.receive_of_concluding concluding roomy source
  obtain ⟨block, _, found⟩ := concluding.confirms
  obtain ⟨key_eq, _, isWhole⟩ :=
    (tidyBefore.blockConfirmed message block).filed _ _ found
  have storesWhole : later.pool.entries.Stores whole.id
      (if whole.id = lead then fresh.suppressed else fresh) :=
    (stores_iff whole.id _).mpr ⟨fresh, .inl ⟨rfl, rfl⟩, rfl⟩
  refine ⟨storesWhole, fun id entry different => ?_, fun leads further spares => ?_,
    fun misleads patient => ⟨fresh, ?_, rfl, PoolEntry.decision_create patient _ _⟩⟩
  · rw [stores_iff]
    refine exists_congr fun earlier => and_congr_left fun _ => ?_
    rw [stores_othersQueued]
    exact ⟨fun either => (either.resolve_left fun same => different same.1).2,
      fun stores => .inr ⟨different, stores⟩⟩
  · have silenced (entry : PoolEntry)
        (stores : later.pool.entries.Stores whole.id entry) :
        entry.needsSend = false := by
      rw [stores.unique storesWhole, if_pos leads.symm]
      rfl
    have endedKey : later.outgoing.find? whole.key = none := by
      rw [key_eq]
      exact ended
    have resting := resting_of_stores (tidy.arq_eq ▸ tidy) endedKey silenced
    exact (resting.performAll fun operation member =>
      Discipline.resting_allows (spares operation member)).next_ne isWhole
  · rw [if_neg fun same => misleads same.symm] at storesWhole
    exact storesWhole

/--
An engine that sends two fragments of a request, the first of which is acknowledged.
-/
def halfway : Engine :=
  (create {} { windowSize := 2, maxPayload := 2 } 100).performAll
    [.act (.request sampleUpload (.observer "asker")), .act .poll, .act .poll,
      .act .poll, .act (.receive (sampleAck 100 8) (.v4 10 0 0 2 5683))]

/--
With both fragments acknowledged, the request is not sent again a second later.
-/
theorem completed_upload_rests_unless_token_leads_elsewhere_two_fragments :
    ∃ transfer,
      halfway.Concluding (sampleAck 101 16) transfer ∧
        transfer.state.whole = sampleUpload ∧
        ((halfway.receive (sampleAck 101 16) (.v4 10 0 0 2 5683)).2.performAll
          [.act (.advance (Nanos.ofSecs 1)), .act .poll]).next.1 ≠
          some sampleUpload := by
  let block := Block.ofData 1 [] false
  have isComplete :
      ((halfway.blockConfirmed (sampleAck 101 16) block).outgoing.find?
        sampleUpload.key).any
          (fun transfer =>
            transfer.state.isCompleted && transfer.state.whole = sampleUpload &&
            ((halfway.othersQueued (sampleAck 101 16) transfer).enqueue halfway.now
              transfer.state.whole transfer.hooks).1.isNone &&
            (halfway.othersQueued (sampleAck 101 16) transfer).leadOf
              transfer.state.whole =
              transfer.state.whole.id) = true := by
    decide +kernel
  obtain ⟨transfer, found, checks⟩ := (Option.any_eq_true _ _).mp isComplete
  simp only [Bool.and_eq_true, decide_eq_true_eq,
    Option.isNone_iff_eq_none] at checks
  obtain ⟨⟨⟨completed, whole_eq⟩, roomy⟩, leads⟩ := checks
  have concluding : halfway.Concluding (sampleAck 101 16) transfer :=
    ⟨rfl, by decide +kernel, ⟨block, by decide +kernel, found⟩, completed⟩
  have rests := (completed_upload_rests_unless_token_leads_elsewhere {}
    { windowSize := 2, maxPayload := 2 } 100 _ (sampleAck 101 16)
      (.v4 10 0 0 2 5683) transfer
    concluding roomy).2.2.1 leads
    [.act (.advance (Nanos.ofSecs 1)), .act .poll]
      (by rw [whole_eq]; decide +kernel)
  rw [whole_eq] at rests
  exact ⟨transfer, concluding, whole_eq, rests⟩

/--
A second request with the same token is queued between the two acknowledgements: it
is silenced in place of the first one, which is handed out again.
-/
theorem completed_upload_starts_again_behind_older_message :
    let other : Message := { sampleUpload with id := 8, payload := none }
    let later :=
      ((halfway.enqueue other {}).receive (sampleAck 101 16) (.v4 10 0 0 2 5683)).2
    later.outgoing = [] ∧
      (later.nextMany 3).1.map (Option.map Message.id) = [some 7, none, none] := by
  decide +kernel

end Engine

end Coap
