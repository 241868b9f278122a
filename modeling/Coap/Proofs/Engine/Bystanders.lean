import Mathlib.Tactic.Common
import Coap.Proofs.Engine.Completion
import Coap.Proofs.Engine.Inflow
import Coap.Proofs.Queue.Index

namespace Coap

/-!
# Uploads of peers and messages of one's own

A fragment of an upload is acknowledged and kept, and that touches no message of
the engine's own. The fragment that completes the upload goes on as an
acknowledgement, under the identifier that the peer chose. The next stage cannot
tell it from one that a message was waiting for: what is queued under this
identifier is taken out, and whoever waits under it is told. These are the only
bystanders that an upload can hit.
-/

namespace Cache

variable {K V : Type} [DecidableEq K] {cache later : Cache K V} {now : Timestamp}
variable {key : K}

/--
A look-up leaves a cache as it is exactly if it finds nothing at
all, even if it then removes.
-/
theorem eq_self_iff_of_get
    (looked : later = (cache.get now key).2 ∨
      later = (cache.get now key).2.erase key) :
    later = cache ↔ ∀ value, ¬ cache.Stores key value := by
  cases found : cache.entries.find? key with
  | none =>
      have unstored := find?_eq_none_iff.mp found
      have untouched : (cache.get now key).2 = cache := by
        unfold get
        rw [found]
      rw [untouched, erase_eq_self_iff.mpr unstored, or_self] at looked
      exact iff_of_true looked unstored
  | some slot =>
      have stored : cache.Stores key slot.value := ⟨slot, found, rfl⟩
      refine iff_of_false ?_ fun unstored => unstored slot.value stored
      intro same
      cases idle : cache.isIdle now slot with
      | true =>
          -- an idle entry is dropped
          have dropped : (cache.get now key).2 = cache.erase key := by
            unfold get
            simp only [found, idle, ↓reduceIte]
          rw [dropped] at looked
          have left : later.Stores key slot.value := same ▸ stored
          rcases looked with rfl | rfl
          · exact (stores_erase.mp left).1 rfl
          · exact (stores_erase.mp left).1 rfl
      | false =>
          -- any other entry gets a fresh stamp
          have stamped : (cache.get now key).2.nextStamp = cache.nextStamp + 1 := by
            unfold get
            simp only [found, idle, Bool.false_eq_true, ↓reduceIte]
            rfl
          have kept : later.nextStamp = (cache.get now key).2.nextStamp := by
            rcases looked with rfl | rfl
            · rfl
            · exact nextStamp_erase _ _
          rw [same, stamped] at kept
          exact Nat.ne_add_one cache.nextStamp kept

end Cache

/-- What is left of entries and index depends on nothing else. -/
theorem Pool.discard_congr
    {pool other : Pool}
    (entries_eq : other.entries = pool.entries)
    (index_eq : other.idsByToken = pool.idsByToken)
    (id : MessageId) :
    (other.discard id).entries = (pool.discard id).entries ∧
      (other.discard id).idsByToken = (pool.discard id).idsByToken := by
  refine ⟨by rw [discard_entries, discard_entries, entries_eq], ?_⟩
  unfold discard take unmap
  rw [entries_eq]
  split
  · exact index_eq
  · dsimp only
    rw [index_eq]
    split <;> rfl

/-- What is not queued need not be removed. -/
theorem Pool.discard_of_unqueued
    {pool : Pool}
    {id : MessageId}
    (unqueued : ∀ entry, ¬ pool.entries.Stores id entry) :
    pool.discard id = pool := by
  unfold discard take Cache.remove
  rw [Cache.find?_eq_none_iff.mpr unqueued]

namespace Engine

/-- The work of an engine is as it was, and nobody has been told anything. -/
structure LeftAlone (before after : Engine) : Prop where
  entries_eq : after.pool.entries = before.pool.entries
  index_eq : after.pool.idsByToken = before.pool.idsByToken
  acks_eq : after.acks = before.acks
  expected_eq : after.expected = before.expected
  outgoing_eq : after.outgoing = before.outgoing
  claimed_eq : after.claimed = before.claimed
  events_eq : after.events = before.events

namespace LeftAlone

variable {before after later : Engine}

theorem refl (engine : Engine) : LeftAlone engine engine :=
  ⟨rfl, rfl, rfl, rfl, rfl, rfl, rfl⟩

theorem trans
    (first : LeftAlone before after)
    (second : LeftAlone after later) :
    LeftAlone before later where
  entries_eq := second.entries_eq.trans first.entries_eq
  index_eq := second.index_eq.trans first.index_eq
  acks_eq := second.acks_eq.trans first.acks_eq
  expected_eq := second.expected_eq.trans first.expected_eq
  outgoing_eq := second.outgoing_eq.trans first.outgoing_eq
  claimed_eq := second.claimed_eq.trans first.claimed_eq
  events_eq := second.events_eq.trans first.events_eq

end LeftAlone

variable {engine : Engine} {message : Message} {source : SocketAddress}
variable {cell : Option SocketAddress}

/-! ## Stages that touch nothing -/

theorem sendNow_leftAlone
    (engine : Engine)
    (message : Message) :
    LeftAlone engine (engine.sendNow message).2 := by
  obtain ⟨refusals, sent, state_eq⟩ := engine.sendNow_frame message
  rw [state_eq]
  exact ⟨rfl, rfl, rfl, rfl, rfl, rfl, rfl⟩

theorem deliver_leftAlone
    (engine : Engine)
    (message : Message) :
    LeftAlone engine (engine.deliver message).2 := by
  unfold deliver
  split
  · exact ⟨rfl, rfl, rfl, rfl, rfl, rfl, rfl⟩
  · exact .refl engine

theorem onFragment_leftAlone
    (engine : Engine)
    (message : Message)
    (cell : Option SocketAddress)
    (option : OptionNumber)
    (block : Block)
    (window : UInt64) :
    LeftAlone engine
      (engine.onFragment message cell option block window).state := by
  obtain ⟨incoming, delivery, refusals, sent, state_eq, _⟩ :=
    engine.onFragment_frame message cell option block window
  rw [state_eq]
  exact ⟨rfl, rfl, rfl, rfl, rfl, rfl, rfl⟩

/-- Where nobody waits for a response, there is nothing to forget. -/
theorem forget_of_unawaited
    {token : TokenKey}
    (unawaited : ∀ handler, ¬ engine.expected.Stores token handler) :
    engine.forget token = (none, engine) := by
  unfold forget Cache.remove
  rw [Cache.find?_eq_none_iff.mpr unawaited]

/-- A response that nobody waits for is at most acknowledged. -/
theorem responseReceive_leftAlone
    (unawaited : ∀ handler, ¬ engine.expected.Stores message.key handler)
    (cell : Option SocketAddress) :
    LeftAlone engine (engine.responseReceive message cell).state := by
  by_cases unrelated : (message.isRequest || message.token.isNone) = true
  · rw [responseReceive_of_unrelated unrelated]
    exact .refl engine
  · obtain ⟨isResponse, isTokened⟩ :=
      Bool.or_eq_false_iff.mp (Bool.eq_false_iff.mpr unrelated)
    have tokened : message.token.isSome := Option.isNone_eq_false_iff.mp isTokened
    have acknowledged :
        LeftAlone engine (engine.acknowledgeResponse message cell).2 := by
      unfold acknowledgeResponse
      split
      · exact engine.sendNow_leftAlone _
      · exact .refl engine
    cases acknowledges : engine.acknowledgeResponse message cell with
    | mk sent later =>
        rw [acknowledges] at acknowledged
        cases sent with
        | error cause =>
            rw [responseReceive_of_unsent isResponse tokened acknowledges]
            exact acknowledged
        | ok _ =>
            by_cases empty : message.code = .empty
            · rw [responseReceive_of_empty tokened empty acknowledges]
              exact acknowledged
            · have forgets : later.forget message.key = (none, later) :=
                forget_of_unawaited (acknowledged.expected_eq ▸ unawaited)
              rw [responseReceive_of_unexpected isResponse tokened empty
                acknowledges forgets]
              exact acknowledged

/--
Behind the acknowledgement stage, a message that nobody waits for touches nothing.
-/
theorem handOver_leftAlone
    (unawaited : ∀ handler, ¬ engine.expected.Stores message.key handler)
    (cell : Option SocketAddress) :
    LeftAlone (engine.acknowledgementStage message cell).state
      (engine.handOver message cell).2 := by
  have stillUnawaited : ∀ handler,
      ¬ (engine.acknowledgementStage message cell).state.expected.Stores
      message.key handler := by
    rw [(engine.acknowledgementStage_windsDown message cell).expected_eq]
    exact unawaited
  have responded := responseReceive_leftAlone stillUnawaited cell
  unfold handOver
  dsimp only
  split
  · split
    · exact responded.trans (deliver_leftAlone _ _)
    · exact responded
  · exact responded

/-! ## Fragments that are none -/

/--
Only an empty payload keeps the block that a message names from being a fragment.
-/
theorem unfilled_of_blockless
    {option : OptionNumber}
    {block : Block}
    (confirmable : message.kind = .confirmable)
    (windowed : (message.uint? .windowSize).isSome = true)
    (tokened : message.token.isSome = true)
    (inBlocks : blockOption? message = some option)
    (reads : blockOf message option = .ok block)
    (blockless : fragmentBlock? message = none) :
    message.payload.isNone = true := by
  by_contra filled
  have isFilled : message.payload.isSome = true := by
    rw [Option.isSome_iff_ne_none]
    simpa using filled
  have brings : fragmentBlock? message = some block := by
    unfold fragmentBlock?
    rw [windowed, confirmable, tokened, isFilled, inBlocks, Option.bind_some, reads]
    rfl
  cases brings.symm.trans blockless

/--
A confirmable message that brings no block is let through as it
is, or goes no further.
-/
theorem blockwiseReceive_of_blockless
    (confirmable : message.kind = .confirmable)
    (inBlocks : message.hasOption .block1 = true)
    (blockless : fragmentBlock? message = none)
    (cell : Option SocketAddress) :
    LeftAlone engine (engine.blockwiseReceive message cell).state ∧
      ((engine.blockwiseReceive message cell).through? = some message ∨
        (engine.blockwiseReceive message cell).through? = none) := by
  have quiet : announcesTransfer message = false := by
    unfold announcesTransfer
    rw [confirmable]
    simp
  have isBlock1 : blockOption? message = some .block1 := by
    unfold blockOption?
    rw [if_pos inBlocks]
  unfold blockwiseReceive
  cases windowed : message.uint? .windowSize with
  | none => exact ⟨.refl engine, .inl rfl⟩
  | some window =>
      simp only [quiet, isBlock1, Bool.false_eq_true, ↓reduceIte]
      cases untokened : message.token.isNone with
      | true =>
          simp only [↓reduceIte]
          refine ⟨sendNow_leftAlone _ _, .inr ?_⟩
          unfold refuseUntokened Passage.through?
          dsimp only
          cases (engine.sendNow (message.resetTo cell)).1 <;> rfl
      | false =>
          simp only [Bool.false_eq_true, ↓reduceIte]
          unfold onBlock
          cases reads : blockOf message .block1 with
          | error cause => exact ⟨.refl engine, .inr rfl⟩
          | ok block =>
              dsimp only
              rw [confirmable]
              dsimp only
              have windowed_isSome : (message.uint? .windowSize).isSome = true := by
                rw [windowed]
                rfl
              rw [if_pos (unfilled_of_blockless confirmable windowed_isSome
                (Option.isNone_eq_false_iff.mp untokened) isBlock1 reads blockless)]
              exact ⟨.refl engine, .inr rfl⟩

/-! ## What an acknowledgement touches -/

/--
A message is queued under an identifier, or its acknowledgement is waited for.
-/
def Uses
    (engine : Engine)
    (id : MessageId) :
    Prop :=
  (∃ entry, engine.pool.entries.Stores id entry) ∨ ∃ handler,
    engine.acks.Stores id handler

/-- What whoever waits for an acknowledgement is told if it reports no error. -/
def toldOf
    (engine : Engine)
    (id : MessageId) :
    List Event :=
  match engine.acks.peek? engine.now id with
  | some (.listener who) => [.acknowledged who id none]
  | _ => []

/--
An acknowledgement without an error has arrived for an identifier, and nothing else.
-/
structure Acknowledges
    (before : Engine)
    (id : MessageId)
    (after : Engine) :
    Prop where
  entries_eq : after.pool.entries = (before.pool.discard id).entries
  index_eq : after.pool.idsByToken = (before.pool.discard id).idsByToken
  looked : after.acks = (before.acks.get before.now id).2 ∨
    after.acks = (before.acks.get before.now id).2.erase id
  expected_eq : after.expected = before.expected
  outgoing_eq : after.outgoing = before.outgoing
  claimed_eq : after.claimed = before.claimed
  events_eq : after.events = before.events ++ before.toldOf id

namespace Acknowledges

variable {before middle after : Engine} {id : MessageId}

theorem trans_leftAlone
    (acknowledges : Acknowledges before id middle)
    (spares : LeftAlone middle after) :
    Acknowledges before id after where
  entries_eq := spares.entries_eq.trans acknowledges.entries_eq
  index_eq := spares.index_eq.trans acknowledges.index_eq
  looked := by
    rw [spares.acks_eq]
    exact acknowledges.looked
  expected_eq := spares.expected_eq.trans acknowledges.expected_eq
  outgoing_eq := spares.outgoing_eq.trans acknowledges.outgoing_eq
  claimed_eq := spares.claimed_eq.trans acknowledges.claimed_eq
  events_eq := spares.events_eq.trans acknowledges.events_eq

theorem of_leftAlone
    (spares : LeftAlone before middle)
    (now_eq : middle.now = before.now)
    (acknowledges : Acknowledges middle id after) :
    Acknowledges before id after := by
  obtain ⟨entries_eq, index_eq⟩ :=
    Pool.discard_congr spares.entries_eq spares.index_eq id
  have told_eq : middle.toldOf id = before.toldOf id := by
    unfold toldOf
    rw [spares.acks_eq, now_eq]
  exact
    { entries_eq := acknowledges.entries_eq.trans entries_eq
      index_eq := acknowledges.index_eq.trans index_eq
      looked := by
        rw [← spares.acks_eq, ← now_eq]
        exact acknowledges.looked
      expected_eq := acknowledges.expected_eq.trans spares.expected_eq
      outgoing_eq := acknowledges.outgoing_eq.trans spares.outgoing_eq
      claimed_eq := acknowledges.claimed_eq.trans spares.claimed_eq
      events_eq := by rw [acknowledges.events_eq, spares.events_eq, told_eq] }

/-- Nothing is touched exactly if the identifier is not in use. -/
theorem leftAlone_iff (acknowledges : Acknowledges before id after) :
    LeftAlone before after ↔ ¬ before.Uses id := by
  have pool_iff : after.pool.entries = before.pool.entries ↔
      ∀ entry, ¬ before.pool.entries.Stores id entry := by
    rw [acknowledges.entries_eq, Pool.discard_entries]
    exact Cache.erase_eq_self_iff
  have acks_iff := Cache.eq_self_iff_of_get acknowledges.looked
  have unused_iff : ¬ before.Uses id ↔
      (∀ entry, ¬ before.pool.entries.Stores id entry) ∧
        ∀ handler, ¬ before.acks.Stores id handler := by
    unfold Uses
    rw [not_or, not_exists, not_exists]
  rw [unused_iff, ← pool_iff, ← acks_iff]
  constructor
  · exact fun spares => ⟨spares.entries_eq, spares.acks_eq⟩
  · rintro ⟨entries_eq, acks_eq⟩
    have unqueued := pool_iff.mp entries_eq
    have unwatched := acks_iff.mp acks_eq
    have index_eq : (before.pool.discard id).idsByToken =
        before.pool.idsByToken := by
      rw [Pool.discard_of_unqueued unqueued]
    have silent : before.toldOf id = [] := by
      unfold toldOf
      cases found : before.acks.peek? before.now id with
      | none => rfl
      | some handler =>
          exact absurd (Cache.stores_of_peek? found) (unwatched handler)
    exact
      { entries_eq := entries_eq
        index_eq := acknowledges.index_eq.trans index_eq
        acks_eq := acks_eq
        expected_eq := acknowledges.expected_eq
        outgoing_eq := acknowledges.outgoing_eq
        claimed_eq := acknowledges.claimed_eq
        events_eq := by rw [acknowledges.events_eq, silent, List.append_nil] }

/-- What is queued and waited for under other identifiers stays. -/
theorem stores_of_ne
    (acknowledges : Acknowledges before id after)
    {other : MessageId}
    (different : other ≠ id) :
    (∀ entry, after.pool.entries.Stores other entry ↔
      before.pool.entries.Stores other entry) ∧
      ∀ handler, after.acks.Stores other handler ↔
        before.acks.Stores other handler := by
  have looked (handler : AckHandler) :
      (before.acks.get before.now id).2.Stores other handler ↔
        before.acks.Stores other handler :=
    ⟨fun stores => stores.of_get, fun stores => stores.get_of_ne different⟩
  refine ⟨fun entry => ?_, fun handler => ?_⟩
  · rw [acknowledges.entries_eq, Pool.discard_entries, Cache.stores_erase]
    exact and_iff_right different
  · rcases acknowledges.looked with same | same
    · rw [same, looked]
    · rw [same, Cache.stores_erase, looked]
      exact and_iff_right different

/-- The message under the identifier is gone. -/
theorem not_stores
    (acknowledges : Acknowledges before id after)
    (entry : PoolEntry) :
    ¬ after.pool.entries.Stores id entry := by
  rw [acknowledges.entries_eq, Pool.discard_entries]
  exact fun stores => (Cache.stores_erase.mp stores).1 rfl

end Acknowledges

/--
An acknowledgement that carries an answer completes the message with its identifier.
-/
theorem acknowledgementStage_of_content
    (engine : Engine)
    (isAck : message.kind = .acknowledgement)
    (isContent : message.code = .content)
    (cell : Option SocketAddress) :
    Acknowledges engine message.id
      (engine.acknowledgementStage message cell).state := by
  have completes : (message.isRequest || !message.kind.isAckOrReset) = false := by
    unfold Message.isRequest
    rw [isAck, isContent]
    rfl
  have faultless : message.responseError? = none := by
    unfold Message.responseError?
    rw [isAck, isContent]
    rfl
  have told_eq : engine.toldOf message.id =
      match (engine.acks.get engine.now message.id).1 with
      | some (.listener who) => [.acknowledged who message.id none]
      | _ => [] := by
    unfold toldOf
    rw [Cache.get_fst]
  unfold acknowledgementStage discard
  dsimp only
  rw [if_neg (Bool.eq_false_iff.mp completes), faultless]
  cases found : (engine.acks.get engine.now message.id).1 with
  | none =>
      rw [found] at told_eq
      exact ⟨rfl, rfl, .inl rfl, rfl, rfl, rfl, by rw [told_eq, List.append_nil]⟩
  | some handler =>
      rw [found] at told_eq
      dsimp only
      split
      · cases handler with
        | listener who =>
            exact ⟨rfl, rfl, .inl rfl, rfl, rfl, rfl, by rw [told_eq]; rfl⟩
        | fragment token block =>
            exact ⟨rfl, rfl, .inl rfl, rfl, rfl,
              rfl, by rw [told_eq, List.append_nil]; rfl⟩
      · cases handler with
        | listener who =>
            exact ⟨rfl, rfl, .inr rfl, rfl, rfl, rfl, by rw [told_eq]; rfl⟩
        | fragment token block =>
            exact ⟨rfl, rfl, .inr rfl, rfl, rfl,
              rfl, by rw [told_eq, List.append_nil]; rfl⟩

/-! ## Uploads -/

/--
The identifier under which an upload goes on: that of a queued
message with its token, if any.
-/
def uploadId
    (engine : Engine)
    (message : Message) :
    MessageId :=
  ((engine.pool.lookup? engine.now message.key).map Message.id).getD message.id

/-- The fragment completes its upload, whose payload goes on to the later stages. -/
def Concludes
    (engine : Engine)
    (message : Message)
    (source : SocketAddress) :
    Prop :=
  (fragmentBlock? message).isSome ∧
    (engine.blockwiseReceive { message with address := some source }
      (some source)).result =
      .ok .pass

/--
Where the token index is sound, a token of no queued message gives
no identifier away.
-/
theorem uploadId_of_unqueued
    (sound : ∀ id, engine.pool.IndexesSoundly id)
    (unqueued : ∀ id entry,
      engine.pool.entries.Stores id entry → entry.message.key ≠ message.key) :
    engine.uploadId message = message.id := by
  have unmapped : engine.pool.idOf? message.key = none := by
    cases mapped : engine.pool.idOf? message.key with
    | none => rfl
    | some id =>
        obtain ⟨entry, stores, key_eq⟩ := sound id message.key mapped
        exact absurd key_eq (unqueued id entry stores)
  unfold uploadId Pool.lookup?
  rw [unmapped]
  rfl

/-- A confirmable message that nobody waits for completes nothing. -/
theorem handOver_leftAlone_of_confirmable
    (confirmable : message.kind = .confirmable)
    (unawaited : ∀ handler, ¬ engine.expected.Stores message.key handler)
    (cell : Option SocketAddress) :
    LeftAlone engine (engine.handOver message cell).2 := by
  have unrelated : (message.isRequest || !message.kind.isAckOrReset) = true := by
    rw [confirmable]
    exact Bool.or_true _
  have handed := handOver_leftAlone unawaited cell
  rwa [acknowledgementStage_of_unrelated unrelated] at handed

/--
A fragment that does not conclude its upload touches no work of the engine's own.
-/
theorem receive_leftAlone
    (confirmable : message.kind = .confirmable)
    (inBlocks : message.hasOption .block1 = true)
    (unawaited : ∀ handler, ¬ engine.expected.Stores message.key handler)
    (unconcluded : ¬ engine.Concludes message source) :
    LeftAlone engine (engine.receive message source).2 := by
  cases brings : fragmentBlock? message with
  | none =>
      obtain ⟨staged, passes | stops⟩ := @blockwiseReceive_of_blockless engine
        { message with
          address := some source } confirmable inBlocks brings (some source)
      · rw [receive_eq rfl, passes, Option.elim_some]
        refine staged.trans (handOver_leftAlone_of_confirmable ?_ ?_ _)
        · exact confirmable
        · rw [staged.expected_eq]
          exact unawaited
      · rw [receive_eq rfl, stops]
        exact staged
  | some block =>
      have addressed : fragmentBlock? { message with address := some source } =
          some block := brings
      obtain ⟨option, window, staged_eq⟩ := blockwiseReceive_of_fragment addressed
      have staged :=
        engine.onFragment_leftAlone { message with address := some source }
          (some source) option block window
      rw [← staged_eq] at staged
      cases result :
        (engine.blockwiseReceive { message with address := some source }
          (some source)).result with
      | error cause =>
          rw [receive_of_error result]
          exact staged
      | ok verdict =>
          have decided : verdict = .pass ∨ verdict = .stop := by
            rw [staged_eq] at result
            have outcome := congrArg Prod.fst (onFragment_of_ok result)
            split at outcome
            · exact .inl outcome
            · exact .inr outcome
          rcases decided with rfl | rfl
          · exact absurd ⟨by rw [brings]; rfl, result⟩ unconcluded
          · rw [receive_of_stop result]
            exact staged

/--
The payload of a concluded upload goes on as an acknowledgement
under the upload's identifier.
-/
theorem receive_of_concludes
    (unawaited : ∀ handler, ¬ engine.expected.Stores message.key handler)
    (concludes : engine.Concludes message source) :
    Acknowledges engine (engine.uploadId message)
      (engine.receive message source).2 := by
  obtain ⟨isFragment, passes⟩ := concludes
  obtain ⟨block, brings⟩ := Option.isSome_iff_exists.mp isFragment
  have addressed :
      fragmentBlock? { message with address := some source } = some block := brings
  obtain ⟨option, window, staged_eq⟩ := blockwiseReceive_of_fragment addressed
  specialize staged_eq engine (some source)
  have spares := engine.onFragment_leftAlone { message with address := some source }
    (some source) option block window
  have now_eq : (engine.onFragment { message with address := some source }
    (some source) option
      block window).state.now = engine.now := by
    obtain ⟨incoming, delivery, refusals, sent, state_eq, _⟩ :=
      engine.onFragment_frame
        { message with address := some source } (some source) option block window
    rw [state_eq]
  rw [staged_eq] at passes
  have whole_eq := (onFragment_of_pass passes).2
  generalize engine.onFragment { message with address := some source }
    (some source) option block window = passage at *
  have through_eq : passage.through? = some passage.message := by
    unfold Passage.through?
    rw [passes]
    rfl
  rw [receive_eq staged_eq, through_eq, Option.elim_some, whole_eq]
  let whole := engine.wholeOf { message with address := some source } block
  have completed : Acknowledges passage.state whole.id
      (passage.state.acknowledgementStage whole passage.cell).state :=
    passage.state.acknowledgementStage_of_content rfl rfl passage.cell
  refine (Acknowledges.of_leftAlone spares now_eq completed).trans_leftAlone
    (handOver_leftAlone ?_ passage.cell)
  rw [spares.expected_eq]
  exact unawaited

/--
A fragment of an upload that nobody waits for leaves every queued message, handler,
expectation and transfer alone and tells nobody anything, unless it concludes the
upload and a message is queued or waited for under the identifier of the upload.
This message is then taken out, and a listener that waits for its acknowledgement is
told that it has come; all else stays even then. The identifier is the one that the
peer chose, where no message of one's own has the token.
-/
theorem upload_touches_only_its_namesake
    (engine : Engine)
    (message : Message)
    (source : SocketAddress)
    (confirmable : message.kind = .confirmable)
    (inBlocks : message.hasOption .block1 = true)
    (unawaited : ∀ handler, ¬ engine.expected.Stores message.key handler) :
    let later := (engine.receive message source).2
    let id := engine.uploadId message
    (LeftAlone engine later ↔
      ¬ (engine.Concludes message source ∧ engine.Uses id)) ∧
      later.outgoing = engine.outgoing ∧ later.expected = engine.expected ∧
      later.claimed = engine.claimed ∧
      (∀ other, other ≠ id →
        (∀ entry, later.pool.entries.Stores other entry ↔
            engine.pool.entries.Stores other entry) ∧
          ∀ handler, later.acks.Stores other handler ↔
            engine.acks.Stores other handler) ∧
      (engine.Concludes message source →
        (∀ entry, ¬ later.pool.entries.Stores id entry) ∧
          later.events = engine.events ++ engine.toldOf id) ∧
      ((∀ queued, engine.pool.IndexesSoundly queued) →
        (∀ queued entry,
          engine.pool.entries.Stores queued entry →
            entry.message.key ≠ message.key) →
          id = message.id) := by
  intro later id
  by_cases concludes : engine.Concludes message source
  · have completed := receive_of_concludes unawaited concludes
    refine ⟨?_, completed.outgoing_eq, completed.expected_eq, completed.claimed_eq,
      fun other different => completed.stores_of_ne different,
      fun _ => ⟨completed.not_stores, completed.events_eq⟩, uploadId_of_unqueued⟩
    rw [completed.leftAlone_iff]
    exact not_congr (and_iff_right concludes).symm
  · have spares := receive_leftAlone confirmable inBlocks unawaited concludes
    refine ⟨iff_of_true spares fun both => concludes both.1, spares.outgoing_eq,
      spares.expected_eq, spares.claimed_eq,
      fun other _ => ⟨fun entry => ?_, fun handler => ?_⟩,
      fun impossible => absurd impossible concludes, uploadId_of_unqueued⟩
    · rw [spares.entries_eq]
    · rw [spares.acks_eq]

/-- An upload of one block under identifier 7. -/
def smallUpload : Message :=
  { id := 7
    kind := .confirmable
    code := .post
    token := some ⟨[7]⟩
    payload := some [1]
    options := [.uint .block1 0, .uint .windowSize 1] }

/--
An engine in which a message of another peer is queued, and its
acknowledgement waited for.
-/
def bystander (id : MessageId) : Engine :=
  ((create {} {} 100).register id (.listener (.observer "watcher"))).enqueue
    { id := id
      kind := .confirmable
      code := .get
      token := some ⟨[9]⟩
      address := some (.v4 10 0 0 3 5683) }
    {}

/-- A message under another identifier stays queued. -/
theorem upload_touches_only_its_namesake_other_id :
    (∀ handler, ¬ (bystander 8).expected.Stores smallUpload.key handler) ∧
      LeftAlone (bystander 8)
        ((bystander 8).receive smallUpload (.v4 10 0 0 2 5683)).2 := by
  have unawaited : ∀ handler,
      ¬ (bystander 8).expected.Stores smallUpload.key handler :=
    Cache.find?_eq_none_iff.mp (by decide +kernel)
  refine ⟨unawaited, (upload_touches_only_its_namesake (bystander 8) smallUpload
    (.v4 10 0 0 2 5683) rfl (by decide +kernel) unawaited).1.mpr ?_⟩
  rintro ⟨_, ⟨entry, queued⟩ | ⟨handler, watched⟩⟩
  · exact Cache.find?_eq_none_iff.mp (by decide +kernel) entry queued
  · exact Cache.find?_eq_none_iff.mp (by decide +kernel) handler watched

/--
The peer's upload takes out a message of another token under the same identifier,
and whoever waits for its acknowledgement is told that it has come.
-/
theorem upload_takes_out_its_namesake :
    let engine := bystander 7
    let later := (engine.receive smallUpload (.v4 10 0 0 2 5683)).2
    engine.pool.size = 1 ∧ engine.outgoing = [] ∧ engine.expected.isEmpty = true ∧
      (∀ entry ∈ engine.pool.held, entry.message.token ≠ smallUpload.token) ∧
      later.pool.size = 0 ∧ later.acks.size = 0 ∧
      later.events = [.acknowledged (.observer "watcher") 7 none] := by
  decide +kernel

end Engine

end Coap
