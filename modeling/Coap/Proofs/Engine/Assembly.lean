import Mathlib.Tactic.Common
import Coap.Proofs.Engine.Gathering
import Coap.Proofs.Transfer.Holes

namespace Coap

/-!
# Payloads that are put together

In every run, an inbound transfer in progress has taken in blocks that were brought
under its token, and nothing else. What is passed on when it is complete has no
hole, unless a peer has numbered a block beyond the last one.
-/

namespace ReceiveState

/-- The state comes from taking in some of the blocks. -/
def ComesFrom
    (state : ReceiveState)
    (blocks : List Block) :
    Prop :=
  ∃ opened initiating arrivals,
    (start opened initiating).acceptAll arrivals = state ∧
      arrivals.map Arrival.block ⊆ blocks

variable {state : ReceiveState} {blocks more : List Block}

theorem comesFrom_start
    (opened : Timestamp)
    (initiating : Message) :
    (start opened initiating).ComesFrom blocks :=
  ⟨opened, initiating, [], rfl, List.nil_subset _⟩

namespace ComesFrom

theorem mono
    (comesFrom : state.ComesFrom blocks)
    (included : blocks ⊆ more) :
    state.ComesFrom more := by
  obtain ⟨opened, initiating, arrivals, state_eq, among⟩ := comesFrom
  exact ⟨opened, initiating, arrivals, state_eq, List.Subset.trans among included⟩

theorem accept
    (comesFrom : state.ComesFrom blocks)
    {block : Block}
    (among : block ∈ blocks)
    (now : Timestamp)
    (code : Code) :
    (state.accept now block code).ComesFrom blocks := by
  obtain ⟨opened, initiating, arrivals, rfl, others⟩ := comesFrom
  refine ⟨opened, initiating, arrivals ++ [⟨now, block, code⟩],
    acceptAll_append _ _ _, ?_⟩
  rw [List.map_append]
  exact List.append_subset.mpr
    ⟨others, List.cons_subset.mpr ⟨among, List.nil_subset _⟩⟩

/-- What is kept are some of the blocks. -/
theorem exists_keeps (comesFrom : state.ComesFrom blocks) :
    ∃ kept arrivals, state.Keeps kept arrivals ∧ kept ⊆ blocks := by
  obtain ⟨opened, initiating, arrivals, rfl, among⟩ := comesFrom
  obtain ⟨kept, keeps⟩ := Keeps.exists_of_start opened initiating arrivals
  exact ⟨kept, arrivals, keeps,
    fun block member => among (keeps.arrived block member)⟩

end ComesFrom

/--
If no number lies beyond the last one, a transfer is complete exactly if nothing is
missing, unless there are too many blocks to count.
-/
theorem Keeps.isCompleted_iff_of_within
    {kept : List Block}
    {arrivals : List Arrival}
    {last : UInt32}
    (keeps : state.Keeps kept arrivals)
    (isLast : state.lastBlock = some last)
    (within : ∀ arrival ∈ arrivals, arrival.block.number ≤ last) :
    state.isCompleted = true ↔
      state.blocks.length < 2 ^ 32 ∧ state.missing last = [] := by
  have none_beyond := keeps.beyond_eq_nil within
  rw [keeps.isCompleted_iff]
  refine and_congr_right fun _ => ⟨?_, fun whole => ?_⟩
  · rintro ⟨other, isOther, enough⟩
    rw [isLast] at isOther
    cases isOther
    rw [none_beyond] at enough
    exact List.eq_nil_of_length_eq_zero (Nat.le_zero.mp enough)
  · exact ⟨last, isLast, by rw [whole]; exact Nat.zero_le _⟩

end ReceiveState

/--
What happens to an engine: an operation, or the socket will refuse some datagrams.
-/
inductive Happening where
  | operate (operation : Operation)
  | refuse (count : Nat)
deriving DecidableEq

/-- The block that a happening brings under a token. -/
def Happening.blockFor?
    (token : TokenKey) :
    Happening →
    Option Block
  | .operate (.act (.receive message _)) =>
      if message.key = token then Engine.fragmentBlock? message else none
  | _ => none

/-- The blocks that were brought under a token. -/
def blocksFor
    (token : TokenKey)
    (happenings : List Happening) :
    List Block :=
  happenings.filterMap (Happening.blockFor? token)

namespace Engine

/-- The engine after something has happened to it. -/
def undergo
    (engine : Engine) :
    Happening →
    Engine
  | .operate operation => engine.perform operation
  | .refuse count => { engine with refusals := count }

/-- The engine after several things have happened to it. -/
def undergoAll
    (engine : Engine)
    (happenings : List Happening) :
    Engine :=
  happenings.foldl undergo engine

/--
No transfer in progress is complete, and each comes from what was
heard under its token.
-/
def Gathers
    (engine : Engine)
    (heard : TokenKey → List Block) :
    Prop :=
  ∀ token state, engine.incoming.Stores token state →
    state.isCompleted = false ∧ state.ComesFrom (heard token)

variable {engine before after : Engine} {heard : TokenKey → List Block}
variable {message : Message} {block : Block}

namespace Gathers

theorem create
    (poolConfig : PoolConfig)
    (arqConfig : ArqConfig)
    (nextId : MessageId) :
    (create poolConfig arqConfig nextId).Gathers heard := by
  rintro token state ⟨slot, found, _⟩
  cases found

theorem of_drops
    (gathers : before.Gathers heard)
    (drops : OnlyDrops before after) :
    after.Gathers heard :=
  fun token state stores => gathers token state (drops token state stores)

theorem mono
    {others : TokenKey → List Block}
    (gathers : engine.Gathers heard)
    (included : ∀ token, heard token ⊆ others token) :
    engine.Gathers others := by
  intro token state stores
  obtain ⟨unfinished, comesFrom⟩ := gathers token state stores
  exact ⟨unfinished, comesFrom.mono (included token)⟩

/--
The transfer that a fragment goes to comes from what was heard under its token.
-/
theorem inProgress
    (gathers : engine.Gathers heard)
    (message : Message) :
    (engine.inProgress message).isCompleted = false ∧
      (engine.inProgress message).ComesFrom (heard message.key) := by
  unfold Engine.inProgress
  cases found : engine.incoming.peek? engine.now message.key with
  | none => exact ⟨rfl, ReceiveState.comesFrom_start _ _⟩
  | some state => exact gathers message.key state (Cache.stores_of_peek? found)

theorem gathered
    (gathers : engine.Gathers heard)
    (isHeard : block ∈ heard message.key) :
    (engine.gathered message block).ComesFrom (heard message.key) :=
  (gathers.inProgress message).2.accept isHeard _ _

theorem onFragment
    (gathers : engine.Gathers heard)
    (isHeard : block ∈ heard message.key)
    (cell : Option SocketAddress)
    (option : OptionNumber)
    (window : UInt64) :
    (engine.onFragment message cell option block window).state.Gathers heard := by
  obtain ⟨incoming, _, _, _, state_eq, leaves⟩ :=
    engine.onFragment_frame message cell option block window
  rw [state_eq]
  intro token state stores
  rcases leaves.stores token state stores with ⟨_, earlier⟩ | ⟨rfl, isKept⟩
  · exact gathers token state earlier
  · obtain ⟨rfl, unfinished⟩ := kept?_eq_some isKept
    exact ⟨unfinished, gathers.gathered isHeard⟩

theorem receive
    (gathers : engine.Gathers heard)
    (isHeard : ∀ block, fragmentBlock? message = some block →
      block ∈ heard message.key)
    (source : SocketAddress) :
    (engine.receive message source).2.Gathers heard := by
  refine .of_drops ?_ (engine.receive_onlyDrops message source)
  cases brings : fragmentBlock? message with
  | none =>
      have addressed :
          fragmentBlock? { message with address := some source } = none := brings
      exact gathers.of_drops (blockwiseReceive_onlyDrops addressed engine _)
  | some block =>
      have addressed : fragmentBlock? { message with address := some source } =
          some block := brings
      obtain ⟨option, window, taken⟩ := blockwiseReceive_of_fragment addressed
      have isHeardHere :
          block ∈ heard { message with address := some source }.key :=
        isHeard block brings
      rw [taken]
      exact gathers.onFragment isHeardHere _ _ _

/-- What is heard in an operation is the block of the fragment that it receives. -/
theorem perform
    (gathers : engine.Gathers heard)
    {operation : Operation}
    (isHeard : ∀ token block,
      (Happening.operate operation).blockFor? token = some block →
        block ∈ heard token) :
    (engine.perform operation).Gathers heard := by
  cases operation with
  | act action =>
      cases action with
      | register id who => exact gathers.of_drops (.of_eq rfl)
      | enqueue message resends outcome =>
          exact gathers.of_drops (engine.enqueue_onlyDrops message _)
      | request message who =>
          have guarded : OnlyDrops engine
              ((engine.guardHandler who).2.expect message.key
                (engine.guardHandler who).1) :=
            .of_eq rfl
          exact gathers.of_drops (guarded.trans (enqueue_onlyDrops _ message _))
      | poll => exact gathers.of_drops engine.poll_onlyDrops
      | requeue id => exact gathers.of_drops (.of_eq rfl)
      | purge => exact gathers.of_drops engine.purge_onlyDrops
      | advance length => exact gathers.of_drops (.of_eq rfl)
      | receive message source =>
          refine gathers.receive
            (fun block brings => isHeard message.key block ?_) source
          exact (if_pos rfl).trans brings
  | ask message resends handler =>
      have expected : OnlyDrops engine
          (engine.expect message.key handler) := .of_eq rfl
      exact gathers.of_drops (expected.trans (enqueue_onlyDrops _ message _))
  | suppress message => exact gathers.of_drops (.of_eq rfl)
  | take id => exact gathers.of_drops (.of_eq rfl)
  | takeByToken token => exact gathers.of_drops (.of_eq rfl)
  | abort token =>
      exact gathers.of_drops (failTransferWithin_onlyDrops _ token engine)
  | drainPool reason => exact gathers.of_drops (engine.drainPool_onlyDrops reason)
  | failAllAcks reason =>
      exact gathers.of_drops (engine.failAllAcks_onlyDrops reason)

theorem undergo
    (gathers : engine.Gathers heard)
    {happening : Happening}
    (isHeard : ∀ token block, happening.blockFor? token = some block →
      block ∈ heard token) :
    (engine.undergo happening).Gathers heard := by
  cases happening with
  | operate operation => exact gathers.perform isHeard
  | refuse count => exact gathers.of_drops (.of_eq rfl)

theorem undergoAll
    (gathers : engine.Gathers heard)
    (happenings : List Happening) :
    (engine.undergoAll happenings).Gathers fun token =>
      heard token ++ blocksFor token happenings := by
  induction happenings generalizing engine heard with
  | nil => exact gathers.mono fun token => List.subset_append_left _ _
  | cons happening rest inductionHypothesis =>
      have first : (engine.undergo happening).Gathers fun token =>
          heard token ++ (happening.blockFor? token).toList := by
        refine (gathers.mono fun token => List.subset_append_left _ _).undergo ?_
        intro token block isHeard
        refine List.mem_append_right _ ?_
        rw [isHeard]
        exact List.mem_cons_self
      have others := inductionHypothesis first
      refine others.mono fun token => ?_
      unfold blocksFor
      rw [List.append_assoc, List.filterMap_cons]
      cases happening.blockFor? token with
      | none => exact List.Subset.refl _
      | some block => exact List.Subset.refl _

/-- In a run, transfers come from what was brought under their tokens. -/
theorem run
    (poolConfig : PoolConfig)
    (arqConfig : ArqConfig)
    (nextId : MessageId)
    (happenings : List Happening) :
    ((Engine.create poolConfig arqConfig nextId).undergoAll happenings).Gathers
      fun token =>
      blocksFor token happenings := by
  have fresh : (Engine.create poolConfig arqConfig nextId).Gathers fun _ => [] :=
    .create poolConfig arqConfig nextId
  have later := fresh.undergoAll happenings
  simpa only [List.nil_append] using later

end Gathers

/-! ## Holes -/

/-- What is passed on has no hole, unless a block lies beyond the last one. -/
theorem Gathers.exists_blocks
    (gathers : engine.Gathers heard)
    (brings : fragmentBlock? message = some block)
    {cell : Option SocketAddress}
    (passes : (engine.blockwiseReceive message cell).result = .ok .pass) :
    ∃ final ∈ heard message.key ++ [block],
      final.more = false ∧
        (engine.gathered message block).lastBlock = some final.number ∧
        ((engine.gathered message block).beyond final.number = [] →
          ∃ blocks, blocks ⊆ heard message.key ++ [block] ∧
            (blocks.map fun block => block.number.toNat) =
              List.range (final.number.toNat + 1) ∧
            (engine.blockwiseReceive message cell).message.payload =
              some (blocks.flatMap Block.data)) := by
  obtain ⟨option, window, taken⟩ := blockwiseReceive_of_fragment brings
  rw [taken] at passes ⊢
  obtain ⟨completing, message_eq⟩ := onFragment_of_pass passes
  have completed := isCompleted_of_completes completing
  have isHeard : block ∈ heard message.key ++ [block] :=
    List.mem_append_right _ List.mem_cons_self
  have comesFrom :
      (engine.gathered message block).ComesFrom (heard message.key ++ [block]) :=
    ((gathers.inProgress message).2.mono
      (List.subset_append_left _ _)).accept isHeard _ _
  obtain ⟨kept, arrivals, keeps, among⟩ := comesFrom.exists_keeps
  obtain ⟨_, last, isLast, enough⟩ := keeps.isCompleted_iff.mp completed
  obtain ⟨final, isKept, ends, rfl⟩ := keeps.exists_last isLast
  refine ⟨final, among isKept, ends, isLast, fun none_beyond => ?_⟩
  rw [none_beyond] at enough
  have whole := List.eq_nil_of_length_eq_zero (Nat.le_zero.mp enough)
  obtain ⟨blocks, areKept, numbers_eq, data_eq⟩ := keeps.exists_blocks isLast whole
  refine ⟨blocks, List.Subset.trans areKept among, numbers_eq, ?_⟩
  rw [message_eq]
  unfold wholeOf assembled
  rw [data_eq, Option.getD_some]

/--
A transfer is complete exactly if the blocks that have arrived beyond the last one
are at least as many as those that are missing before it and their counter has not
wrapped around; the last one has arrived, and said that none follows. So where no
number lies beyond it, a complete transfer holds every block and its data is all of
theirs, and what the block-wise stage passes on has no hole.
-/
theorem no_hole_unless_block_beyond_last
    (opened : Timestamp)
    (initiating : Message)
    (arrivals : List Arrival)
    (poolConfig : PoolConfig)
    (arqConfig : ArqConfig)
    (nextId : MessageId)
    (happenings : List Happening)
    (message : Message)
    (cell : Option SocketAddress)
    (block : Block) :
    let state := (ReceiveState.start opened initiating).acceptAll arrivals
    let engine := (create poolConfig arqConfig nextId).undergoAll happenings
    let heard := blocksFor message.key happenings ++ [block]
    let transfer := engine.gathered message block
    let passage := engine.blockwiseReceive message cell
    (state.isCompleted = true ↔
        state.blocks.length < 2 ^ 32 ∧
          ∃ last, state.lastBlock = some last ∧
            (state.missing last).length ≤ (state.beyond last).length) ∧
      (∀ last, state.lastBlock = some last →
        (∃ arrival ∈ arrivals,
          arrival.block.more = false ∧ arrival.block.number = last) ∧
          state.data? =
            some ((List.range (last.toNat + 1)).flatMap fun number =>
              (state.blocks.find? (UInt32.ofNat number)).getD []) ∧
          ((∀ arrival ∈ arrivals, arrival.block.number ≤ last) →
            (state.isCompleted = true ↔
              state.blocks.length < 2 ^ 32 ∧
                ∀ number, number ≤ last → (state.blocks.find? number).isSome))) ∧
      (fragmentBlock? message = some block → passage.result = .ok .pass →
        ∃ final ∈ heard,
          final.more = false ∧ transfer.lastBlock = some final.number ∧
          (transfer.beyond final.number = [] →
            ∃ blocks, blocks ⊆ heard ∧
              (blocks.map fun block => block.number.toNat) =
                List.range (final.number.toNat + 1) ∧
              passage.message.payload = some (blocks.flatMap Block.data))) := by
  intro state engine heard transfer passage
  obtain ⟨kept, keeps⟩ :=
    ReceiveState.Keeps.exists_of_start opened initiating arrivals
  refine ⟨keeps.isCompleted_iff, fun last isLast => ⟨?_, ?_, fun within => ?_⟩,
    fun brings passes => ?_⟩
  · obtain ⟨final, isKept, ends, number_eq⟩ := keeps.exists_last isLast
    obtain ⟨arrival, member, rfl⟩ := List.mem_map.mp (keeps.arrived final isKept)
    exact ⟨arrival, member, ends, number_eq⟩
  · exact ReceiveState.data?_eq keeps.keys_distinct isLast
  · rw [keeps.isCompleted_iff_of_within isLast within,
      ReceiveState.missing_eq_nil_iff]
  · exact (Gathers.run poolConfig arqConfig nextId
      happenings).exists_blocks brings passes

/-! ## Two uploads -/

/-- Where the fragments of the uploads below come from. -/
def uploader : SocketAddress :=
  .v4 127 0 0 1 5683

/-- A fragment of an upload under one token. -/
def uploadFragment
    (id : MessageId)
    (block : Block) :
    Message :=
  { id := id
    kind := .confirmable
    code := .post
    token := some ⟨[7]⟩
    address := some uploader
    payload := some block.data
    options := [.uint .block1 block.toRaw.toUInt64, .uint .windowSize 3] }

/-- A fragment of an upload arrives. -/
def uploaded
    (id : MessageId)
    (block : Block) :
    Happening :=
  .operate (.act (.receive (uploadFragment id block) uploader))

/-- Two blocks in order: what is passed on is made of both. -/
theorem no_hole_unless_block_beyond_last_two_blocks :
    let first := Block.ofData 0 [1] true
    let last := Block.ofData 1 [2] false
    let engine := (create {} {} 100).undergoAll [uploaded 1 first]
    let passage := engine.blockwiseReceive (uploadFragment 2 last) (some uploader)
    fragmentBlock? (uploadFragment 2 last) = some last ∧
      passage.result = .ok .pass ∧
      ∃ blocks : List Block,
        (blocks.map fun block => block.number.toNat) = [0, 1] ∧
          passage.message.payload = some (blocks.flatMap Block.data) := by
  intro first last engine passage
  have brings : fragmentBlock? (uploadFragment 2 last) = some last := by decide
  have passes : passage.result = .ok .pass := by decide +kernel
  obtain ⟨final, _, _, isLast, whole⟩ :=
    (no_hole_unless_block_beyond_last Timestamp.start
      (uploadFragment 1 first) [] {} {} 100
      [uploaded 1 first] (uploadFragment 2 last)
        (some uploader) last).2.2 brings passes
  have last_eq : (engine.gathered (uploadFragment 2 last) last).lastBlock =
      some 1 := by
    decide +kernel
  have number_eq : final.number = 1 := Option.some.inj (isLast.symm.trans last_eq)
  rw [number_eq] at whole
  obtain ⟨blocks, _, numbers_eq, payload_eq⟩ := whole (by decide +kernel)
  exact ⟨brings, passes, blocks, numbers_eq, payload_eq⟩

/--
Block 1 has not arrived, but block 7 counts in its place: the transfer is complete,
and what is passed on has a hole.
-/
theorem block_beyond_last_covers_hole :
    let last := Block.ofData 2 [3] false
    let engine := (create {} {} 100).undergoAll
      [uploaded 1 (.ofData 0 [1] true), uploaded 2 (.ofData 7 [8] true)]
    let transfer := engine.gathered (uploadFragment 3 last) last
    let passage := engine.blockwiseReceive (uploadFragment 3 last) (some uploader)
    fragmentBlock? (uploadFragment 3 last) = some last ∧
      transfer.isCompleted = true ∧ transfer.lastBlock = some 2 ∧
        transfer.missing 2 = [1] ∧
      passage.result = .ok .pass ∧ passage.message.payload = some [1, 3] := by
  decide +kernel

end Engine

end Coap
