import Mathlib.Tactic.Common
import Coap.Proofs.Engine.Assembly

namespace Coap

/-!
# Fragments that are sent again

A fragment whose acknowledgement could not be sent is sent again by its peer. A
block that was kept is then found again, and nothing has changed. But a transfer
that its last block has completed is taken out before the acknowledgement is sent:
when that fails, the fragment that is sent again opens a transfer anew, and the
blocks before it are lost.
-/

namespace ReceiveState

variable {state other : ReceiveState}

/--
What a transfer has gathered: its blocks, the number of the last
one, and their count.
-/
abbrev Contents :=
  Table UInt32 (List UInt8) × Option UInt32 × UInt32

def contents (state : ReceiveState) : Contents :=
  (state.blocks, state.lastBlock, state.received)

/-- Completeness is decided by what has been gathered. -/
theorem isCompleted_congr (same : state.contents = other.contents) :
    state.isCompleted = other.isCompleted := by
  obtain ⟨_, rest⟩ := Prod.mk.inj same
  obtain ⟨last_eq, received_eq⟩ := Prod.mk.inj rest
  unfold isCompleted
  rw [last_eq, received_eq]

/-- A block that is found adds nothing. -/
theorem contents_accept_of_found
    {block : Block}
    (found : (state.blocks.find? block.number).isSome)
    (now : Timestamp)
    (code : Code) :
    (state.accept now block code).contents = state.contents := by
  obtain ⟨blocks_eq, last_eq, received_eq⟩ := accept_of_found found now code
  exact Prod.ext blocks_eq (Prod.ext last_eq received_eq)

/-- A block that has just been taken in is found. -/
theorem isSome_find?_accept
    (state : ReceiveState)
    (now : Timestamp)
    (block : Block)
    (code : Code) :
    ((state.accept now block code).blocks.find? block.number).isSome := by
  cases found : state.blocks.find? block.number with
  | none =>
      rw [(accept_of_new found now code).1, Table.find?_put_self]
      rfl
  | some data =>
      have isFound : (state.blocks.find? block.number).isSome := by rw [found]; rfl
      rw [(accept_of_found isFound now code).1]
      exact isFound

/-- A fresh transfer holds its first block alone. -/
theorem contents_accept_start
    (now : Timestamp)
    (initiating : Message)
    (block : Block)
    (code : Code) :
    ((start now initiating).accept now block code).contents =
      ([(block.number, block.data)], if block.more then none else some block.number,
        1) := by
  obtain ⟨blocks_eq, last_eq, received_eq⟩ :=
    @accept_of_new (start now initiating) block rfl now code
  exact Prod.ext blocks_eq (Prod.ext last_eq received_eq)

/--
A single block is a transfer of its own exactly if it has number 0 and none follows.
-/
theorem isCompleted_accept_start_iff
    (now : Timestamp)
    (initiating : Message)
    (block : Block)
    (code : Code) :
    ((start now initiating).accept now block code).isCompleted = true ↔
      block.number = 0 ∧ block.more = false := by
  obtain ⟨_, rest⟩ := Prod.mk.inj (contents_accept_start now initiating block code)
  obtain ⟨last_eq, received_eq⟩ := Prod.mk.inj rest
  unfold isCompleted
  rw [last_eq, received_eq]
  cases block.more with
  | true => simp
  | false =>
      simp only [Bool.false_eq_true, ↓reduceIte, decide_eq_true_eq, and_true]
      exact UInt32.lt_one_iff

/-- A block with number 0 that completes a transfer is all of its data. -/
theorem data?_of_first
    {now : Timestamp}
    {block : Block}
    {code : Code}
    (unfinished : state.isCompleted = false)
    (completed : (state.accept now block code).isCompleted = true)
    (distinct : (Table.keys (state.accept now block code).blocks).Nodup)
    (first : block.number = 0)
    (ends : block.more = false) :
    (state.accept now block code).data? = some block.data := by
  have new : state.blocks.find? block.number = none := by
    cases found : state.blocks.find? block.number with
    | none => rfl
    | some data =>
        have isFound :
            (state.blocks.find? block.number).isSome := by rw [found]; rfl
        rw [isCompleted_congr (contents_accept_of_found isFound now code),
          unfinished] at completed
        cases completed
  obtain ⟨blocks_eq, last_eq, _⟩ := accept_of_new new now code
  rw [ends, first] at last_eq
  rw [data?_eq distinct last_eq, blocks_eq, first]
  simp [List.range_succ]

end ReceiveState

namespace Engine

/-- What has been gathered under the token of a message. -/
def progress
    (engine : Engine)
    (message : Message) :
    Option ReceiveState.Contents :=
  (engine.incoming.peek? engine.now message.key).map ReceiveState.contents

/--
What comes of an attempt: its result, the message it hands on, and
what has been gathered.
-/
def upshot
    (message : Message)
    (attempt : Passage Engine) :
    Except StageError Verdict × Message × Option ReceiveState.Contents :=
  (attempt.result, attempt.message, attempt.state.progress message)

variable {engine later : Engine} {message : Message} {block : Block}
variable {verdict : Verdict}
variable {cell : Option SocketAddress} {option : OptionNumber} {window : UInt64}

/-! ## What an attempt leaves -/

/-- After an attempt, the engine goes on with what the attempt has kept. -/
structure Resumes
    (engine : Engine)
    (message : Message)
    (block : Block)
    (later : Engine) :
    Prop where
  now_eq : later.now = engine.now
  idle_eq : later.incoming.idle = engine.incoming.idle
  peek_eq : later.incoming.peek? engine.now message.key = engine.kept? message block
  lookup_eq : ∀ token,
    later.pool.lookup? engine.now token = engine.pool.lookup? engine.now token

/-- This holds whether or not the acknowledgement could be sent. -/
theorem resumes_onFragment
    (engine : Engine)
    (message : Message)
    (cell : Option SocketAddress)
    (option : OptionNumber)
    (block : Block)
    (window : UInt64)
    (refusals : Nat) :
    engine.Resumes message block
      { (engine.onFragment message cell option block window).state with
        refusals := refusals } := by
  obtain ⟨incoming, delivery, remaining, sent, state_eq, leaves⟩ :=
    engine.onFragment_frame message cell option block window
  rw [state_eq]
  exact ⟨rfl, leaves.idle_eq, leaves.peek_eq, fun _ => rfl⟩

/-- An attempt that succeeds hands the data on or keeps the block. -/
theorem upshot_onFragment
    (succeeds :
      (engine.onFragment message cell option block window).result = .ok verdict) :
    upshot message (engine.onFragment message cell option block window) =
      if engine.completes message block then
        (.ok .pass, engine.wholeOf message block, none)
      else (.ok .stop, message.removeOption option,
        (engine.kept? message block).map ReceiveState.contents) := by
  have outcome := onFragment_of_ok succeeds
  have progress_eq :
      (engine.onFragment message cell option block window).state.progress message =
        (engine.kept? message block).map ReceiveState.contents := by
    obtain ⟨incoming, delivery, refusals, sent, state_eq, leaves⟩ :=
      engine.onFragment_frame message cell option block window
    rw [state_eq, ← leaves.peek_eq]
    rfl
  unfold upshot
  rw [succeeds, progress_eq]
  cases completing : engine.completes message block with
  | false =>
      rw [completing] at outcome
      obtain ⟨rfl, message_eq⟩ := Prod.mk.inj outcome
      rw [message_eq]
      rfl
  | true =>
      rw [completing] at outcome
      obtain ⟨rfl, message_eq⟩ := Prod.mk.inj outcome
      rw [message_eq, kept?_of_completes completing]
      rfl

/-! ## A second attempt -/

namespace Resumes

theorem inProgress_eq (resumes : engine.Resumes message block later) :
    later.inProgress message =
      (engine.kept? message block).getD (.start engine.now message) := by
  unfold inProgress
  rw [resumes.now_eq, resumes.peek_eq]

theorem ackOf_eq
    (resumes : engine.Resumes message block later)
    (code : Code) :
    later.ackOf message cell option block window code =
      engine.ackOf message cell option block window code := by
  unfold ackOf
  rw [resumes.now_eq, resumes.lookup_eq]

/--
If the block was kept, it is found again, and its transfer is as far as it was.
-/
theorem of_kept
    (resumes : engine.Resumes message block later)
    (keeps : engine.completes message block = false) :
    later.completes message block = false ∧
      (later.kept? message block).map ReceiveState.contents =
        (engine.kept? message block).map ReceiveState.contents := by
  by_cases atOnce : engine.incoming.idle = some 0
  · unfold completes kept?
    rw [resumes.idle_eq]
    simp [atOnce]
  · have unfinished : (engine.gathered message block).isCompleted = false := by
      unfold completes at keeps
      rwa [decide_eq_true atOnce, Bool.true_and] at keeps
    have kept_eq : engine.kept? message block =
        some (engine.gathered message block) := by
      unfold kept?
      rw [if_neg fun either => either.elim atOnce (Bool.eq_false_iff.mp unfinished)]
    have again_eq : later.gathered message block =
        (engine.gathered message block).accept engine.now block message.code := by
      unfold gathered
      rw [resumes.inProgress_eq, kept_eq, resumes.now_eq]
      rfl
    have found :=
      (engine.inProgress message).isSome_find?_accept engine.now block message.code
    have same : (later.gathered message block).contents =
        (engine.gathered message block).contents := by
      rw [again_eq]
      exact ReceiveState.contents_accept_of_found found engine.now message.code
    have still := (ReceiveState.isCompleted_congr same).trans unfinished
    have kept_again :
        later.kept? message block = some (later.gathered message block) := by
      unfold kept?
      rw [resumes.idle_eq,
        if_neg fun either => either.elim atOnce (Bool.eq_false_iff.mp still)]
    refine ⟨?_, ?_⟩
    · unfold completes
      rw [still, Bool.and_false]
    · rw [kept_again, kept_eq, Option.map_some, Option.map_some, same]

/-- If the block completed its transfer, it opens one anew. -/
theorem gathered_of_completed
    (resumes : engine.Resumes message block later)
    (completing : engine.completes message block = true) :
    later.gathered message block =
      (ReceiveState.start engine.now message).accept engine.now block
        message.code := by
  unfold gathered
  rw [resumes.inProgress_eq, kept?_of_completes completing, resumes.now_eq]
  rfl

theorem completes_iff_of_completed
    (resumes : engine.Resumes message block later)
    (completing : engine.completes message block = true) :
    later.completes message block = true ↔
      block.number = 0 ∧ block.more = false := by
  have lasting := (Bool.and_eq_true_iff.mp completing).1
  unfold completes
  rw [resumes.idle_eq, lasting, Bool.true_and,
    resumes.gathered_of_completed completing]
  exact ReceiveState.isCompleted_accept_start_iff _ _ _ _

/-- What is left then is a transfer that holds the one block. -/
theorem kept?_of_completed
    (resumes : engine.Resumes message block later)
    (completing : engine.completes message block = true)
    (keepsAgain : later.completes message block = false) :
    later.kept? message block =
      some ((ReceiveState.start engine.now message).accept engine.now block
        message.code) := by
  have lasting := (Bool.and_eq_true_iff.mp completing).1
  unfold completes at keepsAgain
  rw [resumes.idle_eq, lasting, Bool.true_and] at keepsAgain
  unfold kept?
  rw [resumes.idle_eq, if_neg, resumes.gathered_of_completed completing]
  rintro (atOnce | isCompleted)
  · exact of_decide_eq_true lasting atOnce
  · exact Bool.eq_false_iff.mp keepsAgain isCompleted

/-- A transfer of one block is passed on again as it would have been. -/
theorem wholeOf_eq
    {heard : TokenKey → List Block}
    (resumes : engine.Resumes message block later)
    (gathers : engine.Gathers heard)
    (completing : engine.completes message block = true)
    (first : block.number = 0)
    (ends : block.more = false) :
    later.wholeOf message block = engine.wholeOf message block := by
  have unfinished := (gathers.inProgress message).1
  have distinct : (Table.keys (engine.gathered message block).blocks).Nodup := by
    have comesFrom := (gathers.mono fun token =>
      List.subset_append_left (heard token) [block]).gathered
        (List.mem_append_right (heard message.key) List.mem_cons_self)
    obtain ⟨kept, arrivals, keeps, _⟩ := comesFrom.exists_keeps
    exact keeps.keys_distinct
  have once : (engine.gathered message block).data? = some block.data :=
    ReceiveState.data?_of_first unfinished
      (isCompleted_of_completes completing) distinct first ends
  have again : (later.gathered message block).data? = some block.data := by
    have isCompleted :=
      (ReceiveState.isCompleted_accept_start_iff engine.now message block
        message.code).mpr ⟨first, ends⟩
    rw [resumes.gathered_of_completed completing]
    refine ReceiveState.data?_of_first rfl isCompleted ?_ first ends
    have alone :=
      ReceiveState.contents_accept_start engine.now message block message.code
    rw [(Prod.mk.inj alone).1]
    exact List.nodup_singleton _
  unfold wholeOf
  rw [once, again, resumes.now_eq, resumes.lookup_eq]

/--
A block that was kept, or is a transfer of its own, comes to the
same at both attempts.
-/
theorem upshot_eq
    {heard : TokenKey → List Block}
    {expected : Verdict}
    (resumes : engine.Resumes message block later)
    (gathers : engine.Gathers heard)
    (spared : engine.completes message block = true →
      block.number = 0 ∧ block.more = false)
    (succeeds :
      (later.onFragment message cell option block window).result = .ok verdict)
    (expects :
      (engine.onFragment message cell option block window).result = .ok expected) :
    upshot message (later.onFragment message cell option block window) =
      upshot message (engine.onFragment message cell option block window) := by
  rw [upshot_onFragment succeeds, upshot_onFragment expects]
  cases completing : engine.completes message block with
  | false =>
      obtain ⟨keepsAgain, contents_eq⟩ := resumes.of_kept completing
      rw [keepsAgain, contents_eq]
      rfl
  | true =>
      obtain ⟨first, ends⟩ := spared completing
      rw [(resumes.completes_iff_of_completed completing).mpr ⟨first, ends⟩,
        resumes.wholeOf_eq gathers completing first ends]
      rfl

/-- Of any other transfer, no more than the block is left. -/
theorem upshot_of_completed
    (resumes : engine.Resumes message block later)
    (completing : engine.completes message block = true)
    (several : ¬ (block.number = 0 ∧ block.more = false))
    (succeeds :
      (later.onFragment message cell option block window).result = .ok verdict) :
    upshot message (later.onFragment message cell option block window) =
      (.ok .stop, message.removeOption option,
        some ([(block.number, block.data)],
          if block.more then none else some block.number, 1)) := by
  have keepsAgain : later.completes message block = false :=
    Bool.eq_false_iff.mpr fun completesAgain =>
      several ((resumes.completes_iff_of_completed completing).mp completesAgain)
  rw [upshot_onFragment succeeds, keepsAgain, resumes.kept?_of_completed completing
    keepsAgain, Option.map_some, ReceiveState.contents_accept_start]
  rfl

/--
So a second attempt makes up for the first one unless a transfer
of several blocks is over.
-/
theorem makes_up
    {heard : TokenKey → List Block}
    (resumes : engine.Resumes message block later)
    (gathers : engine.Gathers heard)
    (unrefused : engine.refusals = 0)
    (succeeds :
      (later.onFragment message cell option block window).result = .ok verdict) :
    let again := later.onFragment message cell option block window
    let once := engine.onFragment message cell option block window
    (∃ expected, once.result = .ok expected) ∧
      (upshot message again = upshot message once ↔
        (once.result = .ok .pass → block.number = 0 ∧ block.more = false)) ∧
      (once.result = .ok .pass → ¬ (block.number = 0 ∧ block.more = false) →
        upshot message again =
          (.ok .stop, message.removeOption option,
            some ([(block.number, block.data)],
              if block.more then none else some block.number, 1))) := by
  intro again once
  have sendable := (exists_ok_iff.mp ⟨verdict, succeeds⟩).1
  rw [resumes.ackOf_eq] at sendable
  obtain ⟨expected, expects⟩ := exists_ok_iff.mpr ⟨sendable, unrefused⟩
  have once_eq := upshot_onFragment expects
  have passes_iff : once.result = .ok .pass ↔
      engine.completes message block = true := by
    have result_eq := congrArg Prod.fst once_eq
    change once.result = _ at result_eq
    rw [result_eq]
    cases engine.completes message block with
    | false => exact iff_of_false (fun passes => by cases passes) Bool.false_ne_true
    | true => exact ⟨fun _ => rfl, fun _ => rfl⟩
  refine ⟨⟨expected, expects⟩, ⟨fun same passes => ?_, fun spared => ?_⟩,
    fun passes several => ?_⟩
  · by_contra several
    have lost := resumes.upshot_of_completed (passes_iff.mp passes) several succeeds
    have stops : once.result = .ok .stop := congrArg Prod.fst (same.symm.trans lost)
    rw [passes] at stops
    cases stops
  · exact resumes.upshot_eq gathers
      (fun completing => spared (passes_iff.mpr completing)) succeeds expects
  · exact resumes.upshot_of_completed (passes_iff.mp passes) several succeeds

end Resumes

/--
A fragment that is sent again at once, because its acknowledgement could not be sent
or was lost, is as good as one that was acknowledged at the first time, unless it is
the one that completes its transfer. The transfer has been taken out then, so only a
transfer of a single block is passed on; of any other one, no more than the block
that was sent again is left.
-/
theorem sent_again_makes_up_unless_completing
    (poolConfig : PoolConfig)
    (arqConfig : ArqConfig)
    (nextId : MessageId)
    (happenings : List Happening)
    (message : Message)
    (cell : Option SocketAddress)
    (block : Block)
    (brings : fragmentBlock? message = some block)
    (verdict : Verdict) :
    let engine := (create poolConfig arqConfig nextId).undergoAll happenings
    let attempt := engine.blockwiseReceive message cell
    let again := { attempt.state with refusals := 0 }.blockwiseReceive message cell
    let once := { engine with refusals := 0 }.blockwiseReceive message cell
    again.result = .ok verdict →
      (∃ expected, once.result = .ok expected) ∧
        (upshot message again = upshot message once ↔
          (once.result = .ok .pass → block.number = 0 ∧ block.more = false)) ∧
        (once.result = .ok .pass → ¬ (block.number = 0 ∧ block.more = false) →
          again.result = .ok .stop ∧
            again.state.progress message =
              some ([(block.number, block.data)],
                if block.more then none else some block.number, 1)) := by
  intro engine attempt again once succeeds
  obtain ⟨option, window, taken⟩ := blockwiseReceive_of_fragment brings
  have gathers : { engine with refusals := 0 }.Gathers fun token =>
      blocksFor token happenings :=
    (Gathers.run poolConfig arqConfig nextId happenings).of_drops
      fun _ _ stores => stores
  have resumes : { engine with refusals := 0 }.Resumes message block
      { attempt.state with refusals := 0 } := by
    change { engine with refusals := 0 }.Resumes message block
      { (engine.blockwiseReceive message cell).state with refusals := 0 }
    rw [taken engine cell]
    exact { engine.resumes_onFragment message cell option block window 0 with }
  have again_eq : again =
      { attempt.state with refusals := 0 }.onFragment message cell option
      block window :=
    taken _ cell
  have once_eq : once =
      { engine with refusals := 0 }.onFragment message cell option block window :=
    taken _ cell
  rw [again_eq] at succeeds
  obtain ⟨expects, makes_up_iff, loses⟩ := resumes.makes_up gathers rfl succeeds
  rw [← again_eq, ← once_eq] at makes_up_iff loses
  rw [← once_eq] at expects
  refine ⟨expects, makes_up_iff, fun passes several => ?_⟩
  obtain ⟨result_eq, rest⟩ := Prod.mk.inj (loses passes several)
  exact ⟨result_eq, (Prod.mk.inj rest).2⟩

/--
Of two blocks, the second arrives first: sent again, it makes up
for the refused answer.
-/
theorem sent_again_makes_up_unless_completing_second_of_two :
    let fragment := uploadFragment 1 (.ofData 1 [2] false)
    let engine := (create {} {} 100).undergoAll [.refuse 1]
    let attempt := engine.blockwiseReceive fragment (some uploader)
    let again :=
      { attempt.state with refusals := 0 }.blockwiseReceive fragment (some uploader)
    let once :=
      { engine with refusals := 0 }.blockwiseReceive fragment (some uploader)
    fragmentBlock? fragment = some (.ofData 1 [2] false) ∧
      attempt.result = .error (.transmit .refused) ∧ again.result = .ok .stop ∧
      upshot fragment again = upshot fragment once := by
  intro fragment engine attempt again once
  have brings : fragmentBlock? fragment = some (.ofData 1 [2] false) := by decide
  have refused : attempt.result = .error (.transmit .refused) := by decide +kernel
  have succeeds : again.result = .ok .stop := by decide +kernel
  have incomplete : once.result ≠ .ok .pass := by decide +kernel
  have makes_up_iff :=
    (sent_again_makes_up_unless_completing {} {} 100 [.refuse 1] fragment
      (some uploader) _ brings .stop succeeds).2.1
  exact ⟨brings, refused, succeeds,
    makes_up_iff.mpr fun passes => (incomplete passes).elim⟩

/--
Block 0 has arrived, and the answer to the last block is refused. Sent again, that
block is acknowledged as the only one of a transfer that never ends.
-/
theorem completing_fragment_sent_again_is_lost :
    let fragment := uploadFragment 2 (.ofData 1 [2] false)
    let engine :=
      (create {} {} 100).undergoAll [uploaded 1 (.ofData 0 [1] true), .refuse 1]
    let attempt := engine.blockwiseReceive fragment (some uploader)
    let again :=
      { attempt.state with refusals := 0 }.blockwiseReceive fragment (some uploader)
    let once :=
      { engine with refusals := 0 }.blockwiseReceive fragment (some uploader)
    fragmentBlock? fragment = some (.ofData 1 [2] false) ∧
      attempt.result = .error (.transmit .refused) ∧
      once.result = .ok .pass ∧ once.message.payload = some [1, 2] ∧
      again.result = .ok .stop ∧
      again.state.progress fragment = some ([(1, [2])], some 1, 1) := by
  decide +kernel

end Engine

end Coap
