import Mathlib.Tactic.Common
import Coap.Proofs.Cache.Contents
import Coap.Proofs.Engine.Discipline

namespace Coap

/-!
# Who is expected to answer

The expected responses are kept in a cache without bound. Nothing makes room in it,
and an engine touches it in four ways only: a request that is queued adds its token,
one that is sent again is touched, a response that arrives takes its token out, and
so does a sweep. All other work leaves it as it is.
-/

namespace Engine

variable {engine : Engine}

/-- Whoever is no longer waited for was stored under the token. -/
theorem forget_fst
    (engine : Engine)
    (token : TokenKey) :
    (engine.forget token).1 =
      (engine.expected.entries.find? token).map Slot.value := by
  unfold forget Cache.remove
  cases engine.expected.entries.find? token <;> rfl

theorem forget_eq_none_iff
    (engine : Engine)
    (token : TokenKey) :
    (engine.forget token).1 = none ↔
      ∀ handler, ¬ engine.expected.Stores token handler := by
  rw [forget_fst, Option.map_eq_none_iff]
  exact Cache.find?_eq_none_iff

/-! ## Work that expects nobody new -/

theorem enqueue_expected
    (engine : Engine)
    (message : Message)
    (hooks : Hooks) :
    (engine.enqueue message hooks).expected = engine.expected := by
  unfold enqueue
  dsimp only
  split
  · rfl
  · exact (giveUp_windsDown _ _ _).expected_eq

theorem dispatchFragments_expected
    (engine : Engine)
    (token : TokenKey)
    (fragments : List Fragment) :
    (engine.dispatchFragments token fragments).expected = engine.expected := by
  induction fragments generalizing engine with
  | nil => rfl
  | cons first rest inductionHypothesis =>
      exact (inductionHypothesis _).trans
        (enqueue_expected _ first.message first.hooks)

theorem blockConfirmed_expected
    (engine : Engine)
    (message : Message)
    (block : Block) :
    (engine.blockConfirmed message block).expected = engine.expected := by
  change (((engine.dropAck message.id).discard message.id).confirmBlock
    message.key block.number message.id).expected = engine.expected
  unfold confirmBlock
  split
  · rfl
  · exact dispatchFragments_expected _ _ _

theorem onBlockAcknowledged_expected
    (engine : Engine)
    (message : Message)
    (cell : Option SocketAddress)
    (option : OptionNumber)
    (block : Block) :
    (engine.onBlockAcknowledged message cell option block).state.expected =
      engine.expected := by
  have confirmed := engine.blockConfirmed_expected message block
  rcases engine.onBlockAcknowledged_finishes message cell option block with
      state_eq | ⟨transfer, found, state_eq | state_eq⟩
  · rw [state_eq]
    exact confirmed
  · have finished :=
      (@finished_windsDown (fun _ => False) _ _ _ found).expected_eq.trans confirmed
    rw [state_eq]
    exact (enqueue_expected _ transfer.state.whole transfer.hooks).trans finished
  · rw [state_eq]
    exact (@finished_windsDown
      (fun _ => False) _ _ _ found).expected_eq.trans confirmed

theorem blockwiseSend_expected
    (engine : Engine)
    (message : Message)
    (cell : Option SocketAddress) :
    (engine.blockwiseSend message cell).state.expected = engine.expected := by
  cases needs : engine.needsTransfer message with
  | false => rw [blockwiseSend_of_pass needs]
  | true =>
      rcases Nat.eq_zero_or_pos engine.arq.maxPayload with zero | positive
      · rw [blockwiseSend_of_zero needs zero]
        rfl
      · rw [blockwiseSend_of_needsTransfer needs positive]
        exact dispatchFragments_expected _ _ _

/-! ## Sending and receiving -/

section Boundless

variable (boundless : engine.expected.IsBoundless)
include boundless

theorem poll_expected (keyed : engine.pool.IsKeyed) :
    engine.poll.2.expected.IsBoundless := by
  have scanned : engine.next.2.expected.IsBoundless := by
    rw [(engine.next_windsDown keyed).expected_eq]
    exact boundless
  rw [poll_snd]
  cases engine.next.1 with
  | none => exact scanned
  | some message =>
      change (engine.next.2.dispatch message).expected.IsBoundless
      rw [(engine.next.2.dispatch_windsDown message).1.expected_eq,
        blockwiseSend_expected]
      unfold responded responseSend
      dsimp only
      split
      · exact scanned.get engine.next.2.now message.key
      · exact scanned

theorem responseReceive_expected
    (message : Message)
    (cell : Option SocketAddress) :
    (engine.responseReceive message cell).state.expected.IsBoundless := by
  obtain ⟨refusals, sent, noted | ⟨handler, _, completed⟩⟩ :=
    engine.responseReceive_cases message cell
  · rw [noted]
    exact boundless
  · rw [completed, (completeRequest_windsDown _ message handler).expected_eq]
    exact boundless.erase message.key

theorem handOver_expected
    (message : Message)
    (cell : Option SocketAddress) :
    (engine.handOver message cell).2.expected.IsBoundless := by
  have acknowledged :
      (engine.acknowledgementStage message cell).state.expected.IsBoundless := by
    rw [(engine.acknowledgementStage_windsDown message cell).expected_eq]
    exact boundless
  have responded := responseReceive_expected acknowledged message cell
  unfold handOver
  dsimp only
  split
  · split
    · rw [(@deliver_windsDown (fun _ => False) _ _).expected_eq]
      exact responded
    · exact responded
  · exact responded

theorem receive_expected
    (message : Message)
    (source : SocketAddress) :
    (engine.receive message source).2.expected.IsBoundless := by
  have staged : (engine.blockwiseReceive { message with address := some source }
      (some source)).state.expected.IsBoundless := by
    rcases engine.blockwiseReceive_cases { message with address := some source }
      (some source) with
        notes | ⟨option, block, _, acknowledges⟩
    · rw [(notes.winds fun _ => False).expected_eq]
      exact boundless
    · rw [acknowledges, onBlockAcknowledged_expected]
      exact boundless
  rw [receive_eq rfl]
  cases (engine.blockwiseReceive { message with address := some source }
    (some source)).through? with
  | none => exact staged
  | some current => exact handOver_expected staged current _

theorem process_expected
    (datagram : List UInt8)
    (source : SocketAddress) :
    (engine.process datagram source).2.expected.IsBoundless := by
  unfold process
  split
  · exact boundless
  · exact receive_expected boundless _ source

end Boundless

end Engine

end Coap
