import Mathlib.Tactic.Common
import Coap.Proofs.Engine.Cut
import Coap.Proofs.Engine.Telling

namespace Coap

/-!
# The accounts of all requests

Every request that was queued is on the ledger. Whatever happens to the engine, its
handler has been told one outcome, or waits among the expected responses and has
been told none. This holds as long as no expectation can have gone idle, each
request has a token of its own, and each asker is told apart.
-/

/-- A request on the ledger: its token, its handler, and whether it was queued. -/
structure Asked where
  token : TokenKey
  handler : ResponseHandler
  accepted : Bool
deriving DecidableEq

/-- The handler belongs to a request on the ledger. -/
def Issued
    (ledger : List Asked)
    (handler : ResponseHandler) :
    Prop :=
  ∃ asked ∈ ledger, asked.handler = handler

namespace Engine

/--
The books are in order, and every queued request without an outcome is expected.
-/
structure Accounts
    (ledger : List Asked)
    (now : Timestamp)
    (engine : Engine) :
    Prop where
  now_eq : engine.now = now
  books : engine.Books (Issued ledger)
  keyed : engine.pool.IsKeyed
  poolOrdered : engine.pool.entries.IsOrdered
  acksOrdered : engine.acks.IsOrdered
  lasts : engine.expected.Lasts responseIdle engine.now
  awaited : ∀ token handler,
    engine.expected.Stores token handler →
      ∃ asked ∈ ledger, asked.token = token ∧ asked.handler = handler
  kept : ∀ asked ∈ ledger,
    asked.accepted = true →
      engine.HasClaimed asked.handler ∨
        engine.expected.Stores asked.token asked.handler

namespace Accounts

variable {ledger : List Asked} {now : Timestamp} {engine later : Engine}
variable {gone : MessageId → Prop} {token : TokenKey}

/-- A fresh engine has an empty ledger. -/
theorem create
    (poolConfig : PoolConfig)
    (arqConfig : ArqConfig)
    (nextId : MessageId) :
    (create poolConfig arqConfig nextId).Accounts [] Timestamp.start where
  now_eq := rfl
  books :=
    { guarded := by rintro handler ⟨asked, member, _⟩; cases member
      apart := by rintro handler other ⟨asked, member, _⟩; cases member
      queued := by rintro id entry handler ⟨slot, found, _⟩; cases found
      carried := by intro token transfer handler found; cases found
      told := by rintro handler ⟨asked, member, _⟩; cases member
      untold := by rintro handler ⟨asked, member, _⟩; cases member
      addressed := by intro event member; cases member
      claims := by intro guard member; cases member }
  keyed := by rintro id entry ⟨slot, found, _⟩; cases found
  poolOrdered := ⟨_, _, Cache.shows_withCapacity _⟩
  acksOrdered := ⟨_, _, Cache.shows_withIdle _⟩
  lasts := .withIdle (by decide)
  awaited := by rintro token handler ⟨slot, found, _⟩; cases found
  kept := by intro asked member; cases member

/-- What winds down keeps the accounts. -/
theorem of_windsDown
    (accounts : engine.Accounts ledger now)
    (winds : WindsDown gone engine later)
    (tells : Tells (Issued ledger) engine later) :
    later.Accounts ledger now := by
  obtain ⟨books, grows⟩ := tells accounts.books
  exact
    { now_eq := winds.now_eq.trans accounts.now_eq
      books := books
      keyed := accounts.keyed.of_thins winds.pool
      poolOrdered := winds.pool.ordered accounts.poolOrdered
      acksOrdered := winds.acksOrdered accounts.acksOrdered
      lasts := by
        rw [winds.expected_eq, winds.now_eq]
        exact accounts.lasts
      awaited := by
        rw [winds.expected_eq]
        exact accounts.awaited
      kept := by
        intro asked member accepted
        rw [winds.expected_eq]
        exact (accounts.kept asked member accepted).imp_left fun claimed =>
          claimed.of_subset grows }

theorem of_silent
    (accounts : engine.Accounts ledger now)
    (winds : WindsDown gone engine later)
    (silent : Silent engine later) :
    later.Accounts ledger now :=
  accounts.of_windsDown winds (.of_silent winds silent)

theorem advance
    (accounts : engine.Accounts ledger now)
    {length : Nat}
    (early : now.nanos + length < responseIdle) :
    (engine.advance length).Accounts ledger (now.after length) :=
  { accounts with
    now_eq := congrArg (Timestamp.after · length) accounts.now_eq
    books := { accounts.books with }
    lasts := accounts.lasts.after (accounts.now_eq ▸ early) }

/-! ## Queueing -/

theorem register
    (accounts : engine.Accounts ledger now)
    (id : MessageId)
    (handler : AckHandler) :
    (engine.register id handler).Accounts ledger now :=
  { accounts with
    books := { accounts.books with }
    acksOrdered := accounts.acksOrdered.insert engine.now id handler }

/--
A message is queued with the handler of a request on the ledger, or with none.
-/
theorem enqueue
    (accounts : engine.Accounts ledger now)
    (message : Message)
    {hooks : Hooks}
    (issued : ∀ handler, hooks.response = some handler → Issued ledger handler) :
    (engine.enqueue message hooks).Accounts ledger now := by
  have inserted :
      { engine with
        pool :=
          (engine.pool.enqueue engine.now message hooks).2 }.Accounts ledger now :=
    { accounts with
      books :=
        { accounts.books with
          queued := by
            intro id entry handler stores isResponse
            rcases Pool.stores_of_enqueue stores with ⟨_, rfl⟩ | before
            · exact issued handler isResponse
            · exact accounts.books.queued id entry handler before isResponse }
      keyed := accounts.keyed.enqueue engine.now message hooks
      poolOrdered := by
        dsimp only
        rw [Pool.enqueue_entries]
        exact accounts.poolOrdered.insert engine.now message.id _ }
  unfold Engine.enqueue
  dsimp only
  split
  · exact inserted
  · next entry evicted =>
      obtain ⟨id, stores, _⟩ := Pool.stores_of_enqueue_fst evicted
      exact inserted.of_windsDown (giveUp_windsDown _ entry .evicted)
        (giveUp_tells _ (fun handler =>
          accounts.books.queued id entry handler stores) .evicted)

theorem dispatchFragments
    (accounts : engine.Accounts ledger now)
    {fragments : List Fragment}
    (unanswered : ∀ fragment ∈ fragments, fragment.hooks.response = none) :
    (engine.dispatchFragments token fragments).Accounts ledger now := by
  induction fragments generalizing engine with
  | nil => exact accounts
  | cons first rest inductionHypothesis =>
      obtain ⟨firstUnanswered, restUnanswered⟩ := List.forall_mem_cons.mp unanswered
      have registered :=
        accounts.register first.message.id (.fragment token first.blockNumber)
      have queued := registered.enqueue first.message (fun handler isResponse => by
        rw [firstUnanswered] at isResponse
        cases isResponse)
      exact inductionHypothesis queued restUnanswered

/-- A transfer goes on with its next fragments, which nobody waits for. -/
theorem cut
    (accounts : engine.Accounts ledger now)
    {transfer : OutboundTransfer}
    (issued : ∀ handler, transfer.hooks.response = some handler →
      Issued ledger handler) :
    ({ engine with
        outgoing := engine.outgoing.put token
          (Engine.cut token transfer engine.nextId).transfer
        nextId :=
          (Engine.cut token transfer engine.nextId).nextId }.dispatchFragments token
      (Engine.cut token transfer engine.nextId).fragments).Accounts ledger now := by
  obtain ⟨isOf, _⟩ := cut_isOf token transfer engine.nextId
  generalize Engine.cut token transfer engine.nextId = cutting at *
  have put : { engine with
      outgoing := engine.outgoing.put token cutting.transfer
      nextId := cutting.nextId }.Accounts ledger now :=
    { accounts with
      books :=
        { accounts.books with
          carried := by
            intro other later handler found isResponse
            rcases Table.find?_put_cases found with ⟨_, rfl⟩ | ⟨_, before⟩
            · rw [isOf.hooks_eq] at isResponse
              exact issued handler isResponse
            · exact accounts.books.carried other later handler before isResponse } }
  refine put.dispatchFragments fun fragment member => ?_
  rw [isOf.hooked fragment member]

theorem confirmBlock
    (accounts : engine.Accounts ledger now)
    (number : UInt32)
    (id : MessageId) :
    (engine.confirmBlock token number id).Accounts ledger now := by
  unfold Engine.confirmBlock
  split
  · exact accounts
  · next transfer found =>
      exact accounts.cut fun handler =>
        accounts.books.carried token transfer handler found

/--
The acknowledgement of a block moves its transfer on, or hands its handler back.
-/
theorem onBlockAcknowledged
    (accounts : engine.Accounts ledger now)
    (message : Message)
    (cell : Option SocketAddress)
    (option : OptionNumber)
    (block : Block) :
    (engine.onBlockAcknowledged message cell option block).state.Accounts ledger
      now := by
  have cleared :
      ((engine.dropAck message.id).discard message.id).Accounts ledger now :=
    accounts.of_silent (engine.dropAck_discard_spec message.id).1 ⟨rfl, rfl⟩
  have confirmed : (engine.blockConfirmed message block).Accounts ledger now :=
    cleared.confirmBlock block.number message.id
  rcases engine.onBlockAcknowledged_cases message cell option block with
      ⟨state_eq, _⟩ | ⟨transfer, released, found, _, _, winds, silent,
        waits | answers⟩
  · rw [state_eq]
    exact confirmed
  · rw [waits.1]
    have queued := (confirmed.of_silent (winds fun _ => False) silent).enqueue
      transfer.state.whole
      fun handler => confirmed.books.carried message.key transfer handler found
    exact queued.of_silent (@suppress_windsDown (fun _ => False) _ _) ⟨rfl, rfl⟩
  · rw [answers.1]
    exact confirmed.of_silent (winds fun _ => False) silent

/-! ## Sending -/

theorem blockwiseSend
    (accounts : engine.Accounts ledger now)
    (message : Message)
    (cell : Option SocketAddress) :
    (engine.blockwiseSend message cell).state.Accounts ledger now := by
  have taken := accounts.of_silent (engine.take_windsDown message.id) ⟨rfl, rfl⟩
  cases needs : engine.needsTransfer message with
  | false =>
      rw [blockwiseSend_of_pass needs]
      exact accounts
  | true =>
      rcases Nat.eq_zero_or_pos engine.arq.maxPayload with zero | positive
      · rw [blockwiseSend_of_zero needs zero]
        exact { taken with books := { taken.books with } }
      · rw [blockwiseSend_of_needsTransfer needs positive]
        have counted : { (engine.take message.id).2 with
            nextSerial :=
          (engine.take message.id).2.nextSerial + 1 }.Accounts ledger now :=
          { taken with books := { taken.books with } }
        refine counted.cut fun handler isResponse => ?_
        cases inPool : (engine.take message.id).1 with
        | none =>
            rw [inPool] at isResponse
            cases isResponse
        | some entry =>
            rw [inPool] at isResponse
            exact accounts.books.queued message.id entry handler
              (Pool.stores_of_take inPool) isResponse

/-- A request on its way out keeps its expectation alive. -/
theorem responded
    (accounts : engine.Accounts ledger now)
    (message : Message) :
    (engine.responded message).Accounts ledger now := by
  unfold Engine.responded responseSend
  dsimp only
  split
  · exact
      { accounts with
        books := { accounts.books with }
        lasts := accounts.lasts.get message.key
        awaited := fun token handler stores =>
          accounts.awaited token handler (accounts.lasts.stores_get.mp stores)
        kept := fun asked member accepted =>
          (accounts.kept asked member accepted).imp_right
            accounts.lasts.stores_get.mpr }
  · exact accounts

theorem poll (accounts : engine.Accounts ledger now) :
    engine.poll.2.Accounts ledger now := by
  have scanned : engine.next.2.Accounts ledger now :=
    accounts.of_windsDown (engine.next_windsDown accounts.keyed) engine.next_tells
  rw [poll_snd]
  cases engine.next.1 with
  | none => exact scanned
  | some message =>
      have staged :=
        (scanned.responded message).blockwiseSend message message.target?
      obtain ⟨winds, silent⟩ := engine.next.2.dispatch_windsDown message
      exact staged.of_silent winds silent

/-! ## Receiving -/

/-- A response that is awaited is the outcome of its request. -/
theorem responseReceive
    (accounts : engine.Accounts ledger now)
    (message : Message)
    (cell : Option SocketAddress) :
    (engine.responseReceive message cell).state.Accounts ledger now := by
  obtain ⟨refusals, sent, noted | ⟨handler, stores, completed⟩⟩ :=
    engine.responseReceive_cases message cell
  · rw [noted]
    exact { accounts with books := { accounts.books with } }
  · rw [completed]
    obtain ⟨asked, member, _, isHandler⟩ :=
      accounts.awaited message.key handler stores
    have issued : Issued ledger handler := ⟨asked, member, isHandler⟩
    obtain ⟨guard, _, isGuard⟩ := accounts.books.guarded handler issued
    -- between the two, the request is neither expected nor told
    generalize between_eq : { engine with
      expected := engine.expected.erase message.key
      refusals := refusals
      sent := sent } = between
    have forgotten : between.Books (Issued ledger) := by
      rw [← between_eq]
      exact { accounts.books with }
    have winds := between.completeRequest_windsDown message handler
    obtain ⟨books, grows⟩ := between.completeRequest_tells message issued forgotten
    have claims := between.completeRequest_claims message isGuard
    subst between_eq
    exact
      { now_eq := winds.now_eq.trans accounts.now_eq
        books := books
        keyed := accounts.keyed.of_thins winds.pool
        poolOrdered := winds.pool.ordered accounts.poolOrdered
        acksOrdered := winds.acksOrdered accounts.acksOrdered
        lasts := by
          rw [winds.expected_eq, winds.now_eq]
          exact accounts.lasts.erase message.key
        awaited := by
          rw [winds.expected_eq]
          exact fun token waiting stored =>
            accounts.awaited token waiting (Cache.stores_erase.mp stored).2
        kept := by
          intro other isOther accepted
          rw [winds.expected_eq]
          rcases accounts.kept other isOther accepted with claimed | expected
          · exact .inl (claimed.of_subset grows)
          · by_cases same : other.token = message.key
            · rw [same] at expected
              rw [expected.unique stores]
              exact .inl claims
            · exact .inr (Cache.stores_erase.mpr ⟨same, expected⟩) }

theorem handOver
    (accounts : engine.Accounts ledger now)
    (message : Message)
    (cell : Option SocketAddress) :
    (engine.handOver message cell).2.Accounts ledger now := by
  have acknowledged :=
    accounts.of_windsDown (engine.acknowledgementStage_windsDown message cell)
      (engine.acknowledgementStage_tells message cell)
  have responded := acknowledged.responseReceive message cell
  unfold Engine.handOver
  dsimp only
  split
  · split
    · exact responded.of_silent (@deliver_windsDown (fun _ => False) _ _)
        (deliver_silent _ _)
    · exact responded
  · exact responded

theorem receive
    (accounts : engine.Accounts ledger now)
    (message : Message)
    (source : SocketAddress) :
    (engine.receive message source).2.Accounts ledger now := by
  have staged : (engine.blockwiseReceive { message with address := some source }
      (some source)).state.Accounts ledger now := by
    rcases engine.blockwiseReceive_cases { message with address := some source }
      (some source) with
        notes | ⟨option, block, _, acknowledges⟩
    · exact accounts.of_silent (notes.winds fun _ => False) notes.silent
    · rw [acknowledges]
      exact accounts.onBlockAcknowledged _ _ option block
  rw [receive_eq rfl]
  cases (engine.blockwiseReceive { message with address := some source }
    (some source)).through? with
  | none => exact staged
  | some current => exact staged.handOver current _

theorem process
    (accounts : engine.Accounts ledger now)
    (datagram : List UInt8)
    (source : SocketAddress) :
    (engine.process datagram source).2.Accounts ledger now := by
  unfold Engine.process
  split
  · exact accounts
  · exact accounts.receive _ source

/-! ## Requests -/

/-- A new request is expected under a token that no other request has. -/
theorem expect
    (accounts : engine.Accounts ledger now)
    {who : Listener}
    (newToken : ∀ asked ∈ ledger, asked.token ≠ token)
    (newAsker : ∀ asked ∈ ledger, asked.handler.who ≠ who)
    (accepted : Bool) :
    ((engine.guardHandler who).2.expect token (engine.guardHandler who).1).Accounts
      (ledger ++ [⟨token, (engine.guardHandler who).1, accepted⟩]) now := by
  have issued_eq :
      Issued (ledger ++ [⟨token, (engine.guardHandler who).1, accepted⟩]) =
      fun handler => Issued ledger handler ∨
        handler = (engine.guardHandler who).1 := by
    funext handler
    simp [Issued, or_and_right, exists_or, eq_comm]
  have stranger (handler : ResponseHandler) (issued : Issued ledger handler) :
      handler.who ≠ who := by
    obtain ⟨asked, member, rfl⟩ := issued
    exact newAsker asked member
  have books := accounts.books.guardHandler stranger
  rw [← issued_eq] at books
  exact
    { now_eq := accounts.now_eq
      books := { books with }
      keyed := accounts.keyed
      poolOrdered := accounts.poolOrdered
      acksOrdered := accounts.acksOrdered
      lasts := accounts.lasts.insert token _
      awaited := by
        intro other handler stores
        rcases accounts.lasts.stores_insert.mp stores with ⟨rfl, rfl⟩ | ⟨_, before⟩
        · exact ⟨_, List.mem_append_right _ (List.mem_singleton.mpr rfl), rfl, rfl⟩
        · obtain ⟨asked, member, isToken, isHandler⟩ :=
            accounts.awaited other handler before
          exact ⟨asked, List.mem_append_left _ member, isToken, isHandler⟩
      kept := by
        intro asked member isAccepted
        rcases List.mem_append.mp member with earlier | isNew
        · refine (accounts.kept asked earlier isAccepted).imp_right fun stores => ?_
          exact accounts.lasts.stores_insert.mpr
            (.inr ⟨newToken asked earlier, stores⟩)
        · rw [List.mem_singleton.mp isNew]
          exact .inr (accounts.lasts.stores_insert.mpr (.inl ⟨rfl, rfl⟩)) }

/-- A request that was not queued is not expected any more. -/
theorem forget
    (accounts : engine.Accounts ledger now)
    (refused : ∀ asked ∈ ledger, asked.token = token → asked.accepted = false) :
    (engine.forget token).2.Accounts ledger now :=
  { accounts with
    books := { accounts.books with }
    lasts := accounts.lasts.erase token
    awaited := fun other handler stores =>
      accounts.awaited other handler (Cache.stores_erase.mp stores).2
    kept := by
      intro asked member accepted
      refine (accounts.kept asked member accepted).imp_right fun stores => ?_
      refine Cache.stores_erase.mpr ⟨?_, stores⟩
      intro same
      rw [refused asked member same] at accepted
      cases accepted }

end Accounts

end Engine

end Coap
