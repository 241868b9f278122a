import Mathlib.Tactic.Common
import Coap.Proofs.Engine.Activity

namespace Coap.Engine

/-!
# Who is told an outcome, and how often

A guarded handler travels in copies: in the pool, in a transfer, among the expected
responses. `Books` says that the handlers under way are known, and that a handler
has been told one outcome if its guard has let one through, and none otherwise.
Whatever an operation tells, the books stay in order. A transfer that fails takes
along the handler of its message, and tells it.
-/

/-- How many outcomes a listener has been told. -/
def outcomes
    (engine : Engine)
    (who : Listener) :
    Nat :=
  engine.events.countP fun event => event.isOutcome && decide (event.who = who)

/-- The guard of a handler has let an outcome through. -/
def HasClaimed
    (engine : Engine)
    (handler : ResponseHandler) :
    Prop :=
  ∃ guard ∈ engine.claimed, handler.guard = some guard

/--
Only known handlers are under way, and each has been told what its
guard let through.
-/
structure Books
    (known : ResponseHandler → Prop)
    (engine : Engine) :
    Prop where
  guarded : ∀ handler, known handler → ∃ guard < engine.nextGuard,
    handler.guard = some guard
  apart : ∀ handler other,
    known handler → known other →
      (handler.who = other.who ↔ handler.guard = other.guard)
  queued : ∀ id entry handler,
    engine.pool.entries.Stores id entry →
      entry.hooks.response = some handler → known handler
  carried : ∀ token transfer handler,
    engine.outgoing.find? token = some transfer →
      transfer.hooks.response = some handler →
      known handler
  told : ∀ handler, known handler → engine.HasClaimed handler →
    engine.outcomes handler.who = 1
  untold : ∀ handler, known handler → ¬ engine.HasClaimed handler →
    engine.outcomes handler.who = 0
  addressed : ∀ event ∈ engine.events,
    event.isOutcome = true → ∃ handler, known handler ∧ handler.who = event.who
  claims : ∀ guard ∈ engine.claimed, ∃ handler,
    known handler ∧ handler.guard = some guard

/-- The books stay in order, and no guard opens again. -/
def Tells
    (known : ResponseHandler → Prop)
    (before after : Engine) :
    Prop :=
  before.Books known → after.Books known ∧ ∀ guard ∈ before.claimed,
    guard ∈ after.claimed

theorem HasClaimed.of_subset
    {before after : Engine}
    {handler : ResponseHandler}
    (claimed : before.HasClaimed handler)
    (subset : ∀ guard ∈ before.claimed, guard ∈ after.claimed) :
    after.HasClaimed handler := by
  obtain ⟨guard, member, isGuard⟩ := claimed
  exact ⟨guard, subset guard member, isGuard⟩

variable {known : ResponseHandler → Prop} {gone : MessageId → Prop}
variable {engine before after later : Engine}

namespace Books

/--
What nobody is told of, and takes handlers away at most, keeps the books in order.
-/
theorem of_windsDown
    (books : engine.Books known)
    (winds : WindsDown gone engine later)
    (silent : Silent engine later) :
    later.Books known := by
  have outcomes_eq (who : Listener) : later.outcomes who = engine.outcomes who := by
    unfold outcomes
    rw [silent.1]
  have claimed_iff (handler : ResponseHandler) :
      later.HasClaimed handler ↔ engine.HasClaimed handler := by
    unfold HasClaimed
    rw [silent.2]
  refine ⟨?_, books.apart, ?_, ?_, ?_, ?_, ?_, ?_⟩
  · rw [winds.nextGuard_eq]
    exact books.guarded
  · intro id entry handler stores isResponse
    obtain ⟨earlier, earlierStores, isLike⟩ := winds.pool.queued id entry stores
    rw [isLike.2] at isResponse
    exact books.queued id earlier handler earlierStores isResponse
  · intro token transfer handler found isResponse
    obtain ⟨earlier, earlierFound, isLike⟩ := winds.outgoing token transfer found
    rw [isLike.hooks_eq] at isResponse
    exact books.carried token earlier handler earlierFound isResponse
  · intro handler isKnown claimed
    rw [outcomes_eq]
    exact books.told handler isKnown ((claimed_iff handler).mp claimed)
  · intro handler isKnown unclaimed
    rw [outcomes_eq]
    exact books.untold handler isKnown fun claimed =>
      unclaimed ((claimed_iff handler).mpr claimed)
  · rw [silent.1]
    exact books.addressed
  · rw [silent.2]
    exact books.claims

/--
A new handler gets a guard of its own, and nobody has told its listener anything.
-/
theorem guardHandler
    (books : engine.Books known)
    {who : Listener}
    (stranger : ∀ other, known other → other.who ≠ who) :
    (engine.guardHandler who).2.Books
      fun handler => known handler ∨ handler = (engine.guardHandler who).1 := by
  have fresh (other : ResponseHandler) (isKnown : known other) :
      other.guard ≠ some engine.nextGuard := by
    obtain ⟨guard, earlier, isGuard⟩ := books.guarded other isKnown
    rw [isGuard]
    exact fun same => Nat.ne_of_lt earlier (Option.some.inj same)
  refine ⟨?_, ?_, ?_, ?_, ?_, ?_, ?_, ?_⟩
  · rintro handler (isKnown | rfl)
    · obtain ⟨guard, earlier, isGuard⟩ := books.guarded handler isKnown
      exact ⟨guard, Nat.lt_succ_of_lt earlier, isGuard⟩
    · exact ⟨engine.nextGuard, Nat.lt_succ_self _, rfl⟩
  · rintro handler other (isKnown | rfl) (otherKnown | rfl)
    · exact books.apart handler other isKnown otherKnown
    · exact iff_of_false (stranger handler isKnown) (fresh handler isKnown)
    · exact iff_of_false (stranger other otherKnown).symm
        (fresh other otherKnown).symm
    · exact iff_of_true rfl rfl
  · exact fun id entry handler stores isResponse =>
      .inl (books.queued id entry handler stores isResponse)
  · exact fun token transfer handler found isResponse =>
      .inl (books.carried token transfer handler found isResponse)
  · rintro handler (isKnown | rfl) ⟨guard, member, isGuard⟩
    · exact books.told handler isKnown ⟨guard, member, isGuard⟩
    · obtain ⟨other, otherKnown, isOther⟩ := books.claims guard member
      exact absurd (isOther.trans isGuard.symm) (fresh other otherKnown)
  · rintro handler (isKnown | rfl) unclaimed
    · exact books.untold handler isKnown unclaimed
    · refine List.countP_eq_zero.mpr fun event member isTold => ?_
      rw [Bool.and_eq_true, decide_eq_true_iff] at isTold
      obtain ⟨other, otherKnown, addressee⟩ := books.addressed event member isTold.1
      exact stranger other otherKnown (addressee.trans isTold.2)
  · intro event member isOutcome
    obtain ⟨handler, isKnown, addressee⟩ := books.addressed event member isOutcome
    exact ⟨handler, .inl isKnown, addressee⟩
  · intro guard member
    obtain ⟨handler, isKnown, isGuard⟩ := books.claims guard member
    exact ⟨handler, .inl isKnown, isGuard⟩

end Books

namespace Tells

theorem refl (engine : Engine) : Tells known engine engine :=
  fun books => ⟨books, fun _ member => member⟩

theorem trans
    (first : Tells known before after)
    (second : Tells known after later) :
    Tells known before later := by
  intro books
  obtain ⟨between, grows⟩ := first books
  obtain ⟨final, growsOn⟩ := second between
  exact ⟨final, fun guard member => growsOn guard (grows guard member)⟩

theorem of_silent
    (winds : WindsDown gone before after)
    (silent : Silent before after) :
    Tells known before after := by
  intro books
  refine ⟨books.of_windsDown winds silent, ?_⟩
  rw [silent.2]
  exact fun _ member => member

theorem foldl
    {α : Type}
    {step : Engine → α → Engine}
    (items : List α)
    (tells : ∀ engine, ∀ item ∈ items, Tells known engine (step engine item))
    (engine : Engine) :
    Tells known engine (items.foldl step engine) := by
  induction items generalizing engine with
  | nil => exact refl engine
  | cons item rest inductionHypothesis =>
      have first := tells engine item List.mem_cons_self
      exact first.trans
        (inductionHypothesis (fun engine item member =>
          tells engine item (List.mem_cons_of_mem _ member)) (step engine item))

end Tells

/-! ## Events -/

theorem outcomes_tell
    (engine : Engine)
    (event : Event)
    (who : Listener) :
    (engine.tell event).outcomes who =
      engine.outcomes who + if event.isOutcome && decide (event.who = who) then 1
        else 0 := by
  unfold outcomes tell
  rw [List.countP_append, List.countP_singleton]

/-- What is no outcome is not in the books. -/
theorem tell_tells
    (engine : Engine)
    {event : Event}
    (noOutcome : event.isOutcome = false) :
    Tells known engine (engine.tell event) := by
  intro books
  have outcomes_eq (who : Listener) :
      (engine.tell event).outcomes who = engine.outcomes who := by
    rw [outcomes_tell, noOutcome]
    rfl
  refine ⟨{ books with told := ?_, untold := ?_, addressed := ?_ },
    fun _ member => member⟩
  · intro handler isKnown claimed
    rw [outcomes_eq]
    exact books.told handler isKnown claimed
  · intro handler isKnown unclaimed
    rw [outcomes_eq]
    exact books.untold handler isKnown unclaimed
  · intro other member isOutcome
    rcases List.mem_append.mp member with earlier | isNew
    · exact books.addressed other earlier isOutcome
    · rw [List.mem_singleton.mp isNew, noOutcome] at isOutcome
      cases isOutcome

/-- A known handler is told an outcome unless it has been told one before. -/
theorem tellOutcome_tells
    (engine : Engine)
    {handler : ResponseHandler}
    {event : Event}
    (isKnown : known handler)
    (isOutcome : event.isOutcome = true)
    (addressee : event.who = handler.who) :
    Tells known engine (engine.tellOutcome handler event) := by
  intro books
  obtain ⟨guard, _, isGuard⟩ := books.guarded handler isKnown
  unfold tellOutcome
  rw [isGuard]
  dsimp only
  split
  · exact ⟨books, fun _ member => member⟩
  · next unclaimed =>
      have handlerUntold : engine.outcomes handler.who = 0 := by
        refine books.untold handler isKnown ?_
        rintro ⟨other, member, isOther⟩
        rw [isGuard, Option.some.injEq] at isOther
        exact unclaimed (isOther ▸ member)
      have counted (who : Listener) :
          ({ engine with
            claimed := guard :: engine.claimed }.tell event).outcomes who =
            engine.outcomes who + if handler.who = who then 1 else 0 := by
        rw [outcomes_tell, isOutcome, addressee]
        simp only [Bool.true_and, decide_eq_true_eq]
        rfl
      refine ⟨{ books with told := ?_, untold := ?_, addressed := ?_, claims :=
                             ?_ }, fun _ member => List.mem_cons_of_mem _ member⟩
      · rintro other otherKnown ⟨opened, member, isOpened⟩
        rw [counted]
        by_cases same : handler.who = other.who
        · rw [if_pos same, ← same, handlerUntold]
        · have different : opened ≠ guard := by
            rintro rfl
            exact same ((books.apart handler other isKnown otherKnown).mpr
              (isGuard.trans isOpened.symm))
          have before := List.mem_of_ne_of_mem different member
          rw [if_neg same, books.told other otherKnown ⟨opened, before, isOpened⟩]
      · intro other otherKnown otherUnclaimed
        have different : handler.who ≠ other.who := by
          intro same
          refine otherUnclaimed ⟨guard, List.mem_cons_self, ?_⟩
          exact ((books.apart handler other isKnown otherKnown).mp
            same).symm.trans isGuard
        rw [counted, if_neg different]
        refine books.untold other otherKnown fun claimed => otherUnclaimed ?_
        exact claimed.of_subset fun _ member => List.mem_cons_of_mem _ member
      · intro other member otherOutcome
        rcases List.mem_append.mp member with earlier | isNew
        · exact books.addressed other earlier otherOutcome
        · rw [List.mem_singleton.mp isNew]
          exact ⟨handler, isKnown, addressee.symm⟩
      · intro opened member
        rcases List.mem_cons.mp member with rfl | earlier
        · exact ⟨handler, isKnown, isGuard⟩
        · exact books.claims opened earlier

/-- Whoever is told an outcome has been told one. -/
theorem tellOutcome_claims
    {handler : ResponseHandler}
    {guard : Nat}
    (isGuard : handler.guard = some guard)
    (event : Event) :
    (engine.tellOutcome handler event).HasClaimed handler := by
  unfold tellOutcome
  rw [isGuard]
  dsimp only
  split
  · next member => exact ⟨guard, member, isGuard⟩
  · exact ⟨guard, List.mem_cons_self, isGuard⟩

theorem outgoing_tellOutcome
    (engine : Engine)
    (handler : ResponseHandler)
    (event : Event) :
    (engine.tellOutcome handler event).outgoing = engine.outgoing := by
  unfold tellOutcome
  split
  · rfl
  · split <;> rfl

theorem tellFailureOf_tells
    (engine : Engine)
    {handler : Option ResponseHandler}
    (areKnown : ∀ waiting, handler = some waiting → known waiting)
    (token : TokenKey)
    (reason : FailureReason) :
    Tells known engine (engine.tellFailureOf handler token reason) := by
  unfold tellFailureOf
  split
  · exact .refl engine
  · next waiting =>
      have looked : Tells known engine (engine.deliveryOf token).2 :=
        .of_silent (@deliveryOf_windsDown (fun _ => False) engine token) ⟨rfl, rfl⟩
      exact looked.trans (tellOutcome_tells _ (areKnown waiting rfl) rfl rfl)

theorem outgoing_tellFailureOf
    (engine : Engine)
    (handler : Option ResponseHandler)
    (token : TokenKey)
    (reason : FailureReason) :
    (engine.tellFailureOf handler token reason).outgoing = engine.outgoing := by
  unfold tellFailureOf
  split
  · rfl
  · exact outgoing_tellOutcome _ _ _

theorem fireResend_tells
    (engine : Engine)
    (hooks : Hooks) :
    Tells known engine (engine.fireResend hooks) := by
  have winds := @fireResend_windsDown (fun _ => False) engine hooks
  unfold fireResend at winds ⊢
  split
  · exact .refl engine
  · exact engine.tell_tells rfl
  · next token serial isTransfer =>
      rw [isTransfer] at winds
      refine .of_silent winds ?_
      unfold countResend
      split
      · exact .refl engine
      · split
        · exact ⟨rfl, rfl⟩
        · exact .refl engine

/-! ## Failed transfers -/

/-- What is told leaves each transfer in progress, or its handler has been told. -/
structure Settles
    (known : ResponseHandler → Prop)
    (before after : Engine) :
    Prop where
  tells : Tells known before after
  ended : before.Books known → ∀ token transfer handler,
    before.outgoing.find? token = some transfer →
      transfer.hooks.response = some handler →
      after.HasClaimed handler ∨
        ∃ remaining, after.outgoing.find? token = some remaining ∧
          remaining.hooks.response = some handler

namespace Settles

theorem of_outgoing_eq
    (tells : Tells known before after)
    (outgoing_eq : after.outgoing = before.outgoing) :
    Settles known before after where
  tells := tells
  ended := by
    intro _ token transfer handler found isResponse
    rw [← outgoing_eq] at found
    exact .inr ⟨transfer, found, isResponse⟩

theorem refl (engine : Engine) : Settles known engine engine :=
  .of_outgoing_eq (.refl engine) rfl

theorem trans
    (first : Settles known before after)
    (second : Settles known after later) :
    Settles known before later where
  tells := first.tells.trans second.tells
  ended := by
    intro books token transfer handler found isResponse
    obtain ⟨between, _⟩ := first.tells books
    rcases first.ended books token transfer handler found isResponse with
        claimed | ⟨remaining, stillFound, stillResponse⟩
    · exact .inl (claimed.of_subset (second.tells between).2)
    · exact second.ended between token remaining handler stillFound stillResponse

theorem foldl
    {α : Type}
    {step : Engine → α → Engine}
    (items : List α)
    (settles : ∀ engine item, Settles known engine (step engine item))
    (engine : Engine) :
    Settles known engine (items.foldl step engine) := by
  induction items generalizing engine with
  | nil => exact refl engine
  | cons item rest inductionHypothesis =>
      exact (settles engine item).trans (inductionHypothesis (step engine item))

end Settles

/--
A failed transfer leaves with its fragments and their handlers,
before anyone is told.
-/
theorem removeTransfer_windsDown
    (engine : Engine)
    {token : TokenKey}
    {transfer : OutboundTransfer}
    (found : engine.outgoing.find? token = some transfer)
    (id : MessageId) :
    let removed :=
      ((((engine.dropTransfers token).releaseFragments
        transfer.inFlight).recordTransfer token
        transfer.state.report).unregister id).2
    WindsDown (fun _ => True) engine removed ∧ Silent engine removed ∧
      removed.outgoing = engine.outgoing.erase token := by
  have released : WindsDown (fun _ => True) engine
      ((engine.dropTransfers token).releaseFragments transfer.inFlight) :=
    engine.release_windsDown found _
  have recorded := released.trans
    (recordTransfer_windsDown _ token transfer.state.report)
  have removed := recorded.trans
    ((unregister_windsDown _ id).mono fun _ _ => trivial)
  have silent :=
    releaseFragments_silent (engine.dropTransfers token) transfer.inFlight
  exact ⟨removed, silent, (releaseFragments_spec _ _).2.1⟩

theorem removeTransfer_spec
    (engine : Engine)
    {token : TokenKey}
    {transfer : OutboundTransfer}
    (found : engine.outgoing.find? token = some transfer)
    (id : MessageId) :
    let removed :=
      ((((engine.dropTransfers token).releaseFragments
        transfer.inFlight).recordTransfer token
        transfer.state.report).unregister id).2
    Tells known engine removed ∧
      removed.outgoing = engine.outgoing.erase token := by
  obtain ⟨winds, silent, outgoing_eq⟩ := engine.removeTransfer_windsDown found id
  exact ⟨.of_silent winds silent, outgoing_eq⟩

/-- Once the others are told, the handler of a removed transfer is told too. -/
theorem Settles.of_removed
    {token : TokenKey}
    {transfer : OutboundTransfer}
    {removed told : Engine}
    (found : engine.outgoing.find? token = some transfer)
    (removes : Tells known engine removed ∧
      removed.outgoing = engine.outgoing.erase token)
    (chain : Settles known removed told)
    (reason : FailureReason) :
    Settles known engine
      (told.tellFailureOf transfer.hooks.response token reason) := by
  have last (books : engine.Books known) :
      Tells known told (told.tellFailureOf transfer.hooks.response token reason) :=
    told.tellFailureOf_tells
      (fun waiting isResponse =>
        books.carried token transfer waiting found isResponse) token reason
  constructor
  · exact fun books => removes.1.trans (chain.tells.trans (last books)) books
  · intro books other earlier handler otherFound isResponse
    have between := (removes.1 books).1
    by_cases same : other = token
    · subst same
      cases found.symm.trans otherFound
      obtain ⟨guard, _, isGuard⟩ := books.guarded handler
        (books.carried other transfer handler found isResponse)
      rw [isResponse]
      exact .inl (tellOutcome_claims isGuard _)
    · have stillFound : removed.outgoing.find? other = some earlier := by
        rw [removes.2, Table.find?_erase_ne same]
        exact otherFound
      rw [outgoing_tellFailureOf]
      exact
        (chain.ended between other earlier handler stillFound isResponse).imp_left
        fun claimed => claimed.of_subset (last books (chain.tells between).1).2

/-- Where no transfer is in progress, there is nothing to fail. -/
theorem dropTransfers_settles
    (engine : Engine)
    {token : TokenKey}
    (missing : engine.outgoing.find? token = none) :
    Settles known engine (engine.dropTransfers token) :=
  .of_outgoing_eq
    (.of_silent (@dropTransfers_windsDown
      (fun _ => False) engine token missing).1 ⟨rfl, rfl⟩)
    (Table.erase_of_find?_none missing)

/--
If the depth is enough, every transfer that ends with a failed one
tells its handler.
-/
theorem failTransferWithin_settles
    (depth : Nat)
    (token : TokenKey)
    (engine : Engine)
    (enough : engine.outgoing.length ≤ depth) :
    Settles known engine (failTransferWithin depth token engine) := by
  induction depth generalizing token engine with
  | zero =>
      have empty : engine.outgoing = [] :=
        List.eq_nil_of_length_eq_zero (Nat.le_zero.mp enough)
      exact engine.dropTransfers_settles (by rw [empty]; rfl)
  | succ depth inductionHypothesis =>
      unfold failTransferWithin
      split
      · next missing => exact engine.dropTransfers_settles missing
      · next transfer found =>
          have removes := @removeTransfer_spec known engine token transfer found
            transfer.state.whole.id
          refine .of_removed found removes ?_ _
          generalize ((engine.dropTransfers token).releaseFragments
            transfer.inFlight).recordTransfer token
            transfer.state.report = noted at *
          split
          · exact .refl _
          · exact .of_outgoing_eq (tell_tells _ rfl) rfl
          · next other _ _ =>
              refine inductionHypothesis other _ ?_
              rw [removes.2]
              exact Nat.le_of_lt_succ
                (Nat.lt_of_lt_of_le (Table.length_erase_lt found) enough)

theorem failTransfer_settles
    (engine : Engine)
    (token : TokenKey) :
    Settles known engine (engine.failTransfer token) :=
  failTransferWithin_settles _ token engine (Nat.le_refl _)

theorem tellLoss_settles
    (engine : Engine)
    (handler : AckHandler)
    (error : String) :
    Settles known engine (engine.tellLoss handler error) := by
  cases handler with
  | listener who => exact .of_outgoing_eq (engine.tell_tells rfl) rfl
  | fragment token block => exact engine.failTransfer_settles token

theorem tellAck_tells
    (engine : Engine)
    (handler : AckHandler)
    (message : Message)
    (error : Option String) :
    Tells known engine (engine.tellAck handler message error) := by
  cases handler with
  | listener who => exact engine.tell_tells rfl
  | fragment token block =>
      dsimp only [tellAck]
      split
      · exact (engine.failTransfer_settles token).tells
      · exact .refl engine

/-! ## Messages that are given up -/

theorem giveUp_tells
    (engine : Engine)
    {entry : PoolEntry}
    (areKnown : ∀ handler, entry.hooks.response = some handler → known handler)
    (reason : FailureReason) :
    Tells known engine (engine.giveUp entry reason) := by
  have removes : Tells known engine (engine.unregister entry.message.id).2 :=
    .of_silent (engine.unregister_windsDown entry.message.id) ⟨rfl, rfl⟩
  have raises : Tells known engine
      (engine.raiseLoss entry.message reason.message) := by
    unfold raiseLoss
    split
    · next unregistered =>
        rw [unregistered] at removes
        exact removes
    · next handler _ unregistered =>
        rw [unregistered] at removes
        exact removes.trans (tellLoss_settles _ handler _).tells
  exact raises.trans (tellFailureOf_tells _ areKnown _ _)

/-- A scan tells whoever waits for what it gives up. -/
theorem next_tells (engine : Engine) : Tells known engine engine.next.2 := by
  intro books
  have areKnown : ∀ lost ∈ engine.givenUp, ∀ handler,
      lost.1.hooks.response = some handler → known handler := by
    intro lost member handler isResponse
    obtain ⟨id, entry, stores, isLike⟩ :=
      Pool.stores_of_mem_failures engine.now engine.pool.entries.keys
        engine.pool member
    rw [isLike.2] at isResponse
    exact books.queued id entry handler stores isResponse
  have scans : Tells known engine engine.afterScan :=
    .of_silent (.of_pool engine
      (Pool.scanEntries_thins engine.now _ engine.pool)) ⟨rfl, rfl⟩
  have resends : Tells known engine engine.scanned :=
    scans.trans (.foldl _ (fun engine hooks _ => engine.fireResend_tells hooks) _)
  have failures : Tells known engine.scanned
      (engine.scanned.giveUpAll engine.givenUp) :=
    .foldl _ (fun engine lost member =>
      engine.giveUp_tells (areKnown lost member) lost.2) _
  exact resends.trans failures books

/-! ## Acknowledgements and responses -/

theorem acknowledgementStage_tells
    (engine : Engine)
    (message : Message)
    (cell : Option SocketAddress) :
    Tells known engine (engine.acknowledgementStage message cell).state := by
  have attended : Tells known engine (engine.attended message.id) :=
    .of_silent (engine.attended_windsDown message.id) ⟨rfl, rfl⟩
  unfold acknowledgementStage
  dsimp only
  split
  · exact .refl engine
  · split
    · exact attended
    · next handler _ =>
        have told :=
          attended.trans (tellAck_tells _ handler message message.responseError?)
        split
        · exact told
        · exact told.trans (.of_silent (dropAck_windsDown _ message.id) ⟨rfl, rfl⟩)

/-- A response that completes a request is its outcome. -/
theorem completeRequest_tells
    (engine : Engine)
    (message : Message)
    {handler : ResponseHandler}
    (isKnown : known handler) :
    Tells known engine (engine.completeRequest message handler) := by
  have taken : Tells known engine (engine.takeByToken message.key).2 :=
    .of_silent (engine.takeByToken_windsDown message.key) ⟨rfl, rfl⟩
  unfold completeRequest
  dsimp only
  split
  · refine taken.trans (tellFailureOf_tells _ ?_ _ _)
    rintro waiting ⟨⟩
    exact isKnown
  · exact taken.trans (tellOutcome_tells _ isKnown rfl rfl)

theorem completeRequest_claims
    (engine : Engine)
    (message : Message)
    {handler : ResponseHandler}
    {guard : Nat}
    (isGuard : handler.guard = some guard) :
    (engine.completeRequest message handler).HasClaimed handler := by
  unfold completeRequest
  dsimp only
  split
  · exact tellOutcome_claims isGuard _
  · exact tellOutcome_claims isGuard _

end Coap.Engine
