import Mathlib.Tactic.Common
import Coap.Engine.Loop
import Coap.Proofs.Pool.Thinning

namespace Coap

/-!
# An engine that winds down

Telling handlers, giving up messages and failing transfers only take work away
from an engine, and they take it away as a whole: a transfer that ends takes its
fragments and their handlers with it, and all other work stays. `WindsDown` says
so in one relation, which composes, and names the identifiers that may be
missing besides.
-/

/-- The same transfer, whatever was counted. -/
def OutboundTransfer.IsLike (transfer other : OutboundTransfer) : Prop :=
  ∃ stats, transfer = { other with state := { other.state with stats := stats } }

namespace OutboundTransfer.IsLike

variable {transfer other earlier : OutboundTransfer}

theorem refl (transfer : OutboundTransfer) : transfer.IsLike transfer :=
  ⟨transfer.state.stats, rfl⟩

theorem trans
    (first : transfer.IsLike other)
    (second : other.IsLike earlier) :
    transfer.IsLike earlier := by
  obtain ⟨stats, rfl⟩ := first
  obtain ⟨_, rfl⟩ := second
  exact ⟨stats, rfl⟩

theorem inFlight_eq
    (isLike : transfer.IsLike other) :
    transfer.inFlight = other.inFlight := by
  obtain ⟨_, rfl⟩ := isLike
  rfl

theorem whole_eq
    (isLike : transfer.IsLike other) :
    transfer.state.whole = other.state.whole := by
  obtain ⟨_, rfl⟩ := isLike
  rfl

theorem hooks_eq
    (isLike : transfer.IsLike other) :
    transfer.hooks = other.hooks := by
  obtain ⟨_, rfl⟩ := isLike
  rfl

theorem windowSize_eq (isLike : transfer.IsLike other) :
    transfer.state.windowSize = other.state.windowSize := by
  obtain ⟨_, rfl⟩ := isLike
  rfl

end OutboundTransfer.IsLike

namespace Engine

/-- A transfer to which the identifier belongs has ended. -/
def HasEnded
    (before after : Engine)
    (id : MessageId) :
    Prop :=
  ∃ token transfer,
    before.outgoing.find? token = some transfer ∧
      after.outgoing.find? token = none ∧
      (id ∈ transfer.inFlight ∨ id = transfer.state.whole.id)

/--
The later engine has only work of the earlier one. What is missing belongs to
transfers that have ended or is in `gone`, and what belongs to a transfer
that has ended is missing.
-/
structure WindsDown
    (gone : MessageId → Prop)
    (before after : Engine) :
    Prop where
  arq_eq : after.arq = before.arq
  now_eq : after.now = before.now
  nextId_eq : after.nextId = before.nextId
  nextSerial_eq : after.nextSerial = before.nextSerial
  nextGuard_eq : after.nextGuard = before.nextGuard
  expected_eq : after.expected = before.expected
  pool : Pool.Thins
    (fun id => gone id ∨ HasEnded before after id) before.pool after.pool
  acksOrdered : before.acks.IsOrdered → after.acks.IsOrdered
  acksCapacity_eq : after.acks.capacity = before.acks.capacity
  watched : ∀ id handler, after.acks.Stores id handler →
    before.acks.Stores id handler
  keptWatched : ∀ id handler,
    before.acks.Stores id handler → ¬ (gone id ∨ HasEnded before after id) →
      after.acks.Stores id handler
  outgoing : ∀ token transfer,
    after.outgoing.find? token = some transfer →
      ∃ earlier, before.outgoing.find? token = some earlier ∧
        transfer.IsLike earlier
  released : ∀ token transfer,
    before.outgoing.find? token = some transfer →
      after.outgoing.find? token = none →
      ∀ id ∈ transfer.inFlight,
        (∀ entry, ¬ after.pool.entries.Stores id entry) ∧
          ∀ handler, ¬ after.acks.Stores id handler

namespace WindsDown

variable {gone wider : MessageId → Prop} {before after later engine : Engine}

theorem refl (engine : Engine) : WindsDown gone engine engine where
  arq_eq := rfl
  now_eq := rfl
  nextId_eq := rfl
  nextSerial_eq := rfl
  nextGuard_eq := rfl
  expected_eq := rfl
  pool := .refl engine.pool
  acksOrdered := id
  acksCapacity_eq := rfl
  watched := fun _ _ stores => stores
  keptWatched := fun _ _ stores _ => stores
  outgoing := fun _ transfer found => ⟨transfer, found, .refl transfer⟩
  released := by
    intro token transfer found missing
    rw [found] at missing
    cases missing

theorem mono
    (winds : WindsDown gone before after)
    (included : ∀ id, gone id → wider id) :
    WindsDown wider before after :=
  { winds with
    pool := winds.pool.mono fun id missing => missing.imp_left (included id)
    keptWatched := fun id handler stores stays =>
      winds.keptWatched id handler stores fun missing =>
        stays (missing.imp_left (included id)) }

/-- A transfer that is missing stays missing. -/
theorem outgoing_none
    (winds : WindsDown gone before after)
    {token : TokenKey}
    (missing : before.outgoing.find? token = none) :
    after.outgoing.find? token = none := by
  cases found : after.outgoing.find? token with
  | none => rfl
  | some transfer =>
      obtain ⟨earlier, earlierFound, _⟩ := winds.outgoing token transfer found
      rw [missing] at earlierFound
      cases earlierFound

/-- What ended first has ended. -/
theorem hasEnded_left
    (second : WindsDown gone after later)
    {id : MessageId}
    (ended : HasEnded before after id) :
    HasEnded before later id := by
  obtain ⟨token, transfer, found, missing, belongs⟩ := ended
  exact ⟨token, transfer, found, second.outgoing_none missing, belongs⟩

/-- What ended later has ended. -/
theorem hasEnded_right
    (first : WindsDown gone before after)
    {id : MessageId}
    (ended : HasEnded after later id) :
    HasEnded before later id := by
  obtain ⟨token, transfer, found, missing, belongs⟩ := ended
  obtain ⟨earlier, earlierFound, isLike⟩ := first.outgoing token transfer found
  rw [isLike.inFlight_eq, isLike.whole_eq] at belongs
  exact ⟨token, earlier, earlierFound, missing, belongs⟩

theorem trans
    (first : WindsDown gone before after)
    (second : WindsDown gone after later) :
    WindsDown gone before later where
  arq_eq := second.arq_eq.trans first.arq_eq
  now_eq := second.now_eq.trans first.now_eq
  nextId_eq := second.nextId_eq.trans first.nextId_eq
  nextSerial_eq := second.nextSerial_eq.trans first.nextSerial_eq
  nextGuard_eq := second.nextGuard_eq.trans first.nextGuard_eq
  expected_eq := second.expected_eq.trans first.expected_eq
  pool :=
    (first.pool.mono fun _ missing => missing.imp_right second.hasEnded_left).trans
      (second.pool.mono fun _ missing => missing.imp_right first.hasEnded_right)
  acksOrdered := second.acksOrdered ∘ first.acksOrdered
  acksCapacity_eq := second.acksCapacity_eq.trans first.acksCapacity_eq
  watched := fun id handler stores =>
    first.watched id handler (second.watched id handler stores)
  keptWatched := fun id handler stores stays =>
    second.keptWatched id handler
      (first.keptWatched id handler stores fun missing =>
        stays (missing.imp_right second.hasEnded_left))
      fun missing => stays (missing.imp_right first.hasEnded_right)
  outgoing := by
    intro token transfer found
    obtain ⟨middle, middleFound, isLike⟩ := second.outgoing token transfer found
    obtain ⟨earlier, earlierFound, wasLike⟩ :=
      first.outgoing token middle middleFound
    exact ⟨earlier, earlierFound, isLike.trans wasLike⟩
  released := by
    intro token transfer found missing id belongs
    cases middleFound : after.outgoing.find? token with
    | none =>
        obtain ⟨unqueued, unwatched⟩ :=
          first.released token transfer found middleFound id belongs
        constructor
        · intro entry stores
          obtain ⟨earlier, earlierStores, _⟩ := second.pool.queued id entry stores
          exact unqueued earlier earlierStores
        · exact fun handler stores =>
            unwatched handler (second.watched id handler stores)
    | some middle =>
        obtain ⟨earlier, earlierFound, isLike⟩ :=
          first.outgoing token middle middleFound
        rw [found] at earlierFound
        cases earlierFound
        rw [← isLike.inFlight_eq] at belongs
        exact second.released token middle middleFound missing id belongs

/-- What winds down an engine further leaves ended what has ended. -/
theorem trans_ended
    {token : TokenKey}
    (first : WindsDown gone before after ∧ after.outgoing.find? token = none)
    (second : WindsDown gone after later) :
    WindsDown gone before later ∧ later.outgoing.find? token = none :=
  ⟨first.1.trans second, second.outgoing_none first.2⟩

/-- Identifiers of transfers that have ended need no mention. -/
theorem absorb
    (winds : WindsDown wider before after)
    (covered : ∀ id, wider id → gone id ∨ HasEnded before after id) :
    WindsDown gone before after :=
  have included (id : MessageId) (missing : wider id ∨ HasEnded before after id) :
      gone id ∨ HasEnded before after id :=
    missing.elim (covered id) .inr
  { winds with
    pool := winds.pool.mono included
    keptWatched := fun id handler stores stays =>
      winds.keptWatched id handler stores fun missing =>
        stays (included id missing) }

/-- Steps that wind down one by one wind down over a whole list of them. -/
theorem foldl
    {α : Type}
    {step : Engine → α → Engine}
    (items : List α)
    (winds : ∀ engine, ∀ item ∈ items, WindsDown gone engine (step engine item))
    (engine : Engine) :
    WindsDown gone engine (items.foldl step engine) := by
  induction items generalizing engine with
  | nil => exact refl engine
  | cons item rest inductionHypothesis =>
      have first := winds engine item List.mem_cons_self
      have others := inductionHypothesis fun engine item member =>
        winds engine item (List.mem_cons_of_mem _ member)
      exact first.trans (others (step engine item))

/-- A thinner pool is all that changes. -/
theorem of_pool
    (engine : Engine)
    {pool : Pool}
    {faulted : Bool}
    (thins : Pool.Thins gone engine.pool pool) :
    WindsDown gone engine { engine with pool := pool, faulted := faulted } :=
  { refl engine with
    pool := thins.mono fun _ => .inl
    released := fun _ transfer found missing =>
      absurd (found.symm.trans missing) (Option.some_ne_none transfer) }

/-- Fewer handlers of acknowledgements are all that changes. -/
theorem of_acks
    (engine : Engine)
    {acks : Cache MessageId AckHandler}
    (acksOrdered : engine.acks.IsOrdered → acks.IsOrdered)
    (acksCapacity_eq : acks.capacity = engine.acks.capacity)
    (watched : ∀ id handler, acks.Stores id handler → engine.acks.Stores id handler)
    (keptWatched : ∀ id handler, engine.acks.Stores id handler → ¬ gone id →
      acks.Stores id handler) :
    WindsDown gone engine { engine with acks := acks } :=
  { refl engine with
    acksOrdered := acksOrdered
    acksCapacity_eq := acksCapacity_eq
    watched := watched
    keptWatched := fun id handler stores stays =>
      keptWatched id handler stores fun isGone => stays (.inl isGone)
    released := fun _ transfer found missing =>
      absurd (found.symm.trans missing) (Option.some_ne_none transfer) }

/--
What was sent, passed on, told and counted is no work, nor is what is coming in.
-/
theorem of_records
    (engine : Engine)
    (incoming : Cache TokenKey ReceiveState)
    (delivery : Cache TokenKey Delivery)
    (refusals : Nat)
    (claimed : List Nat)
    (sent : List Datagram)
    (inbound : List Message)
    (events : List Event) :
    WindsDown gone engine
      { engine with
        pool := { engine.pool with delivery := delivery }
        incoming := incoming
        refusals := refusals
        claimed := claimed
        sent := sent
        inbound := inbound
        events := events } :=
  { refl engine with
    pool := .with_delivery engine.pool delivery
    released := fun _ transfer found missing =>
      absurd (found.symm.trans missing) (Option.some_ne_none transfer) }

/-- Who waits for responses does not matter. -/
theorem with_expected
    (winds : WindsDown gone before after)
    (expected : Cache TokenKey ResponseHandler) :
    WindsDown gone { before with expected := expected } { after with
      expected := expected } :=
  { winds with expected_eq := rfl }

/-- Counting in a transfer is all that changes. -/
theorem of_outgoing
    (engine : Engine)
    {token : TokenKey}
    {transfer changed : OutboundTransfer}
    (found : engine.outgoing.find? token = some transfer)
    (isLike : changed.IsLike transfer) :
    WindsDown gone engine
      { engine with outgoing := engine.outgoing.put token changed } := by
  have kept (other : TokenKey) (earlier : OutboundTransfer)
      (before : engine.outgoing.find? other = some earlier) :
      (engine.outgoing.put token changed).find? other ≠ none := by
    rw [Table.find?_put]
    split
    · exact Option.some_ne_none changed
    · rw [before]
      exact Option.some_ne_none earlier
  have unchanged : WindsDown gone engine engine := refl engine
  exact
    { unchanged with
      pool := .refl engine.pool
      keptWatched := fun _ _ stores _ => stores
      outgoing := by
        intro other later laterFound
        rcases Table.find?_put_cases laterFound with ⟨rfl, rfl⟩ | ⟨_, before⟩
        · exact ⟨transfer, found, isLike⟩
        · exact ⟨later, before, .refl later⟩
      released := fun other earlier before missing =>
        absurd missing (kept other earlier before) }

end WindsDown

variable {gone : MessageId → Prop}

/-! ## Telling and counting -/

theorem tell_windsDown
    (engine : Engine)
    (event : Event) :
    WindsDown gone engine (engine.tell event) :=
  .of_records engine _ _ _ _ _ _ _

theorem tellOutcome_windsDown
    (engine : Engine)
    (handler : ResponseHandler)
    (event : Event) :
    WindsDown gone engine (engine.tellOutcome handler event) := by
  unfold tellOutcome
  split
  · exact engine.tell_windsDown event
  · split
    · exact .refl engine
    · exact .of_records engine _ _ _ _ _ _ _

theorem deliveryOf_windsDown
    (engine : Engine)
    (token : TokenKey) :
    WindsDown gone engine (engine.deliveryOf token).2 :=
  .of_records engine _ _ _ _ _ _ _

theorem tellFailureOf_windsDown
    (engine : Engine)
    (handler : Option ResponseHandler)
    (token : TokenKey)
    (reason : FailureReason) :
    WindsDown gone engine (engine.tellFailureOf handler token reason) := by
  unfold tellFailureOf
  split
  · exact .refl engine
  · exact (engine.deliveryOf_windsDown token).trans (tellOutcome_windsDown _ _ _)

theorem recordTransfer_windsDown
    (engine : Engine)
    (token : TokenKey)
    (report : TransferReport) :
    WindsDown gone engine (engine.recordTransfer token report) :=
  .of_records engine _ _ _ _ _ _ _

theorem fireResend_windsDown
    (engine : Engine)
    (hooks : Hooks) :
    WindsDown gone engine (engine.fireResend hooks) := by
  unfold fireResend
  split
  · exact .refl engine
  · exact engine.tell_windsDown _
  · unfold countResend
    split
    · exact .refl engine
    · next found =>
        split
        · exact .of_outgoing engine found ⟨_, rfl⟩
        · exact .refl engine

/-! ## Removing messages and handlers -/

theorem discard_windsDown
    (engine : Engine)
    (id : MessageId) :
    WindsDown (· = id) engine (engine.discard id) :=
  .of_pool engine (engine.pool.discard_thins id)

theorem dropAck_windsDown
    (engine : Engine)
    (id : MessageId) :
    WindsDown (· = id) engine (engine.dropAck id) :=
  .of_acks engine (fun ordered => ordered.erase id) (engine.acks.erase_bounds id).1
    (fun _ _ stores => (Cache.stores_erase.mp stores).2)
    fun _ _ stores stays => Cache.stores_erase.mpr ⟨stays, stores⟩

theorem unregister_windsDown
    (engine : Engine)
    (id : MessageId) :
    WindsDown (· = id) engine (engine.unregister id).2 :=
  engine.dropAck_windsDown id

/-! ## Releasing fragments -/

/-- Removing a message with its handler leaves neither. -/
theorem dropAck_discard_spec
    (engine : Engine)
    (id : MessageId) :
    WindsDown (· = id) engine ((engine.dropAck id).discard id) ∧
      (∀ entry, ¬ ((engine.dropAck id).discard id).pool.entries.Stores id entry) ∧
        ∀ handler, ¬ ((engine.dropAck id).discard id).acks.Stores id handler := by
  refine ⟨(engine.dropAck_windsDown id).trans (discard_windsDown _ id), ?_, ?_⟩
  · intro entry stores
    unfold discard at stores
    dsimp only at stores
    rw [Pool.discard_entries] at stores
    exact (Cache.stores_erase.mp stores).1 rfl
  · exact fun handler stores => (Cache.stores_erase.mp stores).1 rfl

/--
Releasing fragments takes their entries and handlers away, and changes nothing else.
-/
theorem releaseFragments_spec
    (engine : Engine)
    (ids : List MessageId) :
    WindsDown (· ∈ ids) engine (engine.releaseFragments ids) ∧
      (engine.releaseFragments ids).outgoing = engine.outgoing ∧
      ∀ id ∈ ids,
        (∀ entry, ¬ (engine.releaseFragments ids).pool.entries.Stores id entry) ∧
          ∀ handler, ¬ (engine.releaseFragments ids).acks.Stores id handler := by
  induction ids generalizing engine with
  | nil => exact ⟨.refl engine, rfl, by simp⟩
  | cons first rest inductionHypothesis =>
      obtain ⟨winds, outgoing_eq, missing⟩ :=
        inductionHypothesis ((engine.dropAck first).discard first)
      obtain ⟨clears, unqueued, unwatched⟩ := engine.dropAck_discard_spec first
      have dropped : WindsDown (· ∈ first :: rest) engine
          ((engine.dropAck first).discard first) :=
        clears.mono fun _ isFirst => by rw [isFirst]; exact List.mem_cons_self
      refine ⟨dropped.trans (winds.mono fun _ => List.mem_cons_of_mem _),
        outgoing_eq, ?_⟩
      intro id member
      rcases List.mem_cons.mp member with rfl | inRest
      · constructor
        · intro entry stores
          obtain ⟨earlier, earlierStores, _⟩ := winds.pool.queued id entry stores
          exact unqueued earlier earlierStores
        · exact fun handler stores =>
            unwatched handler (winds.watched id handler stores)
      · exact missing id inRest

/--
A transfer that is removed with its fragments has ended, and nothing else has.
-/
theorem release_windsDown
    (engine : Engine)
    {token : TokenKey}
    {transfer : OutboundTransfer}
    (found : engine.outgoing.find? token = some transfer)
    (incoming : Cache TokenKey ReceiveState) :
    WindsDown gone engine
      ({ engine with
        outgoing := engine.outgoing.erase token
        incoming := incoming }.releaseFragments transfer.inFlight) := by
  obtain ⟨winds, outgoing_eq, missing⟩ :=
    { engine with
      outgoing := engine.outgoing.erase token
      incoming := incoming }.releaseFragments_spec transfer.inFlight
  generalize { engine with
      outgoing := engine.outgoing.erase token
      incoming := incoming }.releaseFragments transfer.inFlight = after at *
  dsimp only at outgoing_eq
  have ended : after.outgoing.find? token = none := by
    rw [outgoing_eq, Table.find?_erase_self]
  have covered (id : MessageId)
      (isMissing : id ∈ transfer.inFlight ∨
        HasEnded
          { engine with
            outgoing := engine.outgoing.erase token
            incoming := incoming } after id) :
      gone id ∨ HasEnded engine after id := by
    rcases isMissing with belongs | ⟨other, earlier, before, absent, _⟩
    · exact .inr ⟨token, transfer, found, ended, .inl belongs⟩
    · rw [outgoing_eq, before] at absent
      cases absent
  refine
    { winds with
      pool := winds.pool.mono covered
      keptWatched := fun id handler stores stays =>
        winds.keptWatched id handler stores fun isMissing =>
          stays (covered id isMissing)
      outgoing := ?_
      released := ?_ }
  · intro other later laterFound
    rw [outgoing_eq, Table.find?_erase] at laterFound
    split at laterFound
    · cases laterFound
    · exact ⟨later, laterFound, .refl later⟩
  · intro other earlier before absent
    rw [outgoing_eq, Table.find?_erase] at absent
    split at absent
    · next same =>
        rw [same, found] at before
        cases before
        exact missing
    · rw [before] at absent
      cases absent

/-! ## Losses and failures -/

/-- Where there is no outbound transfer, only the inbound one is dropped. -/
theorem dropTransfers_windsDown
    (engine : Engine)
    {token : TokenKey}
    (missing : engine.outgoing.find? token = none) :
    WindsDown gone engine (engine.dropTransfers token) ∧
      (engine.dropTransfers token).outgoing.find? token = none := by
  unfold dropTransfers
  rw [Table.erase_of_find?_none missing]
  exact ⟨.of_records engine _ _ _ _ _ _ _, missing⟩

/--
If the depth is enough, a transfer that fails ends, with all that ends with it.
-/
theorem failTransferWithin_windsDown
    (depth : Nat)
    (token : TokenKey)
    (engine : Engine)
    (enough : engine.outgoing.length ≤ depth) :
    WindsDown gone engine (failTransferWithin depth token engine) ∧
      (failTransferWithin depth token engine).outgoing.find? token = none := by
  induction depth generalizing token engine with
  | zero =>
      have empty : engine.outgoing = [] :=
        List.eq_nil_of_length_eq_zero (Nat.le_zero.mp enough)
      exact engine.dropTransfers_windsDown (by rw [empty]; rfl)
  | succ depth inductionHypothesis =>
      unfold failTransferWithin
      split
      · next missing => exact engine.dropTransfers_windsDown missing
      · next transfer found =>
          -- The transfer ends with its fragments; then whoever waits for the whole
          -- message is told.
          refine WindsDown.trans_ended ?_ (tellFailureOf_windsDown _ _ _ _)
          have released : WindsDown gone engine
              ((engine.dropTransfers token).releaseFragments transfer.inFlight) :=
            engine.release_windsDown found _
          have outgoing_eq :
              ((engine.dropTransfers token).releaseFragments
                transfer.inFlight).outgoing =
                engine.outgoing.erase token :=
            (releaseFragments_spec _ _).2.1
          have recorded := released.trans
            (recordTransfer_windsDown _ token transfer.state.report)
          generalize recorded_eq :
            ((engine.dropTransfers token).releaseFragments
              transfer.inFlight).recordTransfer token
              transfer.state.report = noted at *
          have notedOutgoing : noted.outgoing = engine.outgoing.erase token := by
            rw [← recorded_eq]
            exact outgoing_eq
          have ended : noted.outgoing.find? token = none := by
            rw [notedOutgoing, Table.find?_erase_self]
          have shorter : noted.outgoing.length ≤ depth := by
            rw [notedOutgoing]
            exact Nat.le_of_lt_succ
              (Nat.lt_of_lt_of_le (Table.length_erase_lt found) enough)
          have unregistered : WindsDown gone engine
              (noted.unregister transfer.state.whole.id).2 := by
            have either : WindsDown
                (fun id => gone id ∨ id = transfer.state.whole.id) engine
                (noted.unregister transfer.state.whole.id).2 :=
              (recorded.mono fun _ => .inl).trans
                ((noted.unregister_windsDown transfer.state.whole.id).mono fun _ =>
                  .inr)
            refine either.absorb ?_
            rintro id (isGone | rfl)
            · exact .inl isGone
            · exact .inr ⟨token, transfer, found, ended, .inr rfl⟩
          split
          · exact ⟨unregistered, ended⟩
          · exact WindsDown.trans_ended ⟨unregistered, ended⟩ (tell_windsDown _ _)
          · next other _ _ =>
              exact WindsDown.trans_ended ⟨unregistered, ended⟩
                (inductionHypothesis other
                  (noted.unregister transfer.state.whole.id).2 shorter).1

theorem failTransfer_windsDown
    (engine : Engine)
    (token : TokenKey) :
    WindsDown gone engine (engine.failTransfer token) :=
  (failTransferWithin_windsDown _ token engine (Nat.le_refl _)).1

/-- A transfer that fails has ended. -/
theorem failTransfer_ends
    (engine : Engine)
    (token : TokenKey) :
    (engine.failTransfer token).outgoing.find? token = none :=
  (@failTransferWithin_windsDown (fun _ => False) _ token engine (Nat.le_refl _)).2

theorem tellLoss_windsDown
    (engine : Engine)
    (handler : AckHandler)
    (error : String) :
    WindsDown gone engine (engine.tellLoss handler error) := by
  cases handler with
  | listener who => exact engine.tell_windsDown _
  | fragment token block => exact engine.failTransfer_windsDown token

theorem tellAck_windsDown
    (engine : Engine)
    (handler : AckHandler)
    (message : Message)
    (error : Option String) :
    WindsDown gone engine (engine.tellAck handler message error) := by
  cases handler with
  | listener who => exact engine.tell_windsDown _
  | fragment token block =>
      dsimp only [tellAck]
      split
      · exact engine.failTransfer_windsDown token
      · exact .refl engine

theorem raiseLoss_windsDown
    (engine : Engine)
    (message : Message)
    (reason : String) :
    WindsDown (· = message.id) engine (engine.raiseLoss message reason) := by
  have removed := engine.unregister_windsDown message.id
  unfold raiseLoss
  split
  · next unregistered =>
      rw [unregistered] at removed
      exact removed
  · next unregistered =>
      rw [unregistered] at removed
      exact removed.trans (tellLoss_windsDown _ _ _)

/-- The loss of a fragment ends its transfer. -/
theorem raiseLoss_ends
    (engine : Engine)
    {message : Message}
    {token : TokenKey}
    {block : Nat}
    (watched : engine.acks.Stores message.id (.fragment token block))
    (reason : String) :
    (engine.raiseLoss message reason).outgoing.find? token = none := by
  obtain ⟨slot, found, isFragment⟩ := watched
  unfold raiseLoss unregister Cache.remove
  rw [found]
  dsimp only
  rw [isFragment]
  exact failTransfer_ends _ token

theorem giveUp_windsDown
    (engine : Engine)
    (entry : PoolEntry)
    (reason : FailureReason) :
    WindsDown (· = entry.message.id) engine (engine.giveUp entry reason) :=
  (engine.raiseLoss_windsDown entry.message reason.message).trans
    (tellFailureOf_windsDown _ _ _ _)

/-- Giving up a fragment ends its transfer. -/
theorem giveUp_ends
    (engine : Engine)
    {entry : PoolEntry}
    {token : TokenKey}
    {block : Nat}
    (watched : engine.acks.Stores entry.message.id (.fragment token block))
    (reason : FailureReason) :
    (engine.giveUp entry reason).outgoing.find? token = none :=
  (@tellFailureOf_windsDown (fun _ => False) _ _ _ _).outgoing_none
    (engine.raiseLoss_ends watched reason.message)

end Engine

end Coap
