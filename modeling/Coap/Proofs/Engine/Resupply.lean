import Mathlib.Data.List.Nodup
import Mathlib.Tactic.Common
import Coap.Proofs.Engine.Coverage

namespace Coap.Engine

/-!
# Fragments that are cut are guarded

A cut releases blocks before anything guards them. While its fragments are queued
one after the other, the blocks of those still to be queued are exempt. This
needs identifiers that nobody uses, since a fragment replaces whatever is queued
under its own.
-/

variable {exempt wider : TokenKey → Nat → Prop} {engine later : Engine}
variable {token : TokenKey} {transfer : OutboundTransfer} {state : SendState}
variable {fragments : List Fragment}

/-- A fragment still to be queued carries the block of the number. -/
def Pending
    (token : TokenKey)
    (state : SendState)
    (fragments : List Fragment)
    (other : TokenKey)
    (number : Nat) :
    Prop :=
  other = token ∧
    ∃ fragment ∈ fragments, ∃ block,
      state.block? number = some block ∧
        fragment.message = fragmentOf state block fragment.message.id

/-! ## Queueing fragments -/

/-- Queue a fragment with its handler. -/
def queueFragment
    (engine : Engine)
    (token : TokenKey)
    (fragment : Fragment) :
    Engine :=
  (engine.register fragment.message.id
    (.fragment token fragment.blockNumber)).enqueue fragment.message fragment.hooks

theorem dispatchFragments_cons
    (engine : Engine)
    (token : TokenKey)
    (first : Fragment)
    (rest : List Fragment) :
    engine.dispatchFragments token (first :: rest) =
      (engine.queueFragment token first).dispatchFragments token rest :=
  rfl

/-- Transfers only end when fragments are queued. -/
theorem queueFragment_outgoing
    (engine : Engine)
    (token : TokenKey)
    (fragment : Fragment)
    (other : TokenKey)
    (transfer : OutboundTransfer)
    (found : (engine.queueFragment token fragment).outgoing.find? other =
      some transfer) :
    ∃ earlier, engine.outgoing.find? other = some earlier ∧
      transfer.IsLike earlier := by
  obtain ⟨_, winds⟩ := (engine.register fragment.message.id
    (.fragment token fragment.blockNumber)).enqueue_windsDown
    fragment.message fragment.hooks
  exact winds.outgoing other transfer found

theorem dispatchFragments_outgoing
    (engine : Engine)
    (token : TokenKey)
    (fragments : List Fragment)
    (other : TokenKey)
    (transfer : OutboundTransfer)
    (found : (engine.dispatchFragments token fragments).outgoing.find? other =
      some transfer) :
    ∃ earlier, engine.outgoing.find? other = some earlier ∧
      transfer.IsLike earlier := by
  induction fragments generalizing engine with
  | nil => exact ⟨transfer, found, .refl transfer⟩
  | cons first rest inductionHypothesis =>
      rw [dispatchFragments_cons] at found
      obtain ⟨middle, middleFound, isLike⟩ := inductionHypothesis _ found
      obtain ⟨earlier, earlierFound, wasLike⟩ :=
        engine.queueFragment_outgoing token first other middle middleFound
      exact ⟨earlier, earlierFound, isLike.trans wasLike⟩

/-- A fragment that is queued is guarded, unless that ends its transfer. -/
theorem queueFragment_guards
    (tidy : engine.Tidy)
    (apart : engine.Apart)
    {fragment : Fragment}
    (found : engine.outgoing.find? token = some transfer)
    (member : fragment.message.id ∈ transfer.inFlight)
    (remains : (engine.queueFragment token fragment).outgoing.find? token ≠ none) :
    (engine.queueFragment token fragment).Guards token fragment.message := by
  have settles := @inserted_retains
    (engine.register fragment.message.id (.fragment token fragment.blockNumber))
    tidy.keyed tidy.lasting apart fragment.message fragment.hooks
  refine settles.guards token transfer fragment.message found
    remains member ⟨?_, ?_⟩
  · exact ⟨PoolEntry.create engine.now fragment.message fragment.hooks,
      Pool.stores_enqueue_self, rfl⟩
  · exact ⟨fragment.blockNumber, Cache.stores_insert_self⟩

/--
A fragment may be queued that replaces nothing, if it will pass
the block-wise stage.
-/
theorem Covered.queueFragment
    (covered : engine.Covered exempt)
    {fragment : Fragment}
    (unqueued : ∀ entry, ¬ engine.pool.entries.Stores fragment.message.id entry)
    (confirmable : state.whole.kind = .confirmable)
    (carries : Carries state fragment.message)
    (token : TokenKey) :
    (engine.queueFragment token fragment).Covered exempt := by
  obtain ⟨_, block, _, message_eq⟩ := carries
  refine (covered.register (.of_unqueued unqueued) _).enqueue
    (.of_unqueued unqueued) ?_ _
  intro _
  rw [message_eq]
  refine ⟨needsTransfer_fragmentOf _ state block _, ?_⟩
  rw [fragmentOf_frame]
  exact confirmable

/-- Once all fragments of a cut are queued, no block is exempt. -/
theorem Covered.dispatchFragments
    (covered : engine.Covered (Pending token state fragments))
    (distinct : (fragments.map (·.message.id)).Nodup)
    (unqueued : ∀ fragment ∈ fragments,
      ∀ entry, ¬ engine.pool.entries.Stores fragment.message.id entry)
    (confirmable : state.whole.kind = .confirmable)
    (carries : ∀ fragment ∈ fragments, Carries state fragment.message)
    (flies : ∀ transfer,
      engine.outgoing.find? token = some transfer →
        transfer.state.Continues state ∧
          ∀ fragment ∈ fragments, fragment.message.id ∈ transfer.inFlight) :
    (engine.dispatchFragments token fragments).Covered NoExemption := by
  induction fragments generalizing engine with
  | nil =>
      refine covered.of_guarded ?_
      rintro _ _ _ _ ⟨_, _, impossible, _⟩
      cases impossible
  | cons first rest inductionHypothesis =>
      rw [List.map_cons, List.nodup_cons] at distinct
      obtain ⟨firstUnqueued, restUnqueued⟩ := List.forall_mem_cons.mp unqueued
      obtain ⟨firstCarries, restCarries⟩ := List.forall_mem_cons.mp carries
      have queued :=
        covered.queueFragment firstUnqueued confirmable firstCarries token
      -- a transfer that is still in progress goes on with the same blocks
      have goesOn (transfer : OutboundTransfer)
          (found : (engine.queueFragment token first).outgoing.find? token =
            some transfer) :
          transfer.state.Continues state ∧
            ∀ fragment ∈ first :: rest,
              fragment.message.id ∈ transfer.inFlight := by
        obtain ⟨earlier, earlierFound, isLike⟩ :=
          engine.queueFragment_outgoing token first token transfer found
        obtain ⟨continues, members⟩ := flies earlier earlierFound
        exact ⟨isLike.continues.trans continues, isLike.inFlight_eq ▸ members⟩
      rw [dispatchFragments_cons]
      refine inductionHypothesis ?_ distinct.2 ?_ restCarries ?_
      · refine queued.of_guarded ?_
        rintro other transfer number found
          ⟨rfl, fragment, member, block, isBlock, message_eq⟩
        rcases List.mem_cons.mp member with rfl | inRest
        · obtain ⟨continues, members⟩ := goesOn transfer found
          have inFlight := members fragment List.mem_cons_self
          refine .inr ⟨fragment.message, ⟨inFlight, block, ?_, ?_⟩, ?_⟩
          · rw [continues.block?_eq]
            exact isBlock
          · rw [continues.fragmentOf_eq]
            exact message_eq
          · obtain ⟨earlier, earlierFound, isLike⟩ :=
              engine.queueFragment_outgoing other fragment other transfer found
            exact queueFragment_guards covered.tidy covered.apart earlierFound
              (isLike.inFlight_eq ▸ inFlight)
                (Option.ne_none_iff_exists'.mpr ⟨transfer, found⟩)
        · exact .inl ⟨rfl, fragment, inRest, block, isBlock, message_eq⟩
      · intro fragment inRest entry stores
        rcases stores_of_enqueue stores with ⟨same, _⟩ | ⟨earlier, earlierStores, _⟩
        · exact distinct.1 (List.mem_map.mpr ⟨fragment, inRest, same⟩)
        · exact restUnqueued fragment inRest earlier earlierStores
      · intro transfer found
        obtain ⟨continues, members⟩ := goesOn transfer found
        exact ⟨continues,
          fun fragment inRest => members fragment (List.mem_cons_of_mem _ inRest)⟩

/-! ## Identifiers that nobody uses -/

/-- No message is queued under the identifier, and it belongs to no transfer. -/
def Unused
    (engine : Engine)
    (id : MessageId) :
    Prop :=
  (∀ entry, ¬ engine.pool.entries.Stores id entry) ∧
    ∀ token transfer,
      engine.outgoing.find? token = some transfer →
        id ∉ transfer.inFlight ∧ id ≠ transfer.state.whole.id

/-- The identifiers that a cut may draw. -/
def drawn (engine : Engine) : List MessageId :=
  (List.range (engine.arq.windowSize + 1)).map fun index =>
    engine.nextId + UInt16.ofNat index

/-- The identifiers that the next cut draws are different ones that nobody uses. -/
structure DrawsFresh (engine : Engine) : Prop where
  distinct : engine.drawn.Nodup
  unused : ∀ id ∈ engine.drawn, engine.Unused id

instance (engine : Engine) (id : MessageId) : Decidable (engine.Unused id) :=
  have unqueued : engine.pool.entries.entries.find? id = none ↔
      ∀ entry, ¬ engine.pool.entries.Stores id entry := by
    constructor
    · rintro absent entry ⟨slot, found, _⟩
      cases absent.symm.trans found
    · exact fun absent => Option.eq_none_iff_forall_ne_some.mpr fun slot found =>
        absent slot.value ⟨slot, found, rfl⟩
  decidable_of_iff _ (and_congr_left' unqueued)

-- there are finitely many identifiers, but only those of the list are looked at
instance (engine : Engine) : Decidable engine.DrawsFresh :=
  letI : Decidable (∀ id ∈ engine.drawn, engine.Unused id) :=
    List.decidableBAll engine.Unused engine.drawn
  decidable_of_iff (engine.drawn.Nodup ∧ ∀ id ∈ engine.drawn, engine.Unused id)
    ⟨fun holds => ⟨holds.1, holds.2⟩, fun fresh => ⟨fresh.distinct, fresh.unused⟩⟩

theorem Unused.of_windsDown
    {gone : MessageId → Prop}
    {id : MessageId}
    (unused : engine.Unused id)
    (winds : WindsDown gone engine later) :
    later.Unused id := by
  constructor
  · intro entry stores
    obtain ⟨earlier, earlierStores, _⟩ := winds.pool.queued id entry stores
    exact unused.1 earlier earlierStores
  · intro token transfer found
    obtain ⟨earlier, earlierFound, isLike⟩ := winds.outgoing token transfer found
    rw [isLike.inFlight_eq, isLike.whole_eq]
    exact unused.2 token earlier earlierFound

namespace DrawsFresh

theorem of_windsDown
    {gone : MessageId → Prop}
    (fresh : engine.DrawsFresh)
    (winds : WindsDown gone engine later) :
    later.DrawsFresh := by
  have drawn_eq : later.drawn = engine.drawn := by
    unfold drawn
    rw [winds.arq_eq, winds.nextId_eq]
  constructor
  · rw [drawn_eq]
    exact fresh.distinct
  · rw [drawn_eq]
    exact fun id member => (fresh.unused id member).of_windsDown winds

/-- A transfer under way that uses none of them leaves them unused. -/
theorem place
    (fresh : engine.DrawsFresh)
    (apart : ∀ id ∈ engine.drawn,
      id ∉ transfer.inFlight ∧ id ≠ transfer.state.whole.id)
    (token : TokenKey) :
    { engine with outgoing := engine.outgoing.put token transfer }.DrawsFresh := by
  refine ⟨fresh.distinct, fun id member => ⟨(fresh.unused id member).1, ?_⟩⟩
  intro other found foundAt
  rcases Table.find?_put_cases foundAt with ⟨_, rfl⟩ | ⟨_, before⟩
  · exact apart id member
  · exact (fresh.unused id member).2 other found before

end DrawsFresh

/-! ## Cutting -/

/-- The transfer uses what the one under its token used, or what nobody does. -/
def Inherits
    (engine : Engine)
    (token : TokenKey)
    (transfer : OutboundTransfer) :
    Prop :=
  ∀ id ∈ transfer.inFlight,
    (∃ earlier, engine.outgoing.find? token = some earlier ∧
      id ∈ earlier.inFlight) ∨
      (engine.Unused id ∧ id ≠ transfer.state.whole.id)

theorem Apart.place
    (apart : engine.Apart)
    (inherits : engine.Inherits token transfer)
    (whole : ¬ engine.InFlight transfer.state.whole.id) :
    { engine with outgoing := engine.outgoing.put token transfer }.Apart := by
  intro first second own rival id found rivalFound member
  rcases Table.find?_put_cases found with ⟨rfl, rfl⟩ | ⟨_, ownFound⟩
  · -- the transfer that is placed against another one, or itself
    rcases Table.find?_put_cases rivalFound with ⟨rfl, rfl⟩ | ⟨_, rivalBefore⟩
    · refine ⟨fun _ => rfl, ?_⟩
      rcases inherits id member with
        ⟨earlier, earlierFound, wasMember⟩ | ⟨_, different⟩
      · rintro rfl
        exact whole ⟨second, earlier, earlierFound, wasMember⟩
      · exact different
    · rcases inherits id member with
        ⟨earlier, earlierFound, wasMember⟩ | ⟨unused, _⟩
      · exact apart first second earlier rival id earlierFound rivalBefore wasMember
      · obtain ⟨absent, different⟩ := unused.2 second rival rivalBefore
        exact ⟨fun inRival => absurd inRival absent, different⟩
  · rcases Table.find?_put_cases rivalFound with ⟨rfl, rfl⟩ | ⟨_, rivalBefore⟩
    · -- another one against the transfer that is placed
      constructor
      · intro inRival
        rcases inherits id inRival with
          ⟨earlier, earlierFound, wasMember⟩ | ⟨unused, _⟩
        · exact (apart first second own earlier id ownFound earlierFound member).1
            wasMember
        · exact absurd member (unused.2 first own ownFound).1
      · rintro rfl
        exact whole ⟨first, own, ownFound, member⟩
    · exact apart first second own rival id ownFound rivalBefore member

/-- A transfer takes the place of the one under its token. -/
theorem Covered.place
    (covered : engine.Covered exempt)
    (inherits : engine.Inherits token transfer)
    (whole : ¬ engine.InFlight transfer.state.whole.id)
    (regular : transfer.IsRegular engine.arq)
    (shelters : engine.Shelters (wider token) token transfer)
    (included : ∀ other number, other ≠ token → exempt other number →
      wider other number) :
    { engine with
      outgoing := engine.outgoing.put token transfer }.Covered wider where
  tidy := { covered.tidy with }
  apart := covered.apart.place inherits whole
  passes := by
    rintro id entry ⟨other, found, foundAt, member⟩ stores
    rcases Table.find?_put_cases foundAt with ⟨rfl, rfl⟩ | ⟨_, before⟩
    · rcases inherits id member with
        ⟨earlier, earlierFound, wasMember⟩ | ⟨unused, _⟩
      · exact covered.passes id entry
          ⟨other, earlier, earlierFound, wasMember⟩ stores
      · exact absurd stores (unused.1 entry)
    · exact covered.passes id entry ⟨other, found, before, member⟩ stores
  regular := by
    intro other found foundAt
    rcases Table.find?_put_cases foundAt with ⟨_, rfl⟩ | ⟨_, before⟩
    · exact regular
    · exact covered.regular other found before
  sheltered := by
    intro other found foundAt
    rcases Table.find?_put_cases foundAt with ⟨rfl, rfl⟩ | ⟨different, before⟩
    · exact shelters
    · obtain ⟨released, confirmed, tracks, sheltered⟩ :=
        covered.sheltered other found before
      exact ⟨released, confirmed, tracks, fun number isOut =>
        (sheltered number isOut).imp_right
          (Or.imp_left (included other number different))⟩

/-- The identifier of a whole message is not in flight. -/
theorem Covered.whole_not_inFlight
    (covered : engine.Covered exempt)
    (found : engine.outgoing.find? token = some transfer) :
    ¬ engine.InFlight transfer.state.whole.id := by
  rintro ⟨other, rival, rivalFound, member⟩
  exact (covered.apart other token rival transfer _ rivalFound found member).2 rfl

/-- Counters do not matter. -/
theorem Covered.with_counters
    (covered : engine.Covered exempt)
    (nextId : MessageId)
    (nextSerial : Nat) :
    { engine with
      nextId := nextId
      nextSerial := nextSerial }.Covered exempt :=
  { covered with tidy := { covered.tidy with } }

theorem InFlight.of_place
    {id : MessageId}
    (inFlight : { engine with
      outgoing := engine.outgoing.put token transfer }.InFlight id) :
    engine.InFlight id ∨ id ∈ transfer.inFlight := by
  obtain ⟨other, found, foundAt, member⟩ := inFlight
  rcases Table.find?_put_cases foundAt with ⟨_, rfl⟩ | ⟨_, before⟩
  · exact .inr member
  · exact .inl ⟨other, found, before, member⟩

/-- The fragments of a cut carry different identifiers that were to be drawn. -/
theorem cut_ids
    (engine : Engine)
    (token : TokenKey)
    (narrow : transfer.state.windowSize ≤ engine.arq.windowSize) :
    ((cut token transfer engine.nextId).fragments.map (·.message.id)).Sublist
      engine.drawn := by
  have lengthLe := (cut_isOf token transfer engine.nextId).2
  unfold cut at lengthLe ⊢
  rw [cutWithin_ids]
  exact (List.range_sublist.mpr
    (Nat.le_trans lengthLe (Nat.succ_le_succ narrow))).map _

/-- What is in flight after a cut was in flight before, or was to be drawn. -/
theorem cut_inFlight
    (engine : Engine)
    (token : TokenKey)
    (narrow : transfer.state.windowSize ≤ engine.arq.windowSize)
    {id : MessageId}
    (member : id ∈ (cut token transfer engine.nextId).transfer.inFlight) :
    id ∈ transfer.inFlight ∨ id ∈ engine.drawn := by
  obtain ⟨isOf, _⟩ := cut_isOf token transfer engine.nextId
  rcases isOf.inFlight id member with earlier | ⟨fragment, inCut, rfl⟩
  · exact .inl earlier
  · exact .inr ((engine.cut_ids token narrow).subset (List.mem_map_of_mem inCut))

/-- Each block that a cut releases has a fragment to be queued. -/
theorem Covered.cut_shelters
    (covered : engine.Covered NoExemption)
    (found : engine.outgoing.find? token = some transfer) :
    engine.Shelters
      (Pending token transfer.state
        (Engine.cut token transfer engine.nextId).fragments token)
      token (Engine.cut token transfer engine.nextId).transfer := by
  obtain ⟨isOf, _⟩ := cut_isOf token transfer engine.nextId
  obtain ⟨released, confirmed, tracks, shelters⟩ :=
    covered.sheltered token transfer found
  obtain ⟨further, tracksOn, carried⟩ :=
    cutWithin_tracks token (transfer.state.windowSize + 1)
      (covered.regular token transfer found).positive tracks engine.nextId
  refine ⟨further, confirmed, tracksOn, fun number isOut => ?_⟩
  rcases Nat.lt_or_ge number released with wasOut | isNew
  · rcases shelters number wasOut with
      isConfirmed | impossible | ⟨message, sent, guards⟩
    · exact .inl isConfirmed
    · exact impossible.elim
    · exact .inr (.inr
        ⟨message, sent.of_continues isOf.continues (isOf.kept _ sent.1), guards⟩)
  · exact .inr (.inl ⟨rfl, carried number isNew isOut⟩)

/--
A transfer in progress goes on, and the fragments that are cut from it are guarded.
-/
theorem Covered.cut
    (covered : engine.Covered NoExemption)
    (fresh : engine.DrawsFresh)
    (found : engine.outgoing.find? token = some transfer) :
    let cutting := Engine.cut token transfer engine.nextId
    let later := { engine with
      outgoing := engine.outgoing.put token cutting.transfer
      nextId := cutting.nextId }.dispatchFragments token cutting.fragments
    later.Covered NoExemption ∧
      ∀ id, later.InFlight id → engine.InFlight id ∨ id ∈ engine.drawn := by
  have regular := covered.regular token transfer found
  have whole := covered.whole_not_inFlight found
  have ids := engine.cut_ids token regular.narrow
  have inFlight (id : MessageId) :=
    @cut_inFlight transfer engine token regular.narrow id
  have shelters := covered.cut_shelters found
  obtain ⟨isOf, _⟩ := cut_isOf token transfer engine.nextId
  intro cutting later
  change ∀ id, id ∈ cutting.transfer.inFlight → _ at inFlight
  have placed : { engine with
      outgoing := engine.outgoing.put token cutting.transfer }.Covered
        (Pending token transfer.state cutting.fragments) := by
    refine covered.place ?_ ?_ (regular.of_continues isOf.continues) shelters
      fun _ _ _ => False.elim
    · intro id member
      refine (inFlight id member).imp (fun earlier => ⟨transfer, found, earlier⟩)
        fun isDrawn => ?_
      have unused := fresh.unused id isDrawn
      rw [isOf.continues.whole_eq]
      exact ⟨unused, (unused.2 token transfer found).2⟩
    · rw [isOf.continues.whole_eq]
      exact whole
  constructor
  · refine (placed.with_counters cutting.nextId engine.nextSerial).dispatchFragments
      (fresh.distinct.sublist ids) ?_ regular.confirmable isOf.carries ?_
    · intro fragment member
      exact (fresh.unused _ (ids.subset (List.mem_map_of_mem member))).1
    · intro goesOn goesOnFound
      rw [Table.find?_put_self] at goesOnFound
      cases goesOnFound
      exact ⟨isOf.continues, isOf.flies⟩
  · intro id flies
    have placedFlies : { engine with
        outgoing := engine.outgoing.put token cutting.transfer }.InFlight id :=
      .of_outgoing (dispatchFragments_outgoing { engine with
        outgoing := engine.outgoing.put token cutting.transfer
        nextId := cutting.nextId } token cutting.fragments) flies
    rcases placedFlies.of_place with before | member
    · exact .inl before
    · exact (inFlight id member).imp_left fun earlier =>
        ⟨token, transfer, found, earlier⟩

/-! ## Confirming a block -/

/-- Only the block of a number of one transfer is exempt. -/
def Only
    (token : TokenKey)
    (number : Nat)
    (other : TokenKey)
    (otherNumber : Nat) :
    Prop :=
  other = token ∧ otherNumber = number

/-- The transfer when a block is confirmed, whose fragment has the identifier. -/
def confirmedTransfer
    (transfer : OutboundTransfer)
    (number : UInt32)
    (id : MessageId) :
    OutboundTransfer :=
  { transfer with
    state := transfer.state.confirm number
    inFlight := transfer.inFlight.filter fun fragment => fragment ≠ id }

/-- A block needs no exemption any more when it is confirmed. -/
theorem Covered.place_confirmed
    {number : UInt32}
    {id : MessageId}
    (covered : engine.Covered (Only token number.toNat))
    (unqueued : ∀ entry, ¬ engine.pool.entries.Stores id entry)
    (found : engine.outgoing.find? token = some transfer) :
    { engine with
      outgoing :=
        engine.outgoing.put token (confirmedTransfer transfer number id) }.Covered
          NoExemption := by
  have continues :
      (confirmedTransfer transfer number id).state.Continues transfer.state :=
    .confirm transfer.state number
  obtain ⟨released, confirmed, tracks, shelters⟩ :=
    covered.sheltered token transfer found
  refine covered.place ?_ ?_
    ((covered.regular token transfer found).of_continues continues) ?_ ?_
  · exact fun other member => .inl ⟨transfer, found, List.mem_of_mem_filter member⟩
  · rw [continues.whole_eq]
    exact covered.whole_not_inFlight found
  · refine ⟨released, _, tracks.confirm number, fun other isOut => ?_⟩
    rcases shelters other isOut with
      isConfirmed | ⟨_, rfl⟩ | ⟨message, sent, guards⟩
    · exact .inl (.inl isConfirmed)
    · exact .inl (.inr ⟨rfl, isOut⟩)
    · have different : message.id ≠ id := by
        rintro rfl
        obtain ⟨⟨entry, stores, _⟩, _⟩ := guards
        exact unqueued entry stores
      have stays : message.id ∈ (confirmedTransfer transfer number id).inFlight :=
        List.mem_filter.mpr ⟨sent.1, by simpa using different⟩
      exact .inr (.inr ⟨message, sent.of_continues continues stays, guards⟩)
  · exact fun other _ different only => different only.1

/-- A confirmed block releases further fragments, and all are guarded. -/
theorem Covered.confirmBlock
    {number : UInt32}
    {id : MessageId}
    (covered : engine.Covered (Only token number.toNat))
    (unqueued : ∀ entry, ¬ engine.pool.entries.Stores id entry)
    (fresh : engine.DrawsFresh) :
    (engine.confirmBlock token number id).Covered NoExemption := by
  unfold Engine.confirmBlock
  split
  · next missing =>
      refine covered.of_guarded ?_
      rintro _ transfer _ found ⟨rfl, _⟩
      cases missing.symm.trans found
  · next transfer found =>
      have placed := covered.place_confirmed unqueued found
      have stillFresh : { engine with
          outgoing := engine.outgoing.put token
            (confirmedTransfer transfer number id) }.DrawsFresh := by
        refine fresh.place (fun other isDrawn => ?_) token
        obtain ⟨absent, different⟩ :=
          (fresh.unused other isDrawn).2 token transfer found
        exact ⟨fun member => absent (List.mem_of_mem_filter member), different⟩
      have goesOn := (placed.cut stillFresh (Table.find?_put_self _ _ _)).1
      dsimp only at goesOn
      rw [Table.put_put] at goesOn
      exact goesOn

/-! ## Starting a transfer -/

/-- A transfer that starts has its first fragments guarded. -/
theorem Covered.startTransfer
    (covered : engine.Covered NoExemption)
    (fresh : engine.DrawsFresh)
    {whole : Message}
    {blockSize : Nat}
    (data : List UInt8)
    (hooks : Hooks)
    (token : TokenKey)
    (idle : ¬ engine.InFlight whole.id)
    (unlikely : whole.id ∉ engine.drawn)
    (confirmable : whole.kind = .confirmable)
    (positive : 0 < blockSize)
    (small : SendState.blocksFor data.length blockSize ≤ 2 ^ 28) :
    let later := engine.startTransfer token
      (SendState.start engine.now data engine.arq.windowSize blockSize whole) hooks
    later.Covered NoExemption ∧
      ∀ id, later.InFlight id → engine.InFlight id ∨ id ∈ engine.drawn := by
  let transfer : OutboundTransfer :=
    { state := SendState.start engine.now data engine.arq.windowSize blockSize whole
      hooks := hooks
      serial := engine.nextSerial }
  have placed : { engine with
      outgoing := engine.outgoing.put token transfer
      nextSerial := engine.nextSerial + 1 }.Covered NoExemption := by
    refine (covered.place ?_ idle ?_ ?_ fun _ _ _ =>
      id).with_counters engine.nextId _
    · exact fun _ impossible => nomatch impossible
    · exact
        { positive := positive
          small := small
          narrow := SendState.windowSize_start_le _ _ _ _ _
          confirmable := confirmable }
    · exact ⟨0, fun _ => False, SendState.tracks_start _ _ _ _ _,
        fun _ impossible => absurd impossible (Nat.not_lt_zero _)⟩
  have stillFresh : { engine with
      outgoing := engine.outgoing.put token transfer
      nextSerial := engine.nextSerial + 1 }.DrawsFresh := by
    have apart (id : MessageId) (isDrawn : id ∈ engine.drawn) :
        id ∉ transfer.inFlight ∧ id ≠ whole.id :=
      ⟨List.not_mem_nil, fun same => unlikely (same ▸ isDrawn)⟩
    exact { fresh.place apart token with }
  have goesOn := placed.cut stillFresh (Table.find?_put_self _ _ _)
  dsimp only at goesOn
  rw [Table.put_put] at goesOn
  refine ⟨goesOn.1, fun id flies => ?_⟩
  rcases goesOn.2 id flies with before | isDrawn
  · exact .inl (before.of_place.resolve_right List.not_mem_nil)
  · exact .inr isDrawn

end Coap.Engine
