import Mathlib.Tactic.Common
import Coap.Proofs.Engine.Operations
import Coap.Proofs.Queue.Deeds

namespace Coap

/-!
# How a pool counts

The telemetry of a token is written by scans and by whoever records a transfer, and
read by everyone. An entry knows by its attempts whether its message has been handed
out since its exchange started, and no operation that leaves its attempts alone
leads it astray.
-/

namespace Pool

variable {before after later pool : Pool} {now : Timestamp} {id : MessageId}
variable {entry : PoolEntry}
variable {past : List Deed}

/--
The telemetry is the same, and every entry has as many attempts behind it as before.
-/
structure KeepsCounts (before after : Pool) : Prop where
  delivery_eq : after.delivery = before.delivery
  idle_eq : after.entries.idle = before.entries.idle
  attempts : ∀ id entry, after.entries.Stores id entry →
    ∃ earlier, before.entries.Stores id earlier ∧
      entry.message = earlier.message ∧ entry.attempts = earlier.attempts

namespace KeepsCounts

theorem refl (pool : Pool) : KeepsCounts pool pool :=
  ⟨rfl, rfl, fun _ entry stores => ⟨entry, stores, rfl, rfl⟩⟩

theorem trans
    (first : KeepsCounts before after)
    (second : KeepsCounts after later) :
    KeepsCounts before later where
  delivery_eq := second.delivery_eq.trans first.delivery_eq
  idle_eq := second.idle_eq.trans first.idle_eq
  attempts := by
    intro id entry stores
    obtain ⟨middle, middleStores, message_eq, attempts_eq⟩ :=
      second.attempts id entry stores
    obtain ⟨earlier, earlierStores, wasMessage, hadAttempts⟩ :=
      first.attempts id middle middleStores
    exact ⟨earlier, earlierStores, message_eq.trans wasMessage,
      attempts_eq.trans hadAttempts⟩

end KeepsCounts

theorem unmap_delivery
    (pool : Pool)
    (token : TokenKey)
    (id : MessageId) :
    (pool.unmap token id).delivery = pool.delivery := by
  unfold unmap
  split <;> rfl

theorem discard_delivery
    (pool : Pool)
    (id : MessageId) :
    (pool.discard id).delivery = pool.delivery := by
  unfold discard take
  split
  · rfl
  · exact unmap_delivery _ _ _

theorem enqueue_delivery
    (pool : Pool)
    (now : Timestamp)
    (message : Message)
    (hooks : Hooks) :
    (pool.enqueue now message hooks).2.delivery = pool.delivery := by
  have mapped (pool : Pool) :
      (pool.mapIfAbsent message.key message.id).delivery = pool.delivery := by
    unfold mapIfAbsent
    split <;> rfl
  unfold enqueue
  dsimp only
  rw [mapped]
  split
  · exact unmap_delivery _ _ _
  · rfl

theorem discard_keepsCounts
    (pool : Pool)
    (id : MessageId) :
    KeepsCounts pool (pool.discard id) where
  delivery_eq := pool.discard_delivery id
  idle_eq := (pool.discard_thins id).idle_eq
  attempts := by
    intro other entry stores
    rw [discard_entries, Cache.stores_erase] at stores
    exact ⟨entry, stores.2, rfl, rfl⟩

theorem takeByToken_keepsCounts
    (pool : Pool)
    (token : TokenKey) :
    KeepsCounts pool (pool.takeByToken token).2 := by
  unfold takeByToken
  split
  · exact pool.discard_keepsCounts _
  · exact .refl pool

theorem releaseUnconfirmed_keepsCounts
    (pool : Pool)
    (message : Message) :
    KeepsCounts pool (pool.releaseUnconfirmed message) := by
  unfold releaseUnconfirmed
  split
  · exact .refl pool
  · exact pool.discard_keepsCounts _

theorem adjust_keepsCounts
    (pool : Pool)
    (now : Timestamp)
    (id : MessageId)
    {change : PoolEntry → PoolEntry}
    (same : ∀ entry,
      (change entry).message = entry.message ∧
        (change entry).attempts = entry.attempts) :
    KeepsCounts pool (pool.adjust now id change) where
  delivery_eq := rfl
  idle_eq := (Cache.adjust_bounds change).2
  attempts := by
    intro other entry stores
    rcases stores.of_adjust with earlier | ⟨earlier, earlierStores, rfl⟩
    · exact ⟨entry, earlier, rfl, rfl⟩
    · exact ⟨earlier, earlierStores, same earlier⟩

theorem get_keepsCounts
    (pool : Pool)
    (now : Timestamp)
    (id : MessageId) :
    KeepsCounts pool (pool.get now id).2 where
  delivery_eq := rfl
  idle_eq := Cache.get_bounds.2
  attempts := fun _ entry stores => ⟨entry, stores.of_get, rfl, rfl⟩

theorem drain_keepsCounts (pool : Pool) : KeepsCounts pool pool.drain.2 where
  delivery_eq := rfl
  idle_eq := rfl
  attempts := by
    rintro id entry ⟨slot, found, _⟩
    cases found

/--
What a scan hands out and leaves behind: it keeps all counts up to the hand-out.
-/
inductive ScanEnds
    (before : Pool)
    (now : Timestamp) :
    Option Message →
    Pool →
    Prop where
  | nothing
      (after : Pool)
      (kept : KeepsCounts before after) :
      ScanEnds before now none after
  | handOut
      (middle : Pool)
      (kept : KeepsCounts before middle)
      (id : MessageId)
      (entry : PoolEntry)
      (stores : middle.entries.Stores id entry) :
      ScanEnds before now (some entry.message)
        ((middle.adjust now id fun entry =>
          entry.handedOut now).countHandOut now entry)

theorem ScanEnds.of_kept
    {picked : Option Message}
    (ends : ScanEnds after now picked later)
    (kept : KeepsCounts before after) :
    ScanEnds before now picked later := by
  cases ends with
  | nothing _ keptLater => exact .nothing later (kept.trans keptLater)
  | handOut middle keptLater id entry stores =>
      exact .handOut middle (kept.trans keptLater) id entry stores

theorem scanEnds
    (now : Timestamp)
    (ids : List MessageId)
    (pool : Pool) :
    ScanEnds pool now (scanEntries now ids pool).picked
      (scanEntries now ids pool).pool := by
  induction ids generalizing pool with
  | nil => exact .nothing pool (.refl pool)
  | cons first rest inductionHypothesis =>
      unfold scanEntries
      split
      · exact inductionHypothesis pool
      · next entry peeked =>
          split
          · exact (inductionHypothesis _).of_kept (pool.discard_keepsCounts first)
          · exact inductionHypothesis pool
          · exact .handOut pool (.refl pool) first entry
              (Cache.stores_of_peek? peeked)
          · exact (inductionHypothesis _).of_kept
              (pool.adjust_keepsCounts now first fun _ => ⟨rfl, rfl⟩)

/-! ## What the pool knows -/

/--
The pool has counted what was done, and every entry knows whether it is under way.
-/
structure Tallies
    (pool : Pool)
    (now : Timestamp)
    (past : List Deed) :
    Prop where
  delivery : Tallied past now pool.delivery
  unlimited : pool.entries.idle = none
  keyed : pool.IsKeyed
  underWay : ∀ id entry, pool.entries.Stores id entry →
    decide (0 < entry.attempts) = Deed.isUnderWay past id

namespace Tallies

theorem empty
    (config : PoolConfig) :
    (empty config).Tallies Timestamp.start [] where
  delivery := .empty
  unlimited := rfl
  keyed := by
    rintro id entry ⟨slot, found, _⟩
    cases found
  underWay := by
    rintro id entry ⟨slot, found, _⟩
    cases found

theorem of_keepsCounts
    (tallies : pool.Tallies now past)
    (kept : KeepsCounts pool later) :
    later.Tallies now past where
  delivery := by
    rw [kept.delivery_eq]
    exact tallies.delivery
  unlimited := kept.idle_eq.trans tallies.unlimited
  keyed := by
    intro id entry stores
    obtain ⟨earlier, before, message_eq, _⟩ := kept.attempts id entry stores
    rw [message_eq]
    exact tallies.keyed id earlier before
  underWay := by
    intro id entry stores
    obtain ⟨earlier, before, _, attempts_eq⟩ := kept.attempts id entry stores
    rw [attempts_eq]
    exact tallies.underWay id earlier before

/-- A cache of telemetry that has counted the same is as good. -/
theorem with_delivery
    (tallies : pool.Tallies now past)
    {delivery : Cache TokenKey Delivery}
    (tallied : Tallied past now delivery) :
    { pool with delivery := delivery }.Tallies now past :=
  { tallies with delivery := tallied }

theorem wait
    (tallies : pool.Tallies now past)
    {length : Nat}
    (early : now.nanos + length < deliveryRetention) :
    pool.Tallies (now.after length) past :=
  { tallies with delivery := tallies.delivery.after early }

/-- A message that is queued has not been handed out yet. -/
theorem enqueue
    (tallies : pool.Tallies now past)
    (message : Message)
    (hooks : Hooks) :
    (pool.enqueue now message hooks).2.Tallies now
      (.started message.id :: past) where
  delivery := by
    rw [enqueue_delivery]
    exact tallies.delivery.started message.id
  unlimited := by
    rw [enqueue_entries]
    exact Cache.insert_bounds.2.trans tallies.unlimited
  keyed := tallies.keyed.enqueue now message hooks
  underWay := by
    intro id entry stores
    by_cases isNew : id = message.id
    · subst isNew
      rw [stores.unique stores_enqueue_self]
      simp [PoolEntry.create]
    · rcases stores_of_enqueue stores with ⟨same, _⟩ | before
      · exact absurd same isNew
      · rw [Deed.isUnderWay_started_of_ne isNew]
        exact tallies.underWay id entry before

/-- A message whose exchange starts again has not been handed out since. -/
theorem requeue
    (tallies : pool.Tallies now past)
    (id : MessageId) :
    (pool.requeue now id).Tallies now (.started id :: past) where
  delivery := tallies.delivery.started id
  unlimited := (Cache.modify_bounds _).2.trans tallies.unlimited
  keyed := tallies.keyed.of_thins (@requeue_thins (fun _ => False) pool now id)
  underWay := by
    intro other entry stores
    obtain ⟨earlier, before, rfl⟩ := stores.before_modify tallies.unlimited
    by_cases same : other = id
    · simp [same, PoolEntry.restarted]
    · rw [if_neg same, Deed.isUnderWay_started_of_ne same]
      exact tallies.underWay other earlier before

theorem recordTransfer
    (tallies : pool.Tallies now past)
    (token : TokenKey)
    (report : TransferReport) :
    (pool.recordTransfer now token report).Tallies now
      (.recorded token report :: past) :=
  { tallies with
    delivery := by
      unfold Pool.recordTransfer
      dsimp only
      rw [tallies.delivery.get_fst, Deed.getD_tally]
      exact (tallies.delivery.get token).insert rfl
        (Deed.tally_recorded token report past)
    underWay := by
      intro id entry stores
      rw [Deed.isUnderWay_recorded]
      exact tallies.underWay id entry stores }

/-- A hand-out is counted as a repeated one if the entry has attempts behind it. -/
theorem handOut
    (tallies : pool.Tallies now past)
    (stores : pool.entries.Stores id entry) :
    ((pool.adjust now id fun entry =>
      entry.handedOut now).countHandOut now entry).Tallies now
      (.handedOut entry.message :: past) where
  delivery := by
    have isId := tallies.keyed id entry stores
    unfold countHandOut adjust
    dsimp only
    rw [tallies.delivery.get_fst, Deed.getD_tally,
      tallies.underWay id entry stores, ← isId]
    exact (tallies.delivery.get entry.message.key).insert rfl
      (Deed.tally_handedOut entry.message past)
  unlimited := (Cache.adjust_bounds _).2.trans tallies.unlimited
  keyed :=
    tallies.keyed.of_thins (@handOut_thins (fun _ => False) pool now id entry)
  underWay := by
    intro other later laterStores
    have isId := tallies.keyed id entry stores
    obtain ⟨earlier, before, rfl⟩ :=
      Cache.Stores.before_adjust laterStores tallies.unlimited
    by_cases same : other = id
    · subst same
      rw [if_pos rfl, ← isId, Deed.isUnderWay_handedOut_self]
      simp [PoolEntry.handedOut]
    · rw [if_neg same, Deed.isUnderWay_handedOut_of_ne (isId ▸ Ne.symm same)]
      exact tallies.underWay other earlier before

theorem scan
    (tallies : pool.Tallies now past) :
    (pool.scan now).pool.Tallies now
      ((pool.scan now).picked.toList.map Deed.handedOut ++ past) := by
  have ends := scanEnds now pool.entries.keys pool
  unfold Pool.scan
  generalize (scanEntries now pool.entries.keys pool).picked = picked at ends ⊢
  generalize (scanEntries now pool.entries.keys pool).pool = later at ends ⊢
  cases ends with
  | nothing _ kept => exact tallies.of_keepsCounts kept
  | handOut middle kept id entry stores =>
      exact (tallies.of_keepsCounts kept).handOut stores

end Tallies

end Pool

end Coap
