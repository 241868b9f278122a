import Mathlib.Data.List.Basic
import Mathlib.Tactic.Common
import Coap.Pool.Basic
import Coap.Proofs.Cache.Recency
import Coap.Proofs.Queue.Rules

namespace Coap

/-!
# The pool as a queue

As long as all messages have one token and no time passes, a pool is a queue with a
name: the identifier that its token leads to. Entries leave from anywhere, and a
scan hands out the first one that is due.
-/

/-! ## Retry rules while no time passes -/

/--
No period is over at once unless it is that of long responses, and there is an
attempt to make.
-/
structure PoolConfig.IsPatient (config : PoolConfig) : Prop where
  maxAttempts : 0 < config.maxAttempts
  resendPeriod : 0 < config.resendPeriod
  expirationPeriod : 0 < config.expirationPeriod
  garbagePeriod : 0 < config.garbagePeriod

theorem PoolConfig.garbagePeriodOf_pos
    (config : PoolConfig)
    (patient : config.IsPatient)
    (entry : PoolEntry) :
    0 < config.garbagePeriodOf entry := by
  unfold garbagePeriodOf
  split
  · exact Nat.mul_pos patient.garbagePeriod (by decide)
  · exact patient.garbagePeriod

/--
The wait before a resend is that of short responses, unless a long one is due.
-/
theorem PoolConfig.IsPatient.resendWait_pos
    {config : PoolConfig}
    (patient : config.IsPatient)
    {message : Message}
    (waits : message.longResponse = true → 0 < config.resendLongPeriod) :
    0 < config.resendWait message := by
  unfold resendWait
  split
  · next long => exact waits long
  · exact patient.resendPeriod

namespace PoolEntry

variable {config : PoolConfig} {now : Timestamp}

/-- What was queued just now is handed out. -/
theorem decision_create
    (patient : config.IsPatient)
    (message : Message)
    (hooks : Hooks) :
    (create now message hooks).decision config now = .handOut := by
  have unexpired := Nat.not_le.mpr patient.expirationPeriod
  have attempts := Nat.not_le.mpr patient.maxAttempts
  simp [decision, create, sentLongAgo, unexpired, attempts]

/-- What was handed out just now rests if there is a time to wait for its answer. -/
theorem decision_handedOut
    (patient : config.IsPatient)
    {message : Message}
    (waits : 0 < config.resendWait message)
    (hooks : Hooks) :
    ((create now message hooks).handedOut now).decision config now = .rest := by
  have unexpired := Nat.not_le.mpr patient.expirationPeriod
  have kept :=
    config.garbagePeriodOf_pos patient ((create now message hooks).handedOut now)
  have unsent : 0 <
      config.resendPeriodOf ((create now message hooks).handedOut now) := by
    rw [PoolConfig.resendPeriodOf_eq]
    exact waits
  unfold decision sentLongAgo
  simp only [handedOut, create, Timestamp.since_self, Bool.not_true,
    Bool.false_eq_true, ↓reduceIte, Bool.true_and, decide_eq_true_eq,
    unexpired] at kept unsent ⊢
  rw [if_neg (Nat.not_le.mpr kept), if_neg (Nat.not_le.mpr unsent)]

/--
What was handed out just now is handed out again once its exchange has started anew.
-/
theorem decision_restarted
    (patient : config.IsPatient)
    (message : Message)
    (hooks : Hooks) :
    ((create now message hooks).handedOut now).restarted.decision config now =
      .handOut := by
  have unexpired := Nat.not_le.mpr patient.expirationPeriod
  have attempts := Nat.not_le.mpr patient.maxAttempts
  have kept := config.garbagePeriodOf_pos patient
    ((create now message hooks).handedOut now).restarted
  unfold decision sentLongAgo
  simp only [restarted, handedOut, create, Timestamp.since_self, Bool.not_true,
    Bool.not_false, Bool.false_eq_true, ↓reduceIte, Bool.true_and,
    decide_eq_true_eq, unexpired, attempts]
    at kept ⊢
  rw [if_neg (Nat.not_le.mpr kept)]

/-- What need not be sent rests. -/
theorem decision_suppressed
    (patient : config.IsPatient)
    {entry : PoolEntry}
    (createdAt_eq : entry.createdAt = now) :
    entry.suppressed.decision config now = .rest := by
  have unexpired := Nat.not_le.mpr patient.expirationPeriod
  simp [decision, suppressed, createdAt_eq, unexpired]

end PoolEntry

namespace Pool

/-- A scan looks at entries of the pool. -/
theorem exists_peek?_of_visited
    {pool : Pool}
    {now : Timestamp}
    {ids : List MessageId}
    {entry : PoolEntry}
    (isVisited : entry ∈ pool.visited now ids) :
    ∃ id, pool.entries.peek? now id = some entry := by
  induction ids with
  | nil => cases isVisited
  | cons id rest inductionHypothesis =>
      unfold visited at isVisited
      cases found : pool.entries.peek? now id with
      | none =>
          rw [found] at isVisited
          exact inductionHypothesis isVisited
      | some first =>
          rw [found] at isVisited
          dsimp only at isVisited
          split at isVisited
          · rw [List.mem_singleton.mp isVisited]
            exact ⟨id, found⟩
          · rcases List.mem_cons.mp isVisited with rfl | isLater
            · exact ⟨id, found⟩
            · exact inductionHypothesis isLater

/-! ## Entries in order -/

/-- The identifier of a queued message. -/
def idOf (entry : PoolEntry) : MessageId :=
  entry.message.id

/-- The slots of a queue, all touched now. -/
def slots
    (now : Timestamp)
    (queue : List PoolEntry) :
    Table MessageId (PoolEntry × Timestamp) :=
  queue.map fun entry => (idOf entry, entry, now)

/--
The pool holds `queue`, whose messages all have `token`, and that leads to `named`.
-/
structure Holds
    (pool : Pool)
    (now : Timestamp)
    (token : TokenKey)
    (queue : List PoolEntry)
    (named : Option MessageId) :
    Prop where
  shows : pool.entries.Shows { capacity := some pool.config.capacity }
    (slots now queue)
  idOf?_eq : pool.idOf? token = named
  named_mem : ∀ id, named = some id → id ∈ queue.map idOf
  keyed : ∀ entry ∈ queue, entry.message.key = token
  spans : ∀ entry ∈ queue, pool.config.Spans entry.message

theorem holds_empty
    (config : PoolConfig)
    (now : Timestamp)
    (token : TokenKey) :
    (empty config).Holds now token [] none where
  shows := Cache.shows_withCapacity config.capacity
  idOf?_eq := rfl
  named_mem := by simp
  keyed := by simp
  spans := by simp

/-- A name that is another identifier stays. -/
theorem filter_ne_eq_self
    {named : Option MessageId}
    {id : MessageId}
    (different : named ≠ some id) :
    (named.filter fun name => name ≠ id) = named := by
  cases named with
  | none => rfl
  | some name => simpa using different

theorem keys_slots
    (now : Timestamp)
    (queue : List PoolEntry) :
    Table.keys (slots now queue) = queue.map idOf := by
  unfold Table.keys slots
  rw [List.map_map]
  rfl

theorem erase_slots
    (now : Timestamp)
    (queue : List PoolEntry)
    (id : MessageId) :
    (slots now queue).erase id =
      slots now (queue.filter fun entry => idOf entry ≠ id) := by
  unfold Table.erase slots
  rw [List.filter_map]
  rfl

theorem find?_slots_of_mem
    {now : Timestamp}
    {queue : List PoolEntry}
    (distinct : (queue.map idOf).Nodup)
    {entry : PoolEntry}
    (member : entry ∈ queue) :
    (slots now queue).find? (idOf entry) = some (entry, now) := by
  rw [← keys_slots now] at distinct
  exact (Table.find?_eq_some_iff distinct).mpr
    (List.mem_map.mpr ⟨entry, member, rfl⟩)

theorem find?_slots_of_not_mem
    {now : Timestamp}
    {queue : List PoolEntry}
    {id : MessageId}
    (absent : id ∉ queue.map idOf) :
    (slots now queue).find? id = none := by
  rw [Table.find?_eq_none_iff, keys_slots]
  exact absent

/-- Changing the entry in the middle changes its slot. -/
theorem put_slots
    (now : Timestamp)
    {before after : List PoolEntry}
    {entry changed : PoolEntry}
    (distinct : ((before ++ entry :: after).map idOf).Nodup)
    (sameId : idOf changed = idOf entry) :
    (slots now (before ++ entry :: after)).put (idOf entry) (changed, now) =
      slots now (before ++ changed :: after) := by
  induction before with
  | nil => simp [slots, Table.put, sameId]
  | cons first rest inductionHypothesis =>
      obtain ⟨firstNew, restDistinct⟩ := List.nodup_cons.mp distinct
      have different : idOf first ≠ idOf entry :=
        fun same => firstNew (by simp [same])
      have others := inductionHypothesis restDistinct
      unfold slots at others ⊢
      rw [List.cons_append, List.map_cons, Table.put, if_neg different, others]
      rfl

namespace Holds

variable {pool : Pool} {now : Timestamp} {token : TokenKey}
variable {queue before after : List PoolEntry}
variable {named : Option MessageId} {entry : PoolEntry} {id : MessageId}

theorem distinct (holds : pool.Holds now token queue named) :
    (queue.map idOf).Nodup := by
  rw [← keys_slots now]
  exact holds.shows.distinct

theorem size_eq (holds : pool.Holds now token queue named) :
    pool.size = queue.length := by
  unfold Pool.size
  rw [holds.shows.size_eq, slots, List.length_map]

theorem peek?_of_mem
    (holds : pool.Holds now token queue named)
    (member : entry ∈ queue) :
    pool.entries.peek? now (idOf entry) = some entry := by
  rw [holds.shows.peek?_eq, find?_slots_of_mem holds.distinct member]
  rfl

theorem mem_of_peek?
    (holds : pool.Holds now token queue named)
    (found : pool.entries.peek? now id = some entry) :
    entry ∈ queue := by
  rw [holds.shows.peek?_eq] at found
  obtain ⟨slot, kept, rfl⟩ := Option.map_eq_some_iff.mp found
  have isSlot := Table.mem_of_find? (Option.filter_eq_some_iff.mp kept).1
  obtain ⟨queued, member, slot_eq⟩ := List.mem_map.mp isSlot
  rw [← congrArg (fun pair => pair.2.1) slot_eq]
  exact member

/-- Nothing in an empty queue has a name. -/
theorem named_eq_none
    (holds : pool.Holds now token [] named) :
    named = none := by
  cases same : named with
  | none => rfl
  | some id => cases holds.named_mem id same

/-- Telemetry does not matter. -/
theorem with_delivery
    (holds : pool.Holds now token queue named)
    (delivery : Cache TokenKey Delivery) :
    { pool with delivery := delivery }.Holds now token queue named :=
  { holds with }

/-! ## Entries come and go -/

/--
A message is queued at the end while there is room, and names its
token if nothing does.
-/
theorem enqueue
    (holds : pool.Holds now token queue named)
    {message : Message}
    (key_eq : message.key = token)
    (spans : pool.config.Spans message)
    (new : message.id ∉ queue.map idOf)
    (room : queue.length < pool.config.capacity)
    (hooks : Hooks) :
    ∃ later, pool.enqueue now message hooks = (none, later) ∧
      later.config = pool.config ∧
      later.Holds now token (queue ++ [PoolEntry.create now message hooks])
        (named.or (some message.id)) := by
  have notReached :
      { capacity := some pool.config.capacity : Cache.Limits }.isReached
        (slots now queue).length = false := by
    simpa [Cache.Limits.isReached, slots] using room
  obtain ⟨entries, inserted, shows⟩ :=
    holds.shows.insert_of_absent (find?_slots_of_not_mem new) notReached now
      (PoolEntry.create now message hooks)
  have queued : slots now queue ++
      [(message.id, PoolEntry.create now message hooks, now)] =
      slots now (queue ++ [PoolEntry.create now message hooks]) := by
    unfold slots
    rw [List.map_append]
    rfl
  rw [queued] at shows
  have keyed : ∀ entry ∈ queue ++ [PoolEntry.create now message hooks],
      entry.message.key = token := by
    intro entry member
    rcases List.mem_append.mp member with before | isNew
    · exact holds.keyed entry before
    · rw [List.mem_singleton.mp isNew]
      exact key_eq
  have allSpan : ∀ entry ∈ queue ++ [PoolEntry.create now message hooks],
      pool.config.Spans entry.message := by
    intro entry member
    rcases List.mem_append.mp member with before | isNew
    · exact holds.spans entry before
    · rw [List.mem_singleton.mp isNew]
      exact spans
  refine ⟨{ pool with
    entries := entries }.mapIfAbsent message.key message.id, ?_, ?_, ?_⟩
  · unfold Pool.enqueue
    rw [inserted]
    rfl
  · unfold mapIfAbsent
    split <;> rfl
  · have index := holds.idOf?_eq
    unfold idOf? at index
    unfold mapIfAbsent
    dsimp only
    rw [key_eq, index]
    cases named with
    | some id =>
        refine ⟨shows, index, ?_, keyed, allSpan⟩
        intro other same
        rw [List.map_append]
        exact List.mem_append_left _ (holds.named_mem other same)
    | none =>
        refine ⟨shows, Table.find?_put_self token message.id _, ?_, keyed, allSpan⟩
        intro other same
        cases same
        rw [List.map_append]
        exact List.mem_append_right _ List.mem_cons_self

/-- What is queued is taken with its name. -/
theorem take_of_mem
    (holds : pool.Holds now token queue named)
    (member : entry ∈ queue) :
    ∃ later, pool.take (idOf entry) = (some entry, later) ∧
      later.config = pool.config ∧
      later.Holds now token (queue.filter fun other => idOf other ≠ idOf entry)
        (named.filter fun id => id ≠ idOf entry) := by
  have removed := holds.shows.remove (idOf entry)
  have handedBack := holds.shows.remove_fst (idOf entry)
  rw [erase_slots] at removed
  rw [find?_slots_of_mem holds.distinct member, Option.map_some] at handedBack
  have pair_eq : pool.entries.remove (idOf entry) =
      (some entry, (pool.entries.remove (idOf entry)).2) := by
    rw [← handedBack]
  have keyed : ∀ other ∈ queue.filter fun other => idOf other ≠ idOf entry,
      other.message.key = token :=
    fun other isKept => holds.keyed other (List.mem_of_mem_filter isKept)
  have spans : ∀ other ∈ queue.filter fun other => idOf other ≠ idOf entry,
      pool.config.Spans other.message :=
    fun other isKept => holds.spans other (List.mem_of_mem_filter isKept)
  have key_eq := holds.keyed entry member
  have index := holds.idOf?_eq
  unfold idOf? at index
  refine ⟨_, by unfold Pool.take; rw [pair_eq], ?_, ?_⟩
  · unfold unmap
    split <;> rfl
  · unfold unmap
    dsimp only
    rw [key_eq, index]
    split
    · next same =>
        rw [same, Option.filter_some, if_neg (by simp)]
        refine ⟨removed, ?_, by simp, keyed, spans⟩
        exact Table.find?_erase_self token _
    · next different =>
        rw [filter_ne_eq_self different]
        refine ⟨removed, index, ?_, keyed, spans⟩
        intro id same
        obtain ⟨other, isQueued, id_eq⟩ := List.mem_map.mp (holds.named_mem id same)
        refine List.mem_map.mpr ⟨other, List.mem_filter.mpr ⟨isQueued, ?_⟩, id_eq⟩
        simpa [id_eq, same] using different

/-- What is not queued is not missed. -/
theorem take_of_not_mem
    (holds : pool.Holds now token queue named)
    (absent : id ∉ queue.map idOf) :
    pool.take id = (none, pool) := by
  have handedBack := holds.shows.remove_fst id
  rw [find?_slots_of_not_mem absent, Option.map_none] at handedBack
  have pair_eq : pool.entries.remove id = (none, (pool.entries.remove id).2) := by
    rw [← handedBack]
  unfold Pool.take
  rw [pair_eq]

/-- A discarded identifier is neither queued nor a name. -/
theorem discard
    (holds : pool.Holds now token queue named)
    (id : MessageId) :
    (pool.discard id).config = pool.config ∧
      (pool.discard id).Holds now token (queue.filter fun entry => idOf entry ≠ id)
        (named.filter fun name => name ≠ id) := by
  unfold Pool.discard
  by_cases queued : id ∈ queue.map idOf
  · obtain ⟨entry, member, rfl⟩ := List.mem_map.mp queued
    obtain ⟨later, taken, config_eq, held⟩ := holds.take_of_mem member
    rw [taken]
    exact ⟨config_eq, held⟩
  · rw [holds.take_of_not_mem queued]
    refine ⟨rfl, ?_⟩
    have untouched : (queue.filter fun entry => idOf entry ≠ id) = queue := by
      refine List.filter_eq_self.mpr fun entry member => ?_
      have different : idOf entry ≠ id := fun same =>
        queued (same ▸ List.mem_map_of_mem member)
      simpa using different
    rw [untouched, filter_ne_eq_self fun same => queued (holds.named_mem id same)]
    exact holds

/-- An entry is changed in its place. -/
theorem adjust
    (holds : pool.Holds now token (before ++ entry :: after) named)
    {change : PoolEntry → PoolEntry}
    (keeps : (change entry).message = entry.message) :
    (pool.adjust now (idOf entry) change).Holds now token
      (before ++ change entry :: after)
      named := by
  have member : entry ∈ before ++ entry :: after := by simp
  have sameId : idOf (change entry) = idOf entry := congrArg Message.id keeps
  obtain ⟨entries, adjusted, shows⟩ :=
    holds.shows.adjust_of_live (find?_slots_of_mem holds.distinct member)
      (rfl : Cache.Limits.isStale
        { capacity := some pool.config.capacity } now now = false)
      change
  rw [put_slots now holds.distinct sameId] at shows
  unfold Pool.adjust
  rw [adjusted]
  refine ⟨shows, holds.idOf?_eq, ?_, ?_, ?_⟩
  · intro id same
    have inQueue := holds.named_mem id same
    simp only [List.map_append, List.map_cons, sameId] at inQueue ⊢
    exact inQueue
  · intro other isMember
    rcases List.mem_append.mp isMember with isBefore | isRest
    · exact holds.keyed other (List.mem_append_left _ isBefore)
    · rcases List.mem_cons.mp isRest with rfl | isAfter
      · exact (congrArg Message.key keeps).trans (holds.keyed entry member)
      · exact holds.keyed other (by simp [isAfter])
  · intro other isMember
    rcases List.mem_append.mp isMember with isBefore | isRest
    · exact holds.spans other (List.mem_append_left _ isBefore)
    · rcases List.mem_cons.mp isRest with rfl | isAfter
      · rw [keeps]
        exact holds.spans entry member
      · exact holds.spans other (by simp [isAfter])

/-- The exchange of an entry that is alone starts again. -/
theorem requeue_of_single
    (holds : pool.Holds now token [entry] named) :
    (pool.requeue now (idOf entry)).Holds now token [entry.restarted] named := by
  have alone := holds.shows
  change pool.entries.Shows _ [(idOf entry, entry, now)] at alone
  obtain ⟨entries, modified, shows⟩ :=
    alone.modify_of_single
      (rfl : Cache.Limits.isStale
        { capacity := some pool.config.capacity } now now = false)
      PoolEntry.restarted
  unfold Pool.requeue
  rw [modified]
  exact
    { shows := shows
      idOf?_eq := holds.idOf?_eq
      named_mem := holds.named_mem
      keyed :=
        List.forall_mem_singleton.mpr (holds.keyed entry List.mem_cons_self :)
      spans :=
        List.forall_mem_singleton.mpr (holds.spans entry List.mem_cons_self :) }

/-- A token that names nothing finds nothing. -/
theorem lookup?_of_none
    (holds : pool.Holds now token queue none) :
    pool.lookup? now token = none := by
  unfold Pool.lookup?
  rw [holds.idOf?_eq]
  rfl

/-- A token finds the message that it names. -/
theorem lookup?_of_named
    (holds : pool.Holds now token queue (some (idOf entry)))
    (member : entry ∈ queue) :
    pool.lookup? now token = some entry.message := by
  unfold Pool.lookup?
  rw [holds.idOf?_eq, Option.bind_some, holds.peek?_of_mem member]
  rfl

/-! ## Scans -/

/-- A scan finds nothing where every entry rests. -/
theorem scanEntries_of_resting
    (holds : pool.Holds now token queue named)
    {resting : List PoolEntry}
    (included : ∀ entry ∈ resting, entry ∈ queue)
    (rests : ∀ entry ∈ resting, entry.decision pool.config now = .rest)
    (others : List MessageId) :
    scanEntries now (resting.map idOf ++ others) pool =
      scanEntries now others pool := by
  induction resting with
  | nil => rfl
  | cons first rest inductionHypothesis =>
      have found := holds.peek?_of_mem (included first List.mem_cons_self)
      have decided := rests first List.mem_cons_self
      rw [List.map_cons, List.cons_append, scanEntries, found]
      dsimp only
      rw [decided]
      exact inductionHypothesis
        (fun entry member => included entry (List.mem_cons_of_mem _ member))
        fun entry member => rests entry (List.mem_cons_of_mem _ member)

theorem keys_eq (holds : pool.Holds now token queue named) :
    pool.entries.keys = queue.map idOf := by
  rw [holds.shows.keys_eq, keys_slots]

theorem scan_of_resting
    (holds : pool.Holds now token queue named)
    (rests : ∀ entry ∈ queue, entry.decision pool.config now = .rest) :
    pool.scan now = { picked := none, pool := pool } := by
  have scanned := holds.scanEntries_of_resting (fun _ member => member) rests []
  unfold Pool.scan
  rw [holds.keys_eq, ← List.append_nil (queue.map idOf), scanned]
  rfl

/-- Among entries whose periods are in range nothing goes wrong. -/
theorem scanFaults_eq (holds : pool.Holds now token queue named) :
    pool.scanFaults now = false := by
  refine List.any_eq_false.mpr fun entry isVisited => ?_
  obtain ⟨id, found⟩ := exists_peek?_of_visited isVisited
  rw [PoolEntry.faults_of_spans (holds.spans entry (holds.mem_of_peek? found))]
  exact Bool.false_ne_true

/-- A scan hands out the first entry that does not rest. -/
theorem scan_of_due
    (holds : pool.Holds now token (before ++ entry :: after) named)
    (rests : ∀ other ∈ before, other.decision pool.config now = .rest)
    (due : entry.decision pool.config now = .handOut) :
    ∃ later, pool.scan now = { picked := some entry.message, pool := later } ∧
      later.config = pool.config ∧
      later.Holds now token (before ++ entry.handedOut now :: after) named := by
  have member : entry ∈ before ++ entry :: after := by simp
  have scanned := holds.scanEntries_of_resting
    (fun other isBefore => List.mem_append_left _ isBefore) rests
    (idOf entry :: after.map idOf)
  have adjusted :
      (pool.adjust now (idOf entry) fun entry =>
        entry.handedOut now).Holds now token
        (before ++ entry.handedOut now :: after) named :=
    holds.adjust rfl
  refine ⟨(pool.adjust now (idOf entry) fun entry =>
    entry.handedOut now).countHandOut now entry, ?_, rfl, adjusted.with_delivery _⟩
  unfold Pool.scan
  rw [holds.keys_eq, List.map_append, List.map_cons, scanned, scanEntries,
    holds.peek?_of_mem member]
  dsimp only
  rw [due]

end Holds

end Pool

end Coap
