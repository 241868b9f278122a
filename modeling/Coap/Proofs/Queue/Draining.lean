import Mathlib.Algebra.Order.BigOperators.Group.List
import Mathlib.Tactic.Common
import Coap.Proofs.Queue.Accounting
import Coap.Proofs.Queue.Operations
import Coap.Proofs.Queue.Turn

namespace Coap.Engine

/-!
# Asking until nothing is due

While the clock stands still, whoever asks for the next message again and again is
handed out all that is due, one message for each call, and then nothing any more. A
scan that comes to an overdue entry only schedules its resend, and one that finds a
message ends there, so that it takes two calls without a message to be sure that
nothing is left.

Entries that are not to be sent any more are not due, and only age removes them. A
call that comes to a message whose answer takes long lengthens the garbage period
for it, and goes wrong if that is out of range.
-/

variable {engine : Engine} {entry : PoolEntry} {id : MessageId}

/-! ## How long it takes -/

/-- Every queued message rests. -/
def IsAtRest (engine : Engine) : Prop :=
  ∀ id entry, engine.pool.entries.Stores id entry →
    entry.decision engine.pool.config engine.now = .rest

/-- Looking at the queued messages does not go wrong. -/
def IsInRange (engine : Engine) : Prop :=
  ∀ id entry, engine.pool.entries.Stores id entry →
    entry.faults engine.pool.config engine.now = false

/--
How many scans that come to the entry under an identifier it takes until it rests.
-/
def scansFor
    (engine : Engine)
    (id : MessageId) :
    Nat :=
  ((engine.pool.entries.peek? engine.now id).map fun entry =>
    (entry.decision engine.pool.config engine.now).scans).getD 0

theorem scansFor_of_absent
    (absent : ∀ entry, ¬ engine.pool.entries.Stores id entry) :
    engine.scansFor id = 0 := by
  unfold scansFor
  rw [Cache.peek?_of_absent absent]
  rfl

theorem IsPlain.scansFor_of_stores
    (plain : engine.IsPlain)
    (stores : engine.pool.entries.Stores id entry) :
    engine.scansFor id = (entry.decision engine.pool.config engine.now).scans := by
  unfold scansFor
  rw [plain.sound.peek?_eq_some_iff.mpr stores]
  rfl

theorem scansFor_le
    (engine : Engine)
    (id : MessageId) :
    engine.scansFor id ≤ 2 := by
  unfold scansFor
  cases engine.pool.entries.peek? engine.now id with
  | none => exact Nat.zero_le 2
  | some entry => exact RetryDecision.scans_le _

/-- A call that does something to an entry brings it closer to rest. -/
theorem IsPlain.scansFor_next
    (plain : engine.IsPlain)
    (takesTime : engine.pool.config.TakesTime)
    (stores : engine.pool.entries.Stores id entry) :
    engine.next.2.scansFor id < engine.scansFor id ∨
      engine.next.2.scansFor id = engine.scansFor id ∧ engine.outsOf id = [] ∧
        (engine.next.1 = none →
          entry.decision engine.pool.config engine.now = .rest) := by
  have scans_later {later : PoolEntry}
      (stores : engine.next.2.pool.entries.Stores id later) :
      engine.next.2.scansFor id =
        (later.decision engine.pool.config engine.now).scans := by
    rw [plain.next.scansFor_of_stores stores, plain.config_next, plain.now_next]
  rw [plain.scansFor_of_stores stores]
  cases plain.turn stores with
  | leftAlone stillStores outs _ rests =>
      exact .inr ⟨scans_later stillStores, outs, rests⟩
  | givenUp reason decided gone _ _ =>
      rw [decided, scansFor_of_absent gone]
      exact .inl Nat.one_pos
  | handedOut decided stillStores _ _ =>
      rw [decided, scans_later stillStores,
        PoolEntry.decision_handedOut_now takesTime decided]
      exact .inl Nat.one_pos
  | resendScheduled decided stillStores _ _ =>
      rw [decided, scans_later stillStores,
        PoolEntry.decision_resendScheduled decided]
      split
      · exact .inl Nat.one_lt_two
      · exact .inl Nat.one_lt_two

theorem IsPlain.scansFor_next_le
    (plain : engine.IsPlain)
    (takesTime : engine.pool.config.TakesTime)
    (id : MessageId) :
    engine.next.2.scansFor id ≤ engine.scansFor id := by
  by_cases queued : ∃ entry, engine.pool.entries.Stores id entry
  · obtain ⟨entry, stores⟩ := queued
    exact (plain.scansFor_next takesTime stores).elim Nat.le_of_lt
      fun same => same.1.le
  · have absent := not_exists.mp queued
    rw [scansFor_of_absent (plain.turn_of_absent absent).2.2]
    exact Nat.zero_le _

/-- Unless all rests, a call brings some entry closer to rest. -/
theorem IsPlain.exists_scansFor_next_lt
    (plain : engine.IsPlain)
    (takesTime : engine.pool.config.TakesTime)
    (restless : ¬ engine.IsAtRest) :
    ∃ id entry,
      engine.pool.entries.Stores id entry ∧
        engine.next.2.scansFor id < engine.scansFor id := by
  cases picked : engine.next.1 with
  | some message =>
      obtain ⟨id, entry, stores, rfl⟩ := Pool.stores_of_picked engine.now _ _ picked
      refine ⟨id, entry, stores,
        (plain.scansFor_next takesTime stores).resolve_right ?_⟩
      rintro ⟨_, outs, _⟩
      unfold outsOf at outs
      rw [picked] at outs
      simp [plain.keyed id entry stores] at outs
  | none =>
      simp only [IsAtRest, not_forall] at restless
      obtain ⟨id, entry, stores, acts⟩ := restless
      refine ⟨id, entry, stores,
        (plain.scansFor_next takesTime stores).resolve_right ?_⟩
      exact fun idle => acts (idle.2.2 picked)

theorem IsPlain.sum_scansFor_next_lt
    (plain : engine.IsPlain)
    (takesTime : engine.pool.config.TakesTime)
    (restless : ¬ engine.IsAtRest)
    {ids : List MessageId}
    (covered : ∀ id entry, engine.pool.entries.Stores id entry → id ∈ ids) :
    (ids.map engine.next.2.scansFor).sum < (ids.map engine.scansFor).sum := by
  obtain ⟨id, entry, stores, closer⟩ :=
    plain.exists_scansFor_next_lt takesTime restless
  exact List.sum_lt_sum _ _ (fun id _ => plain.scansFor_next_le takesTime id)
    ⟨id, covered id entry stores, closer⟩

/-- Where everything rests, nothing is owed. -/
theorem IsPlain.owed_of_rest
    (plain : engine.IsPlain)
    (rests : engine.IsAtRest) :
    engine.owed id = ([], []) := by
  by_cases queued : ∃ entry, engine.pool.entries.Stores id entry
  · obtain ⟨entry, stores⟩ := queued
    rw [plain.owed_of_stores stores]
    exact PoolEntry.outcome_of_rest (rests id entry stores)
  · exact owed_of_absent (not_exists.mp queued)

theorem IsInRange.scanFaults_eq
    (inRange : engine.IsInRange) :
    engine.pool.scanFaults engine.now = false := by
  refine List.any_eq_false.mpr fun entry isVisited => ?_
  obtain ⟨id, found⟩ := Pool.exists_peek?_of_visited isVisited
  rw [inRange id entry (Cache.stores_of_peek? found)]
  exact Bool.false_ne_true

/-- A call for the next message keeps what the range of a period depends on. -/
theorem IsPlain.inRange_next
    (plain : engine.IsPlain)
    (inRange : engine.IsInRange) :
    engine.next.2.IsInRange := by
  intro id later stores
  obtain ⟨entry, before, _⟩ :=
    (engine.next_windsDown plain.keyed).pool.queued id later stores
  rw [plain.config_next, plain.now_next]
  have kept := inRange id entry before
  cases plain.turn before with
  | leftAlone stillStores _ _ _ => exact stores.unique stillStores ▸ kept
  | givenUp _ _ gone _ _ => exact absurd stores (gone later)
  | handedOut _ stillStores _ _ => exact stores.unique stillStores ▸ kept
  | resendScheduled _ stillStores _ _ => exact stores.unique stillStores ▸ kept

/-- Where everything rests, a call finds nothing, and nobody is told anything. -/
theorem IsAtRest.next_eq
    (rests : engine.IsAtRest) :
    engine.next = (none, engine.afterScan) := by
  have scanned := Pool.scan_of_all_resting rests
  unfold next
  rw [scanned]
  rfl

/-- If nothing is out of range either, it changes nothing. -/
theorem IsAtRest.next_eq_self
    (rests : engine.IsAtRest)
    (inRange : engine.IsInRange) :
    engine.next = (none, engine) := by
  have scanned := Pool.scan_of_all_resting rests
  rw [rests.next_eq]
  unfold afterScan
  rw [scanned, inRange.scanFaults_eq, Bool.or_false]

/-- A call that finds nothing and changes nothing can be made again and again. -/
theorem nextMany_of_next_eq_self
    (unchanged : engine.next = (none, engine))
    (times : Nat) :
    engine.nextMany times = (List.replicate times none, engine) := by
  induction times with
  | zero => rfl
  | succ times inductionHypothesis =>
      unfold nextMany
      rw [unchanged]
      dsimp only
      rw [inductionHypothesis]
      rfl

theorem IsAtRest.nextMany_eq
    (rests : engine.IsAtRest)
    (inRange : engine.IsInRange)
    (times : Nat) :
    engine.nextMany times = (List.replicate times none, engine) :=
  nextMany_of_next_eq_self (rests.next_eq_self inRange) times

theorem IsAtRest.quiet
    (rests : engine.IsAtRest)
    (inRange : engine.IsInRange) :
    [none, none] <:+ (engine.nextMany 2).1 := by
  rw [rests.nextMany_eq inRange]
  exact List.suffix_refl _

/--
After a call that finds nothing, an entry rests, or its resend has
just been scheduled.
-/
theorem IsPlain.rests_or_scheduled
    (plain : engine.IsPlain)
    (unpicked : engine.next.1 = none)
    (stores : engine.next.2.pool.entries.Stores id entry) :
    entry.decision engine.pool.config engine.now = .rest ∨
      ∃ earlier,
        engine.pool.entries.Stores id earlier ∧
          earlier.decision engine.pool.config engine.now = .scheduleResend ∧
            entry = earlier.resendScheduled := by
  obtain ⟨earlier, earlierStores, _⟩ :=
    (engine.next_windsDown plain.keyed).pool.queued id entry stores
  cases plain.turn earlierStores with
  | leftAlone stillStores _ _ rests =>
      rw [stores.unique stillStores]
      exact .inl (rests unpicked)
  | givenUp _ _ gone _ _ => exact absurd stores (gone entry)
  | handedOut _ _ outs _ =>
      unfold outsOf at outs
      rw [unpicked] at outs
      cases outs
  | resendScheduled decided stillStores _ _ =>
      exact .inr ⟨earlier, earlierStores, decided, stores.unique stillStores⟩

/-- Two calls in a row that find nothing leave every entry at rest. -/
theorem IsPlain.isAtRest_of_two
    (plain : engine.IsPlain)
    (first : engine.next.1 = none)
    (second : engine.next.2.next.1 = none) :
    engine.next.2.next.2.IsAtRest := by
  intro id entry stores
  rw [plain.next.config_next, plain.next.now_next]
  rcases plain.next.rests_or_scheduled second stores with
      rests | ⟨earlier, earlierStores, decided, _⟩
  · exact rests
  · -- its resend would have been scheduled by the first call, so not by the second
    have flying := (PoolEntry.due_of_scheduleResend decided).2.2.2
    rw [plain.config_next, plain.now_next] at decided
    rcases plain.rests_or_scheduled first earlierStores with rests | ⟨_, _, _, rfl⟩
    · rw [rests] at decided
      cases decided
    · cases flying

/-! ## Many calls -/

/-- The entries that so many calls for the next message give up, and why. -/
def lostIn :
    Nat →
    Engine →
    List (PoolEntry × FailureReason)
  | 0, _ => []
  | times + 1, engine => engine.givenUp ++ lostIn times engine.next.2

/-- The messages with an identifier among the answers of some calls. -/
def outsAmong
    (id : MessageId)
    (answers : List (Option Message)) :
    List Message :=
  answers.flatMap fun answer => answer.toList.filter fun message => message.id = id

/-- Why what was queued under an identifier is among what was given up. -/
def reasonsAmong
    (id : MessageId)
    (lost : List (PoolEntry × FailureReason)) :
    List FailureReason :=
  (lost.filter fun lost => lost.1.message.id = id).map Prod.snd

theorem reasonsAmong_succ
    (id : MessageId)
    (times : Nat)
    (engine : Engine) :
    reasonsAmong id (lostIn (times + 1) engine) =
      engine.reasonsOf id ++ reasonsAmong id (lostIn times engine.next.2) := by
  simp only [reasonsAmong, reasonsOf, lostIn, List.filter_append, List.map_append]

theorem nextMany_succ
    (engine : Engine)
    (times : Nat) :
    engine.nextMany (times + 1) =
      (engine.next.1 :: (engine.next.2.nextMany times).1,
        (engine.next.2.nextMany times).2) :=
  rfl

theorem length_nextMany
    (engine : Engine)
    (times : Nat) :
    (engine.nextMany times).1.length = times := by
  induction times generalizing engine with
  | zero => rfl
  | succ times inductionHypothesis =>
      rw [nextMany_succ, List.length_cons, inductionHypothesis]

/-- Calls for the next message are a run of the queue. -/
theorem nextMany_eq_actAll
    (engine : Engine)
    (times : Nat) :
    (engine.nextMany times).2 = engine.actAll (List.replicate times .next) := by
  induction times generalizing engine with
  | zero => rfl
  | succ times inductionHypothesis => exact inductionHypothesis engine.next.2

/-- Calls carry out part of what is owed, and the rest is owed afterwards. -/
theorem IsPlain.owed_nextMany
    (plain : engine.IsPlain)
    (takesTime : engine.pool.config.TakesTime)
    (times : Nat)
    (id : MessageId) :
    engine.owed id =
      (outsAmong id (engine.nextMany times).1 ++
        ((engine.nextMany times).2.owed id).1,
        reasonsAmong id (lostIn times engine) ++
          ((engine.nextMany times).2.owed id).2) := by
  induction times generalizing engine with
  | zero => rfl
  | succ times inductionHypothesis =>
      have later := inductionHypothesis plain.next (plain.config_next ▸ takesTime)
      rw [plain.owed_next takesTime id, later, nextMany_succ, reasonsAmong_succ]
      simp only [outsAmong, outsOf, List.flatMap_cons, List.append_assoc]

theorem IsPlain.inRange_nextMany
    (plain : engine.IsPlain)
    (inRange : engine.IsInRange)
    (times : Nat) :
    (engine.nextMany times).2.IsInRange := by
  induction times generalizing engine with
  | zero => exact inRange
  | succ times inductionHypothesis =>
      rw [nextMany_succ]
      exact inductionHypothesis plain.next (plain.inRange_next inRange)

/-- Where nothing is out of range, no call goes wrong. -/
theorem IsPlain.faulted_nextMany
    (plain : engine.IsPlain)
    (inRange : engine.IsInRange)
    (times : Nat) :
    (engine.nextMany times).2.faulted = engine.faulted := by
  induction times generalizing engine with
  | zero => rfl
  | succ times inductionHypothesis =>
      have later := inductionHypothesis plain.next (plain.inRange_next inRange)
      rw [nextMany_succ]
      dsimp only
      rw [later, plain.faulted_next, inRange.scanFaults_eq, Bool.or_false]

/-- Calls that end with two that find nothing leave every entry at rest. -/
theorem IsPlain.isAtRest_nextMany
    (plain : engine.IsPlain)
    {times : Nat}
    (quiet : [none, none] <:+ (engine.nextMany times).1) :
    (engine.nextMany times).2.IsAtRest := by
  induction times generalizing engine with
  | zero =>
      obtain ⟨_, appended⟩ := quiet
      simp [nextMany] at appended
  | succ times inductionHypothesis =>
      rw [nextMany_succ] at quiet ⊢
      rcases List.suffix_cons_iff.mp quiet with whole | inRest
      · obtain ⟨first, rest⟩ := List.cons.inj whole
        have isOne : times = 1 := by
          rw [← engine.next.2.length_nextMany times, ← rest]
          rfl
        subst isOne
        rw [nextMany_succ] at rest ⊢
        exact plain.isAtRest_of_two first.symm (List.cons.inj rest).1.symm
      · exact inductionHypothesis plain.next inRest

/--
After as many calls as the entries have steps to make, and two
more, nothing is left.
-/
theorem IsPlain.exists_quiet
    (plain : engine.IsPlain)
    (takesTime : engine.pool.config.TakesTime)
    (inRange : engine.IsInRange)
    {ids : List MessageId}
    (covered : ∀ id entry, engine.pool.entries.Stores id entry → id ∈ ids)
    {bound : Nat}
    (few : (ids.map engine.scansFor).sum ≤ bound) :
    ∃ times ≤ bound + 2, [none, none] <:+ (engine.nextMany times).1 := by
  induction bound generalizing engine with
  | zero =>
      by_cases rests : engine.IsAtRest
      · exact ⟨2, Nat.le_refl 2, rests.quiet inRange⟩
      · have fewer := plain.sum_scansFor_next_lt takesTime rests covered
        omega
  | succ bound inductionHypothesis =>
      by_cases rests : engine.IsAtRest
      · exact ⟨2, Nat.le_add_left 2 _, rests.quiet inRange⟩
      · have fewer := plain.sum_scansFor_next_lt takesTime rests covered
        have stillCovered : ∀ id entry,
            engine.next.2.pool.entries.Stores id entry → id ∈ ids := by
          intro id entry stores
          obtain ⟨earlier, before, _⟩ :=
            (engine.next_windsDown plain.keyed).pool.queued id entry stores
          exact covered id earlier before
        obtain ⟨times, soon, quiet⟩ := inductionHypothesis plain.next
          (plain.config_next ▸ takesTime)
            (plain.inRange_next inRange) stillCovered (by omega)
        exact ⟨times + 1, by omega, List.suffix_cons_iff.mpr (.inr quiet)⟩

/-- Each entry takes two steps at most. -/
theorem sum_scansFor_le
    (engine : Engine)
    (ids : List MessageId) :
    (ids.map engine.scansFor).sum ≤ 2 * ids.length := by
  induction ids with
  | nil => exact Nat.le_refl 0
  | cons first rest inductionHypothesis =>
      have bounded := engine.scansFor_le first
      simp only [List.map_cons, List.sum_cons, List.length_cons]
      omega

theorem IsPlain.length_keys
    (plain : engine.IsPlain) :
    engine.pool.entries.keys.length = engine.pool.size := by
  rw [← plain.sound.ordered.keys_perm.length_eq]
  exact List.length_map _

/-! ## Who hears of it -/

theorem IsPlain.reasonsAmong_of_absent
    (plain : engine.IsPlain)
    (absent : ∀ entry, ¬ engine.pool.entries.Stores id entry)
    (times : Nat) :
    reasonsAmong id (lostIn times engine) = [] := by
  induction times generalizing engine with
  | zero => rfl
  | succ times inductionHypothesis =>
      obtain ⟨_, reasons, gone⟩ := plain.turn_of_absent absent
      have later := inductionHypothesis plain.next gone
      rw [reasonsAmong_succ, reasons, later]
      rfl

/-- Why an entry is given up is how it leaves. -/
theorem IsPlain.reasonsAmong_eq
    (plain : engine.IsPlain)
    (id : MessageId)
    (times : Nat) :
    reasonsAmong id (lostIn times engine) =
      (engine.departure? id (List.replicate times .next)).elim
        [] Departure.reasons := by
  induction times generalizing engine with
  | zero => rfl
  | succ times inductionHypothesis =>
      rw [reasonsAmong_succ, List.replicate_succ]
      rcases engine.departure?_cons id .next (List.replicate times .next) with
          ⟨left, member, isId, leaves⟩ | ⟨stays, later⟩
      · obtain ⟨lost, isLost, rfl⟩ := List.mem_map.mp member
        obtain ⟨reasons, gone⟩ := plain.reasonsOf_of_lost isLost isId
        rw [leaves, reasons, plain.next.reasonsAmong_of_absent gone]
        rfl
      · have notLost : ∀ lost ∈ engine.givenUp, lost.1.message.id ≠ id :=
          fun lost isLost =>
            stays _ (@mem_leaving_of_loss engine .next lost isLost)
        rw [later, reasonsOf_eq_nil notLost, List.nil_append]
        exact inductionHypothesis plain.next

/-- A handler that an entry has to itself is told why the entry is given up. -/
theorem IsPlain.failuresTold_nextMany
    (plain : engine.IsPlain)
    (stores : engine.pool.entries.Stores id entry)
    {handler : ResponseHandler}
    (waits : entry.hooks.response = some handler)
    (isOpen : ¬ engine.HasClaimed handler)
    (others : ∀ other stored,
      engine.pool.entries.Stores other stored → other ≠ id →
        stored.hooks.Spare handler)
    (times : Nat) :
    (engine.nextMany times).2.failuresTold handler.who =
      engine.failuresTold handler.who ++ reasonsAmong id (lostIn times engine) := by
  have isId := plain.keyed id entry stores
  have isHeld : entry.asQueued ∈ engine.pool.held :=
    plain.sound.mem_held_iff.mpr ⟨id, entry, stores, rfl⟩
  have othersHeld : ∀ other ∈ engine.pool.held,
      other.message.id ≠ entry.asQueued.message.id → other.hooks.Spare handler := by
    intro other otherHeld different
    obtain ⟨otherId, stored, otherStores, rfl⟩ :=
      plain.sound.mem_held_iff.mp otherHeld
    refine others otherId stored otherStores ?_
    rintro rfl
    exact different ((plain.keyed otherId stored otherStores).trans isId.symm)
  have spares : ∀ action ∈ List.replicate times QueueAction.next,
      action.Spares handler := by
    intro action member message hooks isEnqueue
    rw [List.eq_of_mem_replicate member] at isEnqueue
    cases isEnqueue
  have told := plain.actAll_tells isHeld waits isOpen othersHeld spares
  rw [nextMany_eq_actAll, told, plain.reasonsAmong_eq, ← isId]
  rfl

/--
While the clock stands still, calls for the next message come to two in a row that
find nothing, and none of them goes wrong. Until then every message that is due has
been handed out once if it has attempts left, and been given up once if not; what
has expired, or waited too long for its acknowledgement and is still to be sent, has
been given up once; and nothing else has been handed out or given up. A handler that
a message has to itself has been told so. From then on every call finds nothing and
changes nothing.

If a queued message's answer takes long and it has not expired, five times the
garbage period is to be in range.
-/
theorem polling_drains_what_is_due
    (poolConfig : PoolConfig)
    (arqConfig : ArqConfig)
    (nextId : MessageId)
    (actions : List PoolAction)
    (takesTime : poolConfig.TakesTime) :
    let engine := (create poolConfig arqConfig nextId).operateAll actions
    (∀ id entry, engine.pool.entries.Stores id entry →
      entry.isExpired poolConfig engine.now = false →
        poolConfig.Spans entry.message) →
    (∃ times ≤ 2 * engine.pool.size + 2,
      [none, none] <:+ (engine.nextMany times).1) ∧
    (∀ times, (engine.nextMany times).2.faulted = engine.faulted) ∧
    ∀ times, [none, none] <:+ (engine.nextMany times).1 →
      let outs := fun id => outsAmong id (engine.nextMany times).1
      let reasons := fun id => reasonsAmong id (lostIn times engine)
      let final := (engine.nextMany times).2
      (∀ id entry, engine.pool.entries.Stores id entry →
        (outs id, reasons id) = entry.outcome poolConfig engine.now ∧
        ∀ handler, entry.hooks.response = some handler →
          ¬ engine.HasClaimed handler →
          (∀ other stored, engine.pool.entries.Stores other stored →
            other ≠ id → stored.hooks.Spare handler) →
          final.failuresTold handler.who =
            engine.failuresTold handler.who ++
              (entry.outcome poolConfig engine.now).2) ∧
      (∀ id, (∀ entry, ¬ engine.pool.entries.Stores id entry) →
        outs id = [] ∧ reasons id = []) ∧
      ∀ more, final.nextMany more = (List.replicate more none, final) := by
  intro engine spans
  have plain : engine.IsPlain :=
    (isPlain_create poolConfig arqConfig nextId).operateAll actions
  have config_eq : engine.pool.config = poolConfig :=
    (isPlain_create poolConfig arqConfig nextId).config_operateAll actions
  have takesTimeNow : engine.pool.config.TakesTime := config_eq ▸ takesTime
  have inRange : engine.IsInRange := by
    intro id entry stores
    rw [config_eq]
    exact PoolEntry.faults_of_unexpired (spans id entry stores)
  refine ⟨?_, plain.faulted_nextMany inRange, ?_⟩
  · have bounded := engine.sum_scansFor_le engine.pool.entries.keys
    rw [plain.length_keys] at bounded
    exact plain.exists_quiet takesTimeNow inRange
      (fun id entry stores => plain.sound.ordered.mem_keys_of_stores stores) bounded
  · intro times quiet outs reasons final
    have rests : final.IsAtRest := plain.isAtRest_nextMany quiet
    have plainFinal : final.IsPlain := by
      have run : final = engine.actAll (List.replicate times .next) :=
        engine.nextMany_eq_actAll times
      rw [run]
      exact plain.actAll _
    have settled (id : MessageId) : engine.owed id = (outs id, reasons id) := by
      have owed := plain.owed_nextMany takesTimeNow times id
      rw [plainFinal.owed_of_rest rests, List.append_nil, List.append_nil] at owed
      exact owed
    refine ⟨fun id entry stores => ?_, fun id absent => ?_,
      rests.nextMany_eq (plain.inRange_nextMany inRange times)⟩
    · have outcome_eq :
          (outs id, reasons id) = entry.outcome poolConfig engine.now := by
        rw [← settled, plain.owed_of_stores stores, config_eq]
      refine ⟨outcome_eq, fun handler waits isOpen others => ?_⟩
      rw [← outcome_eq]
      exact plain.failuresTold_nextMany stores waits isOpen others times
    · have nothing := settled id
      rw [owed_of_absent absent] at nothing
      exact ⟨(Prod.mk.inj nothing).1.symm, (Prod.mk.inj nothing).2.symm⟩

/--
Of two messages, the one that has used up its only attempt is
given up, the other one sent.
-/
theorem polling_drains_what_is_due_two_messages :
    let first : Message :=
      { id := 7, kind := .confirmable, code := .get, token := some ⟨[7]⟩ }
    let second : Message :=
      { id := 8, kind := .confirmable, code := .get, token := some ⟨[8]⟩ }
    let asker : ResponseHandler := { who := .observer "asker" }
    let actions :=
      [PoolAction.queue (.enqueue first { response := some asker }), .queue .next,
        .queue (.advance (Nanos.ofMillis 750)), .queue (.enqueue second {})]
    let engine := (create { maxAttempts := 1 } {} 100).operateAll actions
    (engine.nextMany 3).1 = [some second, none, none] ∧
      outsAmong 8 (engine.nextMany 3).1 = [second] ∧
      reasonsAmong 7 (lostIn 3 engine) = [.tooManyAttempts] ∧
      (engine.nextMany 3).2.nextMany 5 =
        (List.replicate 5 none, (engine.nextMany 3).2) := by
  intro first second asker actions engine
  have answers : (engine.nextMany 3).1 = [some second, none, none] := by decide
  obtain ⟨_, _, drains⟩ :=
    polling_drains_what_is_due { maxAttempts := 1 } {} 100 actions
      ⟨by decide, by decide, by decide⟩ fun _ _ _ _ _ => by decide
  obtain ⟨settles, _, rests⟩ := drains 3 ⟨[some second], answers.symm⟩
  have outs := (settles 8 _ ⟨_, rfl, rfl⟩).1
  have reasons := (settles 7 _ ⟨_, rfl, rfl⟩).1
  exact ⟨answers, (Prod.mk.inj outs).1, (Prod.mk.inj reasons).2, rests 5⟩

/--
With the longest garbage period there is, the first call goes wrong where the answer
to a queued message takes long. And a message that is not to be sent any more is
neither given up nor handed out once its garbage period is over.
-/
theorem polling_may_go_wrong_and_leaves_suppressed_garbage :
    let slow : Message :=
      { id := 7, kind := .confirmable, code := .get, token := some ⟨[7]⟩,
        longResponse := true }
    let plain : Message := { slow with longResponse := false }
    let endless : PoolConfig := { garbagePeriod := Nanos.limit }
    let patient := (create endless {} 100).operateAll [.queue (.enqueue slow {})]
    let silenced := (create {} {} 100).operateAll
      [.queue (.enqueue plain {}), .queue .next, .queue (.suppress plain),
        .queue (.advance (Nanos.ofSecs 25))]
    (endless.TakesTime ∧ patient.faulted = false ∧ patient.next.2.faulted = true) ∧
      (∃ entry, silenced.pool.entries.peek? silenced.now 7 = some entry ∧
        entry.sentLongAgo silenced.now ({} : PoolConfig).garbagePeriod = true) ∧
      ∀ times, silenced.nextMany times = (List.replicate times none, silenced) := by
  intro slow plain endless patient silenced
  have unchanged : silenced.next = (none, silenced) := by decide
  exact ⟨⟨⟨by decide, by decide, by decide⟩, by decide, by decide⟩,
    ⟨_, rfl, by decide⟩, nextMany_of_next_eq_self unchanged⟩

end Coap.Engine
