import Mathlib.Tactic.Common
import Coap.Proofs.Queue.Changes
import Coap.Proofs.Queue.Outcome
import Coap.Proofs.Queue.Schedule

namespace Coap

/-!
# One call for the next message

A call for the next message carries out part of what is to become of each
entry, and what is left of it is still to come. A call that hands out
nothing comes to every entry.
-/

namespace Pool

variable {pool : Pool} {now : Timestamp} {id : MessageId} {entry : PoolEntry}

/--
A scan that hands out nothing comes to every entry, and leaves
alone those that rest.
-/
theorem IsSound.rests_of_unpicked
    (sound : pool.IsSound)
    (keyed : pool.IsKeyed)
    (stores : pool.entries.Stores id entry)
    (now : Timestamp)
    {ids : List MessageId}
    (distinct : ids.Nodup)
    (member : id ∈ ids)
    (unpicked : (scanEntries now ids pool).picked = none)
    (kept : (scanEntries now ids pool).pool.entries.Stores id entry)
    (notLost : ∀ lost ∈ (scanEntries now ids pool).failures,
      lost.1.message.id ≠ id) :
    entry.decision pool.config now = .rest := by
  induction ids generalizing pool with
  | nil => cases member
  | cons first rest inductionHypothesis =>
      obtain ⟨isNew, restDistinct⟩ := List.nodup_cons.mp distinct
      revert unpicked kept notLost
      unfold scanEntries
      by_cases same : id = first
      · subst same
        rw [sound.peek?_eq_some_iff.mpr stores]
        dsimp only
        cases decided : entry.decision pool.config now with
        | rest => exact fun _ _ _ => rfl
        | giveUp reason =>
            intro _ _ notLost
            exact absurd (keyed id entry stores) (notLost _ List.mem_cons_self)
        | handOut =>
            intro isNone
            cases isNone
        | scheduleResend =>
            intro _ kept _
            have scheduled := pool.scheduleResend_thins now id
            have flipped := (sound.of_thins scheduled).stores_scanEntries
              (sound.stores_adjust_self stores now
                PoolEntry.resendScheduled) now isNew
            have flying := (PoolEntry.due_of_scheduleResend decided).2.2.2
            rw [kept.unique flipped] at flying
            cases flying
      · have inRest := (List.mem_cons.mp member).resolve_left same
        split
        · exact inductionHypothesis sound keyed stores restDistinct inRest
        · split
          · intro unpicked kept notLost
            have discarded := pool.discard_thins first
            have stays : (pool.discard first).entries.Stores id entry := by
              rw [discard_entries]
              exact Cache.stores_erase.mpr ⟨same, stores⟩
            have decided := inductionHypothesis (sound.of_thins discarded)
              (keyed.of_thins discarded) stays restDistinct inRest unpicked kept
              (List.forall_mem_cons.mp notLost).2
            rw [discarded.config_eq] at decided
            exact decided
          · exact inductionHypothesis sound keyed stores restDistinct inRest
          · intro isNone
            cases isNone
          · have scheduled := pool.scheduleResend_thins now first
            exact inductionHypothesis (sound.of_thins scheduled)
              (keyed.of_thins scheduled)
              (sound.stores_adjust_of_ne stores same now _) restDistinct inRest

/-- A scan finds nothing where every entry rests. -/
theorem scan_of_all_resting
    (rests : ∀ id entry, pool.entries.Stores id entry →
      entry.decision pool.config now = .rest) :
    pool.scan now =
      { picked := none
        pool := pool } := by
  have scanned (ids : List MessageId) :
      scanEntries now ids pool =
        { picked := none
          pool := pool } := by
    induction ids with
    | nil => rfl
    | cons first rest inductionHypothesis =>
        unfold scanEntries
        split
        · exact inductionHypothesis
        · next entry peeked =>
            rw [rests first entry (Cache.stores_of_peek? peeked)]
            exact inductionHypothesis
  exact scanned pool.entries.keys

end Pool

namespace Engine

variable {engine : Engine} {entry : PoolEntry} {id : MessageId}

theorem IsPlain.next
    (plain : engine.IsPlain) :
    engine.next.2.IsPlain :=
  plain.act .next

theorem IsPlain.config_next
    (plain : engine.IsPlain) :
    engine.next.2.pool.config = engine.pool.config :=
  plain.config_act .next

theorem IsPlain.now_next
    (plain : engine.IsPlain) :
    engine.next.2.now = engine.now :=
  (engine.next_windsDown plain.keyed).now_eq

/-! ## One call -/

/-- The messages with an identifier that a call for the next message hands out. -/
def outsOf
    (engine : Engine)
    (id : MessageId) :
    List Message :=
  engine.next.1.toList.filter fun message => message.id = id

/-- Why a call for the next message gives up what is queued under an identifier. -/
def reasonsOf
    (engine : Engine)
    (id : MessageId) :
    List FailureReason :=
  (engine.givenUp.filter fun lost => lost.1.message.id = id).map Prod.snd

/-- What a call for the next message does to one entry. -/
inductive Turn
    (engine : Engine)
    (id : MessageId)
    (entry : PoolEntry) :
    Prop where
  | leftAlone
      (stores : engine.next.2.pool.entries.Stores id entry)
      (outs : engine.outsOf id = [])
      (reasons : engine.reasonsOf id = [])
      (rests : engine.next.1 = none →
        entry.decision engine.pool.config engine.now = .rest)
  | givenUp
      (reason : FailureReason)
      (decided : entry.decision engine.pool.config engine.now = .giveUp reason)
      (gone : ∀ later, ¬ engine.next.2.pool.entries.Stores id later)
      (outs : engine.outsOf id = [])
      (reasons : engine.reasonsOf id = [reason])
  | handedOut
      (decided : entry.decision engine.pool.config engine.now = .handOut)
      (stores : engine.next.2.pool.entries.Stores id (entry.handedOut engine.now))
      (outs : engine.outsOf id = [entry.message])
      (reasons : engine.reasonsOf id = [])
  | resendScheduled
      (decided : entry.decision engine.pool.config engine.now = .scheduleResend)
      (stores : engine.next.2.pool.entries.Stores id entry.resendScheduled)
      (outs : engine.outsOf id = [])
      (reasons : engine.reasonsOf id = [])

theorem outsOf_eq_nil
    (notPicked : ∀ message, engine.next.1 = some message → message.id ≠ id) :
    engine.outsOf id = [] := by
  unfold outsOf
  refine List.filter_eq_nil_iff.mpr fun message picked => ?_
  simpa using notPicked message (Option.mem_toList.mp picked)

theorem reasonsOf_eq_nil
    (notLost : ∀ lost ∈ engine.givenUp, lost.1.message.id ≠ id) :
    engine.reasonsOf id = [] := by
  unfold reasonsOf
  rw [List.map_eq_nil_iff, List.filter_eq_nil_iff]
  exact fun lost member => by simpa using notLost lost member

/-- What a call gives up it gives up once, and it is gone then. -/
theorem IsPlain.reasonsOf_of_lost
    (plain : engine.IsPlain)
    {lost : PoolEntry × FailureReason}
    (member : lost ∈ engine.givenUp)
    (isId : lost.1.message.id = id) :
    engine.reasonsOf id = [lost.2] ∧ ∀ later,
      ¬ engine.next.2.pool.entries.Stores id later := by
  have isLoss : lost ∈ engine.losses .next := member
  constructor
  · obtain ⟨front, back, split, frontApart, backApart⟩ :=
      plain.exists_split_losses isLoss
    have none_of {side : List (PoolEntry × FailureReason)}
        (apart : ∀ other ∈ side, other.1.message.id ≠ lost.1.message.id) :
        (side.filter fun lost => lost.1.message.id = id) = [] := by
      rw [List.filter_eq_nil_iff, ← isId]
      exact fun other member => by simpa using apart other member
    change ((engine.losses .next).filter fun lost =>
      lost.1.message.id = id).map Prod.snd = [lost.2]
    rw [split, List.filter_append, none_of frontApart, List.filter_cons,
      if_pos (decide_eq_true isId), none_of backApart]
    rfl
  · intro later stores
    have laterId := plain.next.keyed id later stores
    have stillHeld := plain.next.sound.mem_held_iff.mpr ⟨id, later, stores, rfl⟩
    have arrives :=
      plain.mem_arriving_of_left (mem_leaving_of_loss isLoss) stillHeld
        (isId.trans laterId.symm)
    cases arrives

theorem IsPlain.turn
    (plain : engine.IsPlain)
    (stores : engine.pool.entries.Stores id entry) :
    engine.Turn id entry := by
  have entries_eq := plain.entries_next
  cases plain.sound.visit plain.keyed stores engine.now with
  | leftAlone stillStores notLost notPicked _ =>
      refine .leftAlone (entries_eq ▸ stillStores) (outsOf_eq_nil notPicked)
        (reasonsOf_eq_nil notLost) fun unpicked => ?_
      exact plain.sound.rests_of_unpicked plain.keyed stores engine.now
        plain.sound.ordered.keys_distinct
          (plain.sound.ordered.mem_keys_of_stores stores) unpicked
        stillStores notLost
  | givenUp reason decided lost notPicked _ =>
      obtain ⟨reasons, gone⟩ :=
        plain.reasonsOf_of_lost lost (plain.keyed id entry stores)
      exact .givenUp reason decided gone (outsOf_eq_nil notPicked) reasons
  | handedOut decided stillStores notLost picked _ =>
      refine .handedOut decided (entries_eq ▸ stillStores) ?_
        (reasonsOf_eq_nil notLost)
      unfold outsOf
      rw [show engine.next.1 = some entry.message from picked]
      simp [plain.keyed id entry stores]
  | resendScheduled decided stillStores notLost notPicked _ =>
      exact .resendScheduled decided (entries_eq ▸ stillStores)
        (outsOf_eq_nil notPicked) (reasonsOf_eq_nil notLost)

/-- What is handed out or given up was queued. -/
theorem IsPlain.turn_of_absent
    (plain : engine.IsPlain)
    (absent : ∀ entry, ¬ engine.pool.entries.Stores id entry) :
    engine.outsOf id = [] ∧ engine.reasonsOf id = [] ∧
      ∀ later, ¬ engine.next.2.pool.entries.Stores id later := by
  refine ⟨outsOf_eq_nil fun message picked isId => ?_,
    reasonsOf_eq_nil fun lost member isId => ?_, fun later stores => ?_⟩
  · obtain ⟨other, entry, stores, rfl⟩ :=
      Pool.stores_of_picked engine.now _ _ picked
    rw [plain.keyed other entry stores] at isId
    exact absent entry (isId ▸ stores)
  · obtain ⟨other, entry, stores, isLike⟩ :=
      Pool.stores_of_mem_failures engine.now _ _ member
    rw [isLike.1, plain.keyed other entry stores] at isId
    exact absent entry (isId ▸ stores)
  · obtain ⟨entry, before, _⟩ :=
      (engine.next_windsDown plain.keyed).pool.queued id later stores
    exact absent entry before

/-! ## What is owed -/

/--
What is to become of the entry under an identifier while the clock stands still.
-/
def owed
    (engine : Engine)
    (id : MessageId) :
    List Message × List FailureReason :=
  ((engine.pool.entries.peek? engine.now id).map fun entry =>
    entry.outcome engine.pool.config engine.now).getD ([], [])

theorem owed_of_absent
    (absent : ∀ entry, ¬ engine.pool.entries.Stores id entry) :
    engine.owed id = ([], []) := by
  unfold owed
  rw [Cache.peek?_of_absent absent]
  rfl

theorem IsPlain.owed_of_stores
    (plain : engine.IsPlain)
    (stores : engine.pool.entries.Stores id entry) :
    engine.owed id = entry.outcome engine.pool.config engine.now := by
  unfold owed
  rw [plain.sound.peek?_eq_some_iff.mpr stores]
  rfl

/-- A call carries out part of what is owed, and the rest is owed afterwards. -/
theorem IsPlain.owed_next
    (plain : engine.IsPlain)
    (takesTime : engine.pool.config.TakesTime)
    (id : MessageId) :
    engine.owed id =
      (engine.outsOf id ++ (engine.next.2.owed id).1,
        engine.reasonsOf id ++ (engine.next.2.owed id).2) := by
  have owed_later {later : PoolEntry}
      (stores : engine.next.2.pool.entries.Stores id later) :
      engine.next.2.owed id = later.outcome engine.pool.config engine.now := by
    rw [plain.next.owed_of_stores stores, plain.config_next, plain.now_next]
  by_cases queued : ∃ entry, engine.pool.entries.Stores id entry
  · obtain ⟨entry, stores⟩ := queued
    rw [plain.owed_of_stores stores]
    cases plain.turn stores with
    | leftAlone stillStores outs reasons _ =>
        rw [outs, reasons, owed_later stillStores]
        rfl
    | givenUp reason decided gone outs reasons =>
        rw [outs, reasons, owed_of_absent gone, PoolEntry.outcome_of_giveUp decided]
        rfl
    | handedOut decided stillStores outs reasons =>
        have rests := PoolEntry.decision_handedOut_now takesTime decided
        rw [outs, reasons, owed_later stillStores,
          PoolEntry.outcome_of_handOut decided, PoolEntry.outcome_of_rest rests]
        rfl
    | resendScheduled decided stillStores outs reasons =>
        rw [outs, reasons, owed_later stillStores,
          PoolEntry.outcome_resendScheduled decided]
        rfl
  · obtain ⟨outs, reasons, gone⟩ := plain.turn_of_absent (not_exists.mp queued)
    rw [outs, reasons, owed_of_absent (not_exists.mp queued), owed_of_absent gone]
    rfl

end Engine

end Coap
