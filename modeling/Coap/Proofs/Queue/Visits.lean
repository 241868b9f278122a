import Mathlib.Tactic.Common
import Coap.Proofs.Engine.Operations
import Coap.Proofs.Pool.Holdings
import Coap.Proofs.Queue.Rules

namespace Coap

/-!
# What a scan does to one entry

A scan that comes to an entry decides about it by the rules and does what they say;
if it ends before, it leaves the entry alone. Other entries do not matter for that:
each identifier stands once among the keys that a scan walks along.
-/

/--
How often a listener is told of a resend when the hooks of some entries are called.
-/
def resendsTo
    (who : Listener)
    (hooks : List Hooks) :
    Nat :=
  hooks.countP fun hooks => decide (hooks.onResend = some (.listener who))

theorem resendsTo_cons
    (who : Listener)
    (first : Hooks)
    (rest : List Hooks) :
    resendsTo who (first :: rest) = resendsTo who [first] + resendsTo who rest := by
  unfold resendsTo
  rw [List.countP_cons, List.countP_singleton, Nat.add_comm]

namespace Pool

variable {pool : Pool} {now : Timestamp} {id other : MessageId} {entry : PoolEntry}

/-- No entry under another identifier tells `who` of its resends. -/
def TellsAlone
    (pool : Pool)
    (id : MessageId)
    (who : Listener) :
    Prop :=
  ∀ other entry, pool.entries.Stores other entry → other ≠ id →
    entry.hooks.onResend ≠ some (.listener who)

theorem TellsAlone.of_thins
    {gone : MessageId → Prop}
    {later : Pool}
    {who : Listener}
    (alone : pool.TellsAlone id who)
    (thins : Thins gone pool later) :
    later.TellsAlone id who := by
  intro other entry stores different
  obtain ⟨earlier, earlierStores, isLike⟩ := thins.queued other entry stores
  rw [isLike.2]
  exact alone other earlier earlierStores different

/-- Nobody else tells `who` of the resends of an entry. -/
theorem TellsAlone.resendsTo_eq_zero
    {who : Listener}
    (alone : pool.TellsAlone id who)
    (stores : pool.entries.Stores other entry)
    (different : other ≠ id) :
    resendsTo who [entry.hooks] = 0 := by
  simp [resendsTo, alone other entry stores different]

/-- What became of an entry in a scan that was made at `now`. -/
inductive Visit
    (pool : Pool)
    (now : Timestamp)
    (id : MessageId)
    (entry : PoolEntry)
    (scan : PoolScan) :
    Prop where
  | leftAlone
      (stores : scan.pool.entries.Stores id entry)
      (notLost : ∀ lost ∈ scan.failures, lost.1.message.id ≠ id)
      (notPicked : ∀ message, scan.picked = some message → message.id ≠ id)
      (resends : ∀ who, pool.TellsAlone id who → resendsTo who scan.resends = 0)
  | givenUp
      (reason : FailureReason)
      (decided : entry.decision pool.config now = .giveUp reason)
      (lost : (entry, reason) ∈ scan.failures)
      (notPicked : ∀ message, scan.picked = some message → message.id ≠ id)
      (resends : ∀ who, pool.TellsAlone id who → resendsTo who scan.resends = 0)
  | handedOut
      (decided : entry.decision pool.config now = .handOut)
      (stores : scan.pool.entries.Stores id (entry.handedOut now))
      (notLost : ∀ lost ∈ scan.failures, lost.1.message.id ≠ id)
      (picked : scan.picked = some entry.message)
      (resends : ∀ who, pool.TellsAlone id who → resendsTo who scan.resends = 0)
  | resendScheduled
      (decided : entry.decision pool.config now = .scheduleResend)
      (stores : scan.pool.entries.Stores id entry.resendScheduled)
      (notLost : ∀ lost ∈ scan.failures, lost.1.message.id ≠ id)
      (notPicked : ∀ message, scan.picked = some message → message.id ≠ id)
      (resends : ∀ who, pool.TellsAlone id who →
        resendsTo who scan.resends = resendsTo who [entry.hooks])

/--
The entries that a scan gives up or hands out are among those that it walks along.
-/
theorem mem_of_scanEntries
    (keyed : pool.IsKeyed)
    (now : Timestamp)
    (ids : List MessageId) :
    (∀ lost ∈ (scanEntries now ids pool).failures, lost.1.message.id ∈ ids) ∧
      ∀ message, (scanEntries now ids pool).picked = some message →
        message.id ∈ ids := by
  induction ids generalizing pool with
  | nil => exact ⟨by simp [scanEntries], by simp [scanEntries]⟩
  | cons first rest inductionHypothesis =>
      have of_rest {later : Pool} (keyed : later.IsKeyed) :
          (∀ lost ∈ (scanEntries now rest later).failures,
            lost.1.message.id ∈ first :: rest) ∧
            ∀ message, (scanEntries now rest later).picked = some message →
              message.id ∈ first :: rest :=
        ⟨fun lost member =>
          List.mem_cons_of_mem _ ((inductionHypothesis keyed).1 lost member),
          fun message picked =>
            List.mem_cons_of_mem _ ((inductionHypothesis keyed).2 message picked)⟩
      unfold scanEntries
      split
      · exact of_rest keyed
      · next entry peeked =>
          have id_eq := keyed first entry (Cache.stores_of_peek? peeked)
          split
          · have others := of_rest (keyed.of_thins (pool.discard_thins first))
            exact ⟨List.forall_mem_cons.mpr
              ⟨List.mem_cons.mpr (.inl id_eq), others.1⟩, others.2⟩
          · exact of_rest keyed
          · refine ⟨by simp, ?_⟩
            rintro message ⟨⟩
            exact List.mem_cons.mpr (.inl id_eq)
          · have scheduled := pool.scheduleResend_thins now first
            exact of_rest (keyed.of_thins scheduled)

/-- A scan gives up what the rules say is to be given up. -/
theorem decision_of_mem_failures
    (now : Timestamp)
    (ids : List MessageId)
    {lost : PoolEntry × FailureReason}
    (member : lost ∈ (scanEntries now ids pool).failures) :
    ∃ config, lost.1.decision config now = .giveUp lost.2 := by
  induction ids generalizing pool with
  | nil => cases member
  | cons first rest inductionHypothesis =>
      unfold scanEntries at member
      split at member
      · exact inductionHypothesis member
      · next entry _ =>
          split at member
          · next reason decided =>
              rcases List.mem_cons.mp member with rfl | inRest
              · exact ⟨pool.config, decided⟩
              · exact inductionHypothesis inRest
          · exact inductionHypothesis member
          · cases member
          · exact inductionHypothesis member

/-- Nobody is told of resends by entries that a scan does not come to. -/
theorem resendsTo_scanEntries
    {who : Listener}
    (now : Timestamp)
    {ids : List MessageId}
    (strangers : ∀ other ∈ ids, ∀ entry, pool.entries.Stores other entry →
      entry.hooks.onResend ≠ some (.listener who)) :
    resendsTo who (scanEntries now ids pool).resends = 0 := by
  induction ids generalizing pool with
  | nil => rfl
  | cons first rest inductionHypothesis =>
      have of_rest {gone : MessageId → Prop} {later : Pool}
          (thins : Thins gone pool later) :
          resendsTo who (scanEntries now rest later).resends = 0 := by
        refine inductionHypothesis fun other member entry stores => ?_
        obtain ⟨earlier, earlierStores, isLike⟩ := thins.queued other entry stores
        rw [isLike.2]
        exact strangers other (List.mem_cons_of_mem _ member) earlier earlierStores
      have unchanged : Thins (fun _ => False) pool pool := .refl pool
      unfold scanEntries
      split
      · exact of_rest unchanged
      · next entry peeked =>
          split
          · exact of_rest (pool.discard_thins first)
          · exact of_rest unchanged
          · rfl
          · have scheduled := pool.scheduleResend_thins now first
            have stranger := strangers first List.mem_cons_self entry
              (Cache.stores_of_peek? peeked)
            rw [resendsTo_cons, of_rest scheduled]
            simp [resendsTo, stranger]

theorem TellsAlone.resendsTo_scanEntries
    {who : Listener}
    (alone : pool.TellsAlone id who)
    (now : Timestamp)
    {ids : List MessageId}
    (absent : id ∉ ids) :
    resendsTo who (scanEntries now ids pool).resends = 0 := by
  refine Pool.resendsTo_scanEntries now fun other member entry stores => ?_
  exact alone other entry stores fun same => absent (same ▸ member)

/-- A scan keeps an entry as it is if it does not come to it. -/
theorem IsSound.stores_scanEntries
    (sound : pool.IsSound)
    (stores : pool.entries.Stores id entry)
    (now : Timestamp)
    {ids : List MessageId}
    (absent : id ∉ ids) :
    (scanEntries now ids pool).pool.entries.Stores id entry := by
  induction ids generalizing pool with
  | nil => exact stores
  | cons first rest inductionHypothesis =>
      obtain ⟨different, absentRest⟩ := not_or.mp (List.mem_cons.not.mp absent)
      unfold scanEntries
      split
      · exact inductionHypothesis sound stores absentRest
      · split
        · refine inductionHypothesis
            (sound.of_thins (pool.discard_thins first)) ?_ absentRest
          rw [discard_entries]
          exact Cache.stores_erase.mpr ⟨different, stores⟩
        · exact inductionHypothesis sound stores absentRest
        · exact sound.stores_adjust_of_ne stores different now _
        · have scheduled := pool.scheduleResend_thins now first
          exact inductionHypothesis (sound.of_thins scheduled)
            (sound.stores_adjust_of_ne stores different now _) absentRest

/-- An entry that a scan does not come to is left alone. -/
theorem visit_of_not_mem
    (sound : pool.IsSound)
    (keyed : pool.IsKeyed)
    (stores : pool.entries.Stores id entry)
    (now : Timestamp)
    {ids : List MessageId}
    (absent : id ∉ ids) :
    pool.Visit now id entry (scanEntries now ids pool) := by
  obtain ⟨lostIds, pickedIds⟩ := mem_of_scanEntries keyed now ids
  exact .leftAlone (sound.stores_scanEntries stores now absent)
    (fun lost member same => absent (same ▸ lostIds lost member))
    (fun message picked same => absent (same ▸ pickedIds message picked))
    fun who alone => alone.resendsTo_scanEntries now absent

/-- What a scan does elsewhere before it comes to an entry does not matter. -/
theorem Visit.of_later
    {gone : MessageId → Prop}
    {later : Pool}
    {scan : PoolScan}
    (visit : later.Visit now id entry scan)
    (thins : Thins gone pool later)
    {failures : List (PoolEntry × FailureReason)}
    (lostElsewhere : ∀ lost ∈ failures, lost.1.message.id ≠ id)
    {resends : List Hooks}
    (toldElsewhere : ∀ who, pool.TellsAlone id who →
      resendsTo who resends = resendsTo who scan.resends) :
    pool.Visit now id entry
      { scan with
        failures := failures ++ scan.failures
        resends := resends } := by
  have notLost (others : ∀ lost ∈ scan.failures, lost.1.message.id ≠ id) :
      ∀ lost ∈ failures ++ scan.failures, lost.1.message.id ≠ id :=
    List.forall_mem_append.mpr ⟨lostElsewhere, others⟩
  cases visit with
  | leftAlone stores others notPicked told =>
      exact .leftAlone stores (notLost others) notPicked fun who alone =>
        (toldElsewhere who alone).trans (told who (alone.of_thins thins))
  | givenUp reason decided lost notPicked told =>
      rw [thins.config_eq] at decided
      exact .givenUp reason decided (List.mem_append_right _ lost) notPicked
        fun who alone =>
        (toldElsewhere who alone).trans (told who (alone.of_thins thins))
  | handedOut decided stores others picked told =>
      rw [thins.config_eq] at decided
      exact .handedOut decided stores (notLost others) picked fun who alone =>
        (toldElsewhere who alone).trans (told who (alone.of_thins thins))
  | resendScheduled decided stores others notPicked told =>
      rw [thins.config_eq] at decided
      exact .resendScheduled decided stores (notLost others) notPicked
        fun who alone =>
        (toldElsewhere who alone).trans (told who (alone.of_thins thins))

/-- The rules decide about an entry that the scan has come to. -/
theorem visit_first
    (sound : pool.IsSound)
    (keyed : pool.IsKeyed)
    (stores : pool.entries.Stores id entry)
    (now : Timestamp)
    {rest : List MessageId}
    (absent : id ∉ rest) :
    pool.Visit now id entry (scanEntries now (id :: rest) pool) := by
  rw [scanEntries, sound.peek?_eq_some_iff.mpr stores]
  dsimp only
  cases decided : entry.decision pool.config now with
  | giveUp reason =>
      have discarded := pool.discard_thins id
      have picked := (mem_of_scanEntries (keyed.of_thins discarded) now rest).2
      exact .givenUp reason decided List.mem_cons_self
        (fun message isPicked same => absent (same ▸ picked message isPicked))
        fun who alone => (alone.of_thins discarded).resendsTo_scanEntries now absent
  | rest => exact visit_of_not_mem sound keyed stores now absent
  | handOut =>
      exact .handedOut decided (sound.stores_adjust_self stores now _) (by simp) rfl
        fun _ _ => rfl
  | scheduleResend =>
      have scheduled := pool.scheduleResend_thins now id
      have stays := sound.stores_adjust_self stores now PoolEntry.resendScheduled
      obtain ⟨lost, picked⟩ :=
        mem_of_scanEntries (keyed.of_thins scheduled) now rest
      refine .resendScheduled decided
        ((sound.of_thins scheduled).stores_scanEntries stays now absent)
        (fun other member same => absent (same ▸ lost other member))
        (fun message isPicked same => absent (same ▸ picked message isPicked))
          fun who alone => ?_
      rw [resendsTo_cons,
        (alone.of_thins scheduled).resendsTo_scanEntries now absent, Nat.add_zero]

/-- What a scan does to an entry that is stored when it begins. -/
theorem visit_scanEntries
    (sound : pool.IsSound)
    (keyed : pool.IsKeyed)
    (stores : pool.entries.Stores id entry)
    (now : Timestamp)
    {ids : List MessageId}
    (distinct : ids.Nodup) :
    pool.Visit now id entry (scanEntries now ids pool) := by
  induction ids generalizing pool with
  | nil => exact visit_of_not_mem sound keyed stores now List.not_mem_nil
  | cons first rest inductionHypothesis =>
      obtain ⟨isNew, restDistinct⟩ := List.nodup_cons.mp distinct
      by_cases same : id = first
      · subst same
        exact visit_first sound keyed stores now isNew
      · unfold scanEntries
        split
        · exact inductionHypothesis sound keyed stores restDistinct
        · next visited peeked =>
            have visitedStores := Cache.stores_of_peek? peeked
            split
            · next reason _ =>
                have discarded := pool.discard_thins first
                have stays : (pool.discard first).entries.Stores id entry := by
                  rw [discard_entries]
                  exact Cache.stores_erase.mpr ⟨same, stores⟩
                have elsewhere : ∀ lost ∈ [(visited, reason)],
                    lost.1.message.id ≠ id := by
                  rintro _ (_ | ⟨_, ⟨⟩⟩)
                  exact fun isId =>
                    same (isId.symm.trans (keyed first visited visitedStores))
                exact (inductionHypothesis (sound.of_thins discarded)
                  (keyed.of_thins discarded)
                  stays restDistinct).of_later discarded elsewhere fun _ _ => rfl
            · exact inductionHypothesis sound keyed stores restDistinct
            · have elsewhere : visited.message.id ≠ id :=
                fun isId =>
                  same (isId.symm.trans (keyed first visited visitedStores))
              refine .leftAlone
                (sound.stores_adjust_of_ne stores same now _) (by simp) ?_
                fun _ _ => rfl
              rintro message ⟨⟩
              exact elsewhere
            · have scheduled := pool.scheduleResend_thins now first
              refine (inductionHypothesis (sound.of_thins scheduled)
                (keyed.of_thins scheduled)
                (sound.stores_adjust_of_ne stores same now _)
                  restDistinct).of_later scheduled
                (List.forall_mem_nil _) fun who alone => ?_
              rw [resendsTo_cons,
                alone.resendsTo_eq_zero visitedStores (Ne.symm same), Nat.zero_add]

theorem IsSound.visit
    (sound : pool.IsSound)
    (keyed : pool.IsKeyed)
    (stores : pool.entries.Stores id entry)
    (now : Timestamp) :
    pool.Visit now id entry (pool.scan now) :=
  visit_scanEntries sound keyed stores now sound.ordered.keys_distinct

end Pool

end Coap
