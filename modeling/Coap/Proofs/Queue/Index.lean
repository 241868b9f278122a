import Mathlib.Tactic.Common
import Coap.Proofs.Queue.Run

namespace Coap

/-!
# The token index

The index of a pool leads from tokens to identifiers. What leaves the pool takes
the mapping to it away, so that a mapping leads to a queued message with its
token. The one thing that does not take a mapping away is a message that takes
the place of another one: an identifier that is queued again under another token
keeps the mapping of the old one. Under every identifier that is not so used the
index is sound.
-/

namespace Pool

variable {pool later : Pool} {now : Timestamp} {id : MessageId} {token : TokenKey}

/-- A token that leads to the identifier is the token of what is queued under it. -/
def IndexesSoundly
    (pool : Pool)
    (id : MessageId) :
    Prop :=
  ∀ token, pool.idOf? token = some id →
    ∃ entry, pool.entries.Stores id entry ∧ entry.message.key = token

/-- What takes entries away takes the mappings to them away. -/
theorem IndexesSoundly.of_thins
    {gone : MessageId → Prop}
    (sound : pool.IndexesSoundly id)
    (unlimited : pool.entries.idle = none)
    (thins : Thins gone pool later) :
    later.IndexesSoundly id := by
  intro token maps
  obtain ⟨mapped, kept⟩ := thins.mapped unlimited token id maps
  obtain ⟨entry, stores, key_eq⟩ := sound token mapped
  obtain ⟨last, lastStores, isLike⟩ := kept entry stores key_eq
  exact ⟨last, lastStores, (congrArg Message.key isLike.1).trans key_eq⟩

/-- A look-up by identifier leaves the index alone. -/
theorem IndexesSoundly.get
    (sound : pool.IndexesSoundly id)
    (unlimited : pool.entries.idle = none)
    (now : Timestamp)
    (other : MessageId) :
    (pool.get now other).2.IndexesSoundly id := by
  intro token maps
  obtain ⟨entry, stores, key_eq⟩ := sound token maps
  exact ⟨entry, stores.get fun slot _ =>
    Cache.isIdle_of_unlimited unlimited now slot, key_eq⟩

/--
A token that leads to an identifier is that of the new message, or it did so before.
-/
theorem idOf?_of_mapIfAbsent
    {named : TokenKey}
    {other : MessageId}
    (maps : (pool.mapIfAbsent named other).idOf? token = some id) :
    (token = named ∧ id = other) ∨ pool.idOf? token = some id := by
  unfold mapIfAbsent at maps
  split at maps
  · exact .inr maps
  · rcases Table.find?_put_cases maps with ⟨isToken, isId⟩ | ⟨_, before⟩
    · exact .inl ⟨isToken, isId⟩
    · exact .inr before

/--
Queueing maps one token at most, and what has to make room takes its mapping away.
-/
theorem idOf?_of_enqueue
    {message : Message}
    {hooks : Hooks}
    (maps : (pool.enqueue now message hooks).2.idOf? token = some id) :
    (token = message.key ∧ id = message.id) ∨
      pool.idOf? token = some id ∧
        ∀ entry,
          (pool.entries.insert now message.id
            (PoolEntry.create now message hooks)).1 =
              some (id, entry) →
            entry.message.key ≠ token := by
  unfold enqueue at maps
  dsimp only at maps
  refine (idOf?_of_mapIfAbsent maps).imp_right fun maps => ?_
  split at maps
  · next evictedId evicted inserted =>
      let entries :=
        (pool.entries.insert now message.id (PoolEntry.create now message hooks)).2
      refine ⟨idOf?_unmap { pool with entries := entries } maps, ?_⟩
      intro entry same isToken
      rw [inserted, Option.some.injEq, Prod.mk.injEq] at same
      obtain ⟨rfl, rfl⟩ := same
      rw [isToken] at maps
      exact idOf?_of_unmap { pool with entries := entries } maps rfl
  · next inserted =>
      refine ⟨maps, ?_⟩
      intro entry same
      rw [inserted] at same
      cases same

/--
The index stays sound where a message takes the place of one with
the same token only.
-/
theorem IndexesSoundly.enqueue
    (sound : pool.IndexesSoundly id)
    {message : Message}
    (keeps : message.id = id →
      ∀ entry, pool.entries.Stores id entry → entry.message.key = message.key)
    (now : Timestamp)
    (hooks : Hooks) :
    (pool.enqueue now message hooks).2.IndexesSoundly id := by
  intro token maps
  rcases idOf?_of_enqueue maps with ⟨rfl, rfl⟩ | ⟨mapped, unmapped⟩
  · exact ⟨_, stores_enqueue_self, rfl⟩
  · obtain ⟨entry, stores, key_eq⟩ := sound token mapped
    by_cases same : message.id = id
    · rw [← key_eq, keeps same entry stores, ← same]
      exact ⟨_, stores_enqueue_self, rfl⟩
    · rw [enqueue_entries]
      rcases stores.insert (Ne.symm same) with kept | evicted
      · exact ⟨entry, kept, key_eq⟩
      · exact (unmapped entry evicted key_eq).elim

/-- A token that leads to a queued message finds it. -/
theorem IsSound.lookup?_eq
    {entry : PoolEntry}
    (sound : pool.IsSound)
    (maps : pool.idOf? token = some id)
    (stores : pool.entries.Stores id entry)
    (now : Timestamp) :
    pool.lookup? now token = some entry.message := by
  unfold lookup?
  rw [maps, Option.bind_some, sound.peek?_eq_some_iff.mpr stores]
  rfl

/-- A token that leads to a queued message takes it out. -/
theorem takeByToken_fst
    {entry : PoolEntry}
    (maps : pool.idOf? token = some id)
    (stores : pool.entries.Stores id entry) :
    (pool.takeByToken token).1 = some entry := by
  obtain ⟨slot, found, rfl⟩ := stores
  simp only [takeByToken, maps, take, Cache.remove, found]

end Pool

namespace Engine

/-- The action queues nothing in the place of a message with another token. -/
def KeepsToken
    (engine : Engine)
    (id : MessageId)
    (action : QueueAction) :
    Prop :=
  ∀ message hooks, action = .enqueue message hooks → message.id = id →
    ∀ entry, engine.pool.entries.Stores id entry → entry.message.key = message.key

/--
None of several actions queues anything in the place of a message
with another token.
-/
def KeepsTokenAlong
    (engine : Engine)
    (id : MessageId) :
    List QueueAction →
    Prop
  | [] => True
  | action :: rest =>
      engine.KeepsToken id action ∧ (engine.act action).KeepsTokenAlong id rest

variable {engine : Engine} {id : MessageId} {token : TokenKey}

theorem IsPlain.indexesSoundly_staged
    (plain : engine.IsPlain)
    (sound : engine.pool.IndexesSoundly id)
    {action : QueueAction}
    (keeps : engine.KeepsToken id action) :
    (engine.staged action).pool.IndexesSoundly id := by
  have unlimited := plain.sound.unlimited
  have kept {gone : MessageId → Prop} {later : Engine}
      (winds : WindsDown gone engine later) :
      later.pool.IndexesSoundly id :=
    sound.of_thins unlimited winds.pool
  cases action with
  | register other who => exact sound
  | unregister other => exact kept (engine.unregister_windsDown other)
  | enqueue message hooks =>
      exact sound.enqueue (keeps message hooks rfl) engine.now hooks
  | next => exact kept (engine.scanned_windsDown plain.keyed)
  | requeue other => exact kept (@requeue_windsDown (fun _ => False) engine other)
  | suppress message =>
      exact kept (@suppress_windsDown (fun _ => False) engine message)
  | take other => exact kept (engine.take_windsDown other)
  | remove message => exact kept (engine.take_windsDown message.id)
  | takeByToken token => exact kept (engine.takeByToken_windsDown token)
  | get other => exact sound.get unlimited engine.now other
  | drain text => exact kept (engine.drainPool_windsDown text)
  | recordTransfer token report =>
      exact kept (@recordTransfer_windsDown (fun _ => False) engine token report)
  | advance length => exact sound

theorem IsPlain.indexesSoundly_act
    (plain : engine.IsPlain)
    (sound : engine.pool.IndexesSoundly id)
    {action : QueueAction}
    (keeps : engine.KeepsToken id action) :
    (engine.act action).pool.IndexesSoundly id := by
  rw [act_eq]
  exact (plain.indexesSoundly_staged sound keeps).of_thins
    (plain.staged action).sound.unlimited (giveUpAll_windsDown _ _).pool

theorem IsPlain.indexesSoundly_actAll
    (plain : engine.IsPlain)
    (sound : engine.pool.IndexesSoundly id)
    {actions : List QueueAction}
    (keeps : engine.KeepsTokenAlong id actions) :
    (engine.actAll actions).pool.IndexesSoundly id := by
  induction actions generalizing engine with
  | nil => exact sound
  | cons action rest inductionHypothesis =>
      exact inductionHypothesis (plain.act action)
        (plain.indexesSoundly_act sound keeps.1) keeps.2

/--
Under every identifier that was never queued in the place of a message with another
token, the index is sound: a token that leads to the identifier finds and takes out
the message that is queued there, and the message has that token. If all identifiers
are so used, no token ever finds or takes out a message of another token, and a
token of no queued message leads nowhere.
-/
theorem token_leads_to_its_message
    (poolConfig : PoolConfig)
    (arqConfig : ArqConfig)
    (nextId : MessageId)
    (actions : List QueueAction) :
    let start := create poolConfig arqConfig nextId
    let final := start.actAll actions
    (∀ id, start.KeepsTokenAlong id actions →
      ∀ token, final.pool.idOf? token = some id →
        ∃ entry, final.pool.entries.Stores id entry ∧ entry.message.key = token ∧
          final.pool.lookup? final.now token = some entry.message ∧
            (final.takeByToken token).1 = some entry) ∧
    ((∀ id, start.KeepsTokenAlong id actions) →
      ∀ token,
        (∀ message, final.pool.lookup? final.now token = some message →
          message.key = token) ∧
          (∀ entry, (final.takeByToken token).1 = some entry →
            entry.message.key = token) ∧
            ((∀ id entry, final.pool.entries.Stores id entry →
              entry.message.key ≠ token) →
              final.pool.idOf? token = none)) := by
  intro start final
  have plain : final.IsPlain :=
    (isPlain_create poolConfig arqConfig nextId).actAll actions
  have leads (id : MessageId) (keeps : start.KeepsTokenAlong id actions)
    (token : TokenKey)
      (maps : final.pool.idOf? token = some id) :
      ∃ entry, final.pool.entries.Stores id entry ∧ entry.message.key = token ∧
        final.pool.lookup? final.now token = some entry.message ∧
          (final.takeByToken token).1 = some entry := by
    have sound : start.pool.IndexesSoundly id := by
      intro other mapped
      cases mapped
    obtain ⟨entry, stores, key_eq⟩ :=
      (isPlain_create poolConfig arqConfig nextId).indexesSoundly_actAll sound
        keeps token maps
    exact ⟨entry, stores, key_eq, plain.sound.lookup?_eq maps stores final.now,
      Pool.takeByToken_fst maps stores⟩
  refine ⟨leads, fun keeps token => ?_⟩
  cases mapped : final.pool.idOf? token with
  | none =>
      have notFound : final.pool.lookup? final.now token = none := by
        unfold Pool.lookup?
        rw [mapped]
        rfl
      have notTaken : (final.takeByToken token).1 = none := by
        unfold takeByToken Pool.takeByToken
        rw [mapped]
      rw [notFound, notTaken]
      exact ⟨by simp, by simp, fun _ => rfl⟩
  | some id =>
      obtain ⟨entry, stores, key_eq, found, taken⟩ :=
        leads id (keeps id) token mapped
      rw [found, taken]
      refine ⟨fun message same => ?_, fun other same => ?_, fun strangers => ?_⟩
      · rw [← Option.some.inj same]
        exact key_eq
      · rw [← Option.some.inj same]
        exact key_eq
      · exact (strangers id entry stores key_eq).elim

/--
Two messages with one token: the first one is found by it, and is
not found once taken out.
-/
theorem token_leads_to_its_message_first_queued :
    let first : Message :=
      { id := 7, kind := .confirmable, code := .get, token := some ⟨[7]⟩ }
    let actions : List QueueAction :=
      [.enqueue first {}, .enqueue { first with id := 8 } {}, .advance 5]
    let start := create {} {} 100
    start.KeepsTokenAlong 7 actions ∧
      (start.actAll actions).pool.lookup? (start.actAll actions).now first.key =
        some first := by
  intro first actions start
  have keeps : start.KeepsTokenAlong 7 actions := by
    refine ⟨?_, ?_, ?_, trivial⟩
    · rintro message hooks _ _ entry ⟨slot, found, _⟩
      cases found
    · intro message hooks isEnqueue isId
      cases isEnqueue
      exact absurd isId (by decide)
    · intro message hooks isEnqueue
      cases isEnqueue
  obtain ⟨leads, _⟩ := token_leads_to_its_message {} {} 100 actions
  obtain ⟨entry, stores, _, found, _⟩ := leads 7 keeps first.key (by decide)
  refine ⟨keeps, found.trans ?_⟩
  obtain ⟨slot, slotFound, rfl⟩ := stores
  have isFirst : ((start.actAll actions).pool.entries.entries.find? 7).map
      (fun slot => slot.value.message) = some first := by
    decide
  rw [slotFound] at isFirst
  exact isFirst

/--
A message that takes the place of one with another token is found by that token.
-/
theorem replacement_is_found_by_other_token :
    let first : Message :=
      { id := 7, kind := .confirmable, code := .get, token := some ⟨[7]⟩ }
    let second : Message := { first with token := some ⟨[8]⟩ }
    let final := (create {} {} 100).actAll [.enqueue first {}, .enqueue second {}]
    final.pool.lookup? final.now first.key = some second ∧
      second.key ≠ first.key := by
  decide

end Engine

end Coap
