import Mathlib.Tactic.Common
import Coap.Proofs.Cache.Tally
import Coap.Proofs.Engine.Activity
import Coap.Proofs.Endpoint.Shutdown

namespace Coap

/-!
# Calls made and calls that may still be made

A handler that travels with a message or a transfer may be called when that is lost,
one that waits for a response may be called when the response arrives. A tariff says
which handlers count and what the calls made so far have cost. Whoever is called is
under way no more, so the calls made and the handlers under way come to no more than
what operations brought in.
-/

/-- The peer gave the reason. -/
def FailureReason.isAnswer : FailureReason → Bool
  | .reset | .response _ => true
  | _ => false

namespace Event

/-- The event tells of an answer, even one that is a failure. -/
def isAnswer : Event → Bool
  | .answered _ _ => true
  | .failed _ failure => failure.reason.isAnswer
  | _ => false

/-- The event tells that a message was lost, or that sending has stopped. -/
def isLoss : Event → Bool
  | .failed _ failure => !failure.reason.isAnswer
  | _ => false

variable {event : Event}

theorem isOutcome_of_isLoss
    (tellsLoss : event.isLoss = true) :
    event.isOutcome = true := by
  cases event with
  | failed who failure => rfl
  | _ => cases tellsLoss

theorem isOutcome_of_isAnswer
    (tellsAnswer : event.isAnswer = true) :
    event.isOutcome = true := by
  cases event with
  | failed who failure => rfl
  | answered who response => rfl
  | _ => cases tellsAnswer

theorem isAnswer_of_isLoss
    (tellsLoss : event.isLoss = true) :
    event.isAnswer = false := by
  cases event with
  | failed who failure => exact (Bool.not_eq_true' _).mp tellsLoss
  | _ => cases tellsLoss

/-- An outcome is a loss or an answer, and not both. -/
theorem isOutcome_toNat
    (event : Event)
    (who : Listener) :
    (event.isOutcome && decide (event.who = who)).toNat =
      (event.isLoss && decide (event.who = who)).toNat +
        (event.isAnswer && decide (event.who = who)).toNat := by
  cases event with
  | failed other failure =>
      simp only [isOutcome, isLoss, isAnswer]
      cases failure.reason.isAnswer <;> simp
  | answered other response => simp [isOutcome, isLoss, isAnswer]
  | _ => rfl

end Event

namespace Engine

/-- Which handlers count, and what the calls made so far have cost. -/
structure Tariff where
  paid : Engine → Nat
  /-- Whether a handler counts that travels with a message. -/
  hooked : ResponseHandler → Bool
  /-- Whether a handler counts that waits for a response. -/
  awaited : ResponseHandler → Bool
  paid_of_silent : ∀ {before after : Engine}, Silent before after →
    paid after = paid before
  paid_tell : ∀ (engine : Engine) {event : Event},
    event.isOutcome = false → paid (engine.tell event) = paid engine
  paid_loss : ∀ (engine : Engine) (handler : ResponseHandler) {event : Event},
    event.isLoss = true → event.who = handler.who →
      paid (engine.tellOutcome handler event) ≤ paid engine + (hooked handler).toNat
  paid_answer : ∀ (engine : Engine) (handler : ResponseHandler) {event : Event},
    event.isAnswer = true → event.who = handler.who →
      paid (engine.tellOutcome handler event) ≤
        paid engine + (awaited handler).toNat

namespace Tariff

/-- Whether the handler that travels with a message counts, if there is one. -/
def counts
    (tariff : Tariff)
    (hooks : Hooks) :
    Bool :=
  hooks.response.any tariff.hooked

/-- Under how many identifiers a message is queued whose handler counts. -/
def queued
    (tariff : Tariff)
    (pool : Pool) :
    Nat :=
  pool.entries.tally fun entry => tariff.counts entry.hooks

/-- How many transfers carry a handler that counts. -/
def carried
    (tariff : Tariff)
    (outgoing : Table TokenKey OutboundTransfer) :
    Nat :=
  outgoing.tally fun transfer => tariff.counts transfer.hooks

/-- The cost of the calls made, and of those that may still be made. -/
def total
    (tariff : Tariff)
    (engine : Engine) :
    Nat :=
  tariff.paid engine + tariff.queued engine.pool + tariff.carried engine.outgoing +
    engine.expected.tally tariff.awaited

/--
The total goes up by what is `given` at most, and leaves room for
what is handed back.
-/
structure Balances
    (tariff : Tariff)
    (given handedBack : Nat)
    (before after : Engine) :
    Prop where
  ordered : before.pool.entries.IsOrdered → after.pool.entries.IsOrdered
  total_le : before.pool.entries.IsOrdered →
    tariff.total after + handedBack ≤ tariff.total before + given

variable {tariff : Tariff} {given between handedBack : Nat}
variable {gone : MessageId → Prop}
variable {engine before after later : Engine} {token : TokenKey}

theorem countP_cons_eq
    {α : Type}
    (isCounted : α → Bool)
    (first : α)
    (rest : List α) :
    (first :: rest).countP isCounted =
      (isCounted first).toNat + rest.countP isCounted := by
  rw [List.countP_cons, Nat.add_comm]
  cases isCounted first <;> rfl

theorem queued_le_of_thins
    (tariff : Tariff)
    {pool thinner : Pool}
    (thins : Pool.Thins gone pool thinner) :
    tariff.queued thinner ≤ tariff.queued pool := by
  refine Cache.tally_le_of_stores fun id entry stores isCounted => ?_
  obtain ⟨earlier, earlierStores, isLike⟩ := thins.queued id entry stores
  exact ⟨earlier, earlierStores, isLike.2 ▸ isCounted⟩

/-- An entry that is missing no longer counts. -/
theorem queued_of_missing
    (tariff : Tariff)
    {pool thinner : Pool}
    (thins : Pool.Thins gone pool thinner)
    {id : MessageId}
    {entry : PoolEntry}
    (stores : pool.entries.Stores id entry)
    (missing : ∀ remaining, ¬ thinner.entries.Stores id remaining) :
    tariff.queued thinner + (tariff.counts entry.hooks).toNat ≤
      tariff.queued pool := by
  unfold queued
  rw [← @Cache.tally_erase _ _ _ _ _ _
    (fun entry => tariff.counts entry.hooks) stores]
  refine Nat.add_le_add_right
    (Cache.tally_le_of_stores fun other remaining remains isCounted => ?_) _
  obtain ⟨earlier, earlierStores, isLike⟩ := thins.queued other remaining remains
  refine ⟨earlier, Cache.stores_erase.mpr ⟨?_, earlierStores⟩, isLike.2 ▸ isCounted⟩
  rintro rfl
  exact missing remaining remains

theorem carried_le_of_windsDown
    (tariff : Tariff)
    (winds : WindsDown gone before after) :
    tariff.carried after.outgoing ≤ tariff.carried before.outgoing := by
  refine Table.tally_le_of_find? fun token transfer found isCounted => ?_
  obtain ⟨earlier, earlierFound, isLike⟩ := winds.outgoing token transfer found
  exact ⟨earlier, earlierFound, isLike.hooks_eq ▸ isCounted⟩

/-- A transfer that has ended no longer counts. -/
theorem carried_of_ended
    (tariff : Tariff)
    (winds : WindsDown gone before after)
    {transfer : OutboundTransfer}
    (found : before.outgoing.find? token = some transfer)
    (missing : after.outgoing.find? token = none) :
    tariff.carried after.outgoing + (tariff.counts transfer.hooks).toNat ≤
      tariff.carried before.outgoing := by
  unfold carried
  rw [← @Table.tally_erase _ _ _ _ _ _
    (fun transfer => tariff.counts transfer.hooks) found]
  refine Nat.add_le_add_right
    (Table.tally_le_of_find? fun other remaining remains isCounted => ?_) _
  obtain ⟨earlier, earlierFound, isLike⟩ := winds.outgoing other remaining remains
  have different : other ≠ token := by
    rintro rfl
    rw [missing] at remains
    cases remains
  refine ⟨earlier, ?_, isLike.hooks_eq ▸ isCounted⟩
  rw [Table.find?_erase_ne different]
  exact earlierFound

namespace Balances

theorem refl
    (tariff : Tariff)
    (engine : Engine) :
    tariff.Balances 0 0 engine engine where
  ordered := id
  total_le := fun _ => Nat.le_refl _

/-- What is handed back by one operation is given to the next. -/
theorem trans
    (first : tariff.Balances given between before after)
    (second : tariff.Balances between handedBack after later) :
    tariff.Balances given handedBack before later where
  ordered := second.ordered ∘ first.ordered
  total_le := by
    intro ordered
    have toAfter := first.total_le ordered
    have toLater := second.total_le (first.ordered ordered)
    omega

/-- What is not needed for now is handed on. -/
theorem frame
    (balances : tariff.Balances given handedBack before after)
    (more : Nat) :
    tariff.Balances (given + more) (handedBack + more) before after where
  ordered := balances.ordered
  total_le := by
    intro ordered
    have total_le := balances.total_le ordered
    omega

theorem mono
    (balances : tariff.Balances given handedBack before after)
    {more : Nat}
    (enough : given ≤ more) :
    tariff.Balances more handedBack before after where
  ordered := balances.ordered
  total_le := fun ordered =>
    Nat.le_trans (balances.total_le ordered) (Nat.add_le_add_left enough _)

/-- An operation that costs nothing hands on everything. -/
theorem carry
    (free : tariff.Balances 0 0 before after)
    (more : Nat) :
    tariff.Balances more more before after := by
  have framed := free.frame more
  rw [Nat.zero_add] at framed
  exact framed

/-- What is handed back need not be used. -/
theorem forgo
    (balances : tariff.Balances given handedBack before after) :
    tariff.Balances given 0 before after where
  ordered := balances.ordered
  total_le :=
    fun ordered => Nat.le_trans (Nat.le_add_right _ _) (balances.total_le ordered)

/-- What is handed back pays for what is given. -/
theorem settle
    (balances : tariff.Balances given given before after) :
    tariff.Balances 0 0 before after where
  ordered := balances.ordered
  total_le := fun ordered => Nat.le_of_add_le_add_right (balances.total_le ordered)

/-- What counts among some items pays for what is done with each. -/
theorem foldl
    {α : Type}
    {step : Engine → α → Engine}
    {isCounted : α → Bool}
    (items : List α)
    (balances : ∀ engine, ∀ item ∈ items,
      tariff.Balances (isCounted item).toNat 0 engine (step engine item))
    (engine : Engine) :
    tariff.Balances (items.countP isCounted) 0 engine
      (items.foldl step engine) := by
  induction items generalizing engine with
  | nil => exact refl tariff engine
  | cons item rest inductionHypothesis =>
      have first :=
        (balances engine item List.mem_cons_self).frame (rest.countP isCounted)
      rw [Nat.zero_add] at first
      have others := inductionHypothesis (fun engine item member =>
        balances engine item (List.mem_cons_of_mem _ member)) (step engine item)
      rw [countP_cons_eq]
      exact first.trans others

/-- Where each step costs nothing, all of them cost nothing. -/
theorem foldl_free
    {α : Type}
    {step : Engine → α → Engine}
    (items : List α)
    (balances : ∀ engine, ∀ item ∈ items,
      tariff.Balances 0 0 engine (step engine item))
    (engine : Engine) :
    tariff.Balances 0 0 engine (items.foldl step engine) := by
  have free := @foldl tariff α step (fun _ => false) items balances engine
  rw [List.countP_false] at free
  exact free

/-! ## Work that stays or ends -/

/-- What winds down an engine brings no handler in. -/
theorem of_windsDown
    (winds : WindsDown gone before after)
    (paid_le : tariff.paid after ≤ tariff.paid before + given) :
    tariff.Balances given 0 before after where
  ordered := winds.pool.ordered
  total_le := by
    intro _
    have queued := tariff.queued_le_of_thins winds.pool
    have carried := tariff.carried_le_of_windsDown winds
    unfold total
    rw [winds.expected_eq]
    omega

theorem of_silent
    (winds : WindsDown gone before after)
    (silent : Silent before after) :
    tariff.Balances 0 0 before after :=
  of_windsDown winds (Nat.le_of_eq (tariff.paid_of_silent silent))

/-- A transfer that ends hands its handler back. -/
theorem of_ended
    (winds : WindsDown gone before after)
    (silent : Silent before after)
    {transfer : OutboundTransfer}
    (found : before.outgoing.find? token = some transfer)
    (missing : after.outgoing.find? token = none) :
    tariff.Balances 0 (tariff.counts transfer.hooks).toNat before after where
  ordered := winds.pool.ordered
  total_le := by
    intro _
    have paid_eq := tariff.paid_of_silent silent
    have queued := tariff.queued_le_of_thins winds.pool
    have carried := tariff.carried_of_ended winds found missing
    unfold total
    rw [winds.expected_eq]
    omega

/-- What happens elsewhere is not charged. -/
theorem of_unchanged
    (silent : Silent before after)
    (pool_eq : after.pool = before.pool)
    (outgoing_eq : after.outgoing = before.outgoing)
    (expected_le :
      after.expected.tally tariff.awaited ≤
        before.expected.tally tariff.awaited + given) :
    tariff.Balances given 0 before after where
  ordered := by
    rw [pool_eq]
    exact id
  total_le := by
    intro _
    have paid_eq := tariff.paid_of_silent silent
    unfold total
    rw [pool_eq, outgoing_eq]
    omega

/-- An entry that leaves the pool hands its handler back. -/
theorem of_missing
    (engine : Engine)
    {thinner : Pool}
    (thins : Pool.Thins gone engine.pool thinner)
    {id : MessageId}
    {entry : PoolEntry}
    (stores : engine.pool.entries.Stores id entry)
    (missing : ∀ remaining, ¬ thinner.entries.Stores id remaining) :
    tariff.Balances 0 (tariff.counts entry.hooks).toNat engine
      { engine with pool := thinner } where
  ordered := thins.ordered
  total_le := by
    intro _
    have unheard : Silent engine { engine with pool := thinner } := ⟨rfl, rfl⟩
    have paid_eq := tariff.paid_of_silent unheard
    have queued := tariff.queued_of_missing thins stores missing
    unfold total
    dsimp only at paid_eq ⊢
    omega

end Balances

end Tariff

end Engine

end Coap
