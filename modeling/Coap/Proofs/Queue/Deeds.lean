import Mathlib.Algebra.Group.Nat.Defs
import Mathlib.Tactic.Common
import Coap.Delivery
import Coap.Pool.Basic
import Coap.Proofs.Cache.Contents

namespace Coap

/-!
# What telemetry counts

The telemetry of a token is read off what was done: which messages were queued or
started again, which ones were handed out, and which reports were recorded.
Histories are written with the latest deed first, so that what stands behind a deed
is what was done before it.
-/

/-- What telemetry takes note of. -/
inductive Deed where
  /--
  The exchange of a message starts: it is queued, or it starts again from scratch.
  -/
  | started (id : MessageId)
  | handedOut (message : Message)
  | recorded (token : TokenKey) (report : TransferReport)
deriving DecidableEq

namespace Deed

/-- The token whose telemetry a deed changes. -/
def token? : Deed → Option TokenKey
  | .started _ => none
  | .handedOut message => some message.key
  | .recorded token _ => some token

/-- A message is handed out under a token, through a proxy or not. -/
def handsOut
    (token : TokenKey)
    (throughProxy : Bool) :
    Deed →
    Bool
  | .handedOut message =>
      decide (message.key = token) && (message.proxy.isSome == throughProxy)
  | _ => false

/-- The message with an identifier is handed out. -/
def handsOutId
    (id : MessageId) :
    Deed →
    Bool
  | .handedOut message => decide (message.id = id)
  | _ => false

/-- The report that is recorded for a token. -/
def report?
    (token : TokenKey) :
    Deed →
    Option TransferReport
  | .recorded other report => if other = token then some report else none
  | _ => none

/--
Since its exchange last started, the message with an identifier has been handed out.
-/
def isUnderWay
    (past : List Deed)
    (id : MessageId) :
    Bool :=
  (past.takeWhile fun deed => deed ≠ .started id).any fun deed => deed.handsOutId id

/--
The hand-outs under a token that were not the first since their exchange started.
-/
def retransmits
    (token : TokenKey) :
    List Deed →
    Nat
  | [] => 0
  | .handedOut message :: earlier =>
      retransmits token earlier +
        if message.key = token ∧ isUnderWay earlier message.id then 1 else 0
  | _ :: earlier => retransmits token earlier

/-- The hand-outs under a token, through a proxy or not. -/
def handOuts
    (token : TokenKey)
    (throughProxy : Bool)
    (past : List Deed) :
    Nat :=
  past.countP fun deed => deed.handsOut token throughProxy

/-- What was done under a token, in counters of 32 bits. -/
def counts
    (token : TokenKey)
    (past : List Deed) :
    Delivery :=
  { retransmits := UInt32.ofNat (retransmits token past)
    viaProxy := UInt32.ofNat (handOuts token true past)
    direct := UInt32.ofNat (handOuts token false past)
    transfer := past.findSome? fun deed => deed.report? token }

/-- The telemetry of a token, if anything was done under it. -/
def tally
    (token : TokenKey)
    (past : List Deed) :
    Option Delivery :=
  if past.any fun deed => deed.token? = some token then some (counts token past)
  else none

variable {token other : TokenKey} {id : MessageId} {past : List Deed} {deed : Deed}
variable {message : Message} {report : TransferReport}

@[simp]
theorem handsOut_started (throughProxy : Bool) :
    (started id).handsOut token throughProxy = false :=
  rfl

@[simp]
theorem handsOut_handedOut (throughProxy : Bool) :
    (handedOut message).handsOut token throughProxy =
      (decide (message.key = token) && (message.proxy.isSome == throughProxy)) :=
  rfl

@[simp]
theorem handsOut_recorded (throughProxy : Bool) :
    (recorded other report).handsOut token throughProxy = false :=
  rfl

/-! ## Which messages are under way -/

@[simp]
theorem isUnderWay_started_self : isUnderWay (.started id :: past) id = false := by
  simp [isUnderWay]

theorem isUnderWay_started_of_ne
    {begun : MessageId}
    (different : id ≠ begun) :
    isUnderWay (.started begun :: past) id = isUnderWay past id := by
  simp [isUnderWay, handsOutId, Ne.symm different]

@[simp]
theorem isUnderWay_handedOut_self :
    isUnderWay (.handedOut message :: past) message.id = true := by
  simp [isUnderWay, handsOutId]

theorem isUnderWay_handedOut_of_ne
    (different : message.id ≠ id) :
    isUnderWay (.handedOut message :: past) id = isUnderWay past id := by
  simp [isUnderWay, handsOutId, different]

@[simp]
theorem isUnderWay_recorded :
    isUnderWay (.recorded token report :: past) id = isUnderWay past id := by
  simp [isUnderWay, handsOutId]

/-! ## How a deed changes the telemetry -/

/-- A deed leaves the telemetry of other tokens alone. -/
theorem tally_of_ne
    (different : deed.token? ≠ some token) :
    tally token (deed :: past) = tally token past := by
  have counts_eq : counts token (deed :: past) = counts token past := by
    cases deed <;> simp_all [counts, handOuts, retransmits, handsOut,
      report?, token?]
  simp [tally, counts_eq, different]

/-- Under a token under which nothing was done, there is nothing to count. -/
theorem counts_of_tally_eq_none
    (nothing : tally token past = none) :
    counts token past = {} := by
  induction past with
  | nil => rfl
  | cons deed earlier inductionHypothesis =>
      have different : deed.token? ≠ some token := by
        intro same
        simp [tally, same] at nothing
      rw [tally_of_ne different] at nothing
      rw [← inductionHypothesis nothing]
      cases deed <;> simp_all [counts, handOuts, retransmits, handsOut,
        report?, token?]

/-- Telemetry that is not there stands for nothing counted. -/
theorem getD_tally
    (token : TokenKey)
    (past : List Deed) :
    (tally token past).getD {} = counts token past := by
  cases tallied : tally token past with
  | none => exact (counts_of_tally_eq_none tallied).symm
  | some delivery =>
      unfold tally at tallied
      split at tallied
      · exact (Option.some.inj tallied).symm
      · cases tallied

theorem tally_handedOut
    (message : Message)
    (past : List Deed) :
    tally message.key (.handedOut message :: past) =
      some ((counts message.key past).countHandOut message.proxy.isSome
        (isUnderWay past message.id)) := by
  have counted (number : Nat) {condition : Prop} [Decidable condition] :
      UInt32.ofNat (number + if condition then 1 else 0) =
        UInt32.ofNat number + if condition then 1 else 0 := by
    rw [UInt32.ofNat_add]
    split <;> rfl
  unfold tally counts handOuts Delivery.countHandOut
  simp only [List.any_cons, token?, decide_true, Bool.true_or, ↓reduceIte,
    retransmits, true_and, List.countP_cons, handsOut_handedOut, Bool.true_and,
    List.findSome?_cons, report?, counted]
  cases message.proxy.isSome <;> simp

theorem tally_recorded
    (token : TokenKey)
    (report : TransferReport)
    (past : List Deed) :
    tally token (.recorded token report :: past) =
      some { counts token past with transfer := some report } := by
  simp [tally, counts, handOuts, retransmits, handsOut, report?, token?]

/-- A hand-out that is not the first is a hand-out. -/
theorem retransmits_le_handOuts
    (token : TokenKey)
    (past : List Deed) :
    retransmits token past ≤
      handOuts token true past + handOuts token false past := by
  unfold handOuts
  induction past with
  | nil => exact Nat.le_refl 0
  | cons deed earlier inductionHypothesis =>
      cases deed with
      | started id => simpa [retransmits] using inductionHypothesis
      | recorded other report => simpa [retransmits] using inductionHypothesis
      | handedOut message =>
          simp only [retransmits, List.countP_cons, handsOut_handedOut]
          by_cases same : message.key = token
          · rcases Bool.eq_false_or_eq_true message.proxy.isSome with
              through | through
            · simp only [same, through, true_and, decide_true,
                beq_self_eq_true, Bool.and_self]
              split <;> simp <;> omega
            · simp only [same, through, true_and, decide_true,
                beq_self_eq_true, Bool.and_self]
              split <;> simp <;> omega
          · simpa [same] using inductionHypothesis

/-- Telemetry is exact as long as no counter has wrapped around. -/
theorem exact_of_tally
    {delivery : Delivery}
    (tallied : tally token past = some delivery)
    (few : handOuts token true past + handOuts token false past < 2 ^ 32) :
    delivery.viaProxy.toNat = handOuts token true past ∧
      delivery.direct.toNat = handOuts token false past ∧
        delivery.retransmits.toNat = retransmits token past ∧
          delivery.retransmits ≤ delivery.attempts := by
  have repeated := retransmits_le_handOuts token past
  have counted := getD_tally token past
  rw [tallied] at counted
  rw [show delivery = counts token past from counted]
  have exact {number : Nat} (small : number < 2 ^ 32) :
      (UInt32.ofNat number).toNat = number :=
    UInt32.toNat_ofNat_of_lt' small
  refine ⟨exact (by omega), exact (by omega), exact (by omega), ?_⟩
  unfold counts Delivery.attempts
  dsimp only
  rw [← UInt32.ofNat_add, UInt32.le_iff_toNat_le, exact (by omega), exact few]
  exact repeated

end Deed

/-! ## Where the telemetry is kept -/

/-- The telemetry that is kept is what was counted. -/
structure Tallied
    (past : List Deed)
    (now : Timestamp)
    (delivery : Cache TokenKey Delivery) :
    Prop where
  lasts : delivery.Lasts Pool.deliveryRetention now
  ordered : delivery.IsOrdered
  stores_iff : ∀ token known, delivery.Stores token known ↔
    Deed.tally token past = some known

namespace Tallied

variable {past : List Deed} {now : Timestamp} {delivery : Cache TokenKey Delivery}
variable {deed : Deed} {token : TokenKey}

theorem empty :
    Tallied [] Timestamp.start (Cache.withIdle Pool.deliveryRetention) where
  lasts := .withIdle (by decide)
  ordered := ⟨_, [], Cache.shows_withIdle _⟩
  stores_iff := by
    intro token known
    constructor
    · rintro ⟨slot, found, _⟩
      cases found
    · intro tallied
      cases tallied

theorem get_fst
    (tallied : Tallied past now delivery)
    (token : TokenKey) :
    (delivery.get now token).1 = Deed.tally token past := by
  refine Option.ext fun known => ?_
  rw [tallied.lasts.get_fst_eq_some_iff, tallied.stores_iff]

/-- Reading telemetry does not change it. -/
theorem get
    (tallied : Tallied past now delivery)
    (token : TokenKey) :
    Tallied past now (delivery.get now token).2 where
  lasts := tallied.lasts.get token
  ordered := tallied.ordered.get now token
  stores_iff := by
    intro other known
    rw [tallied.lasts.stores_get, tallied.stores_iff]

/-- What is noted under one token leaves the others alone. -/
theorem insert
    (tallied : Tallied past now delivery)
    {known : Delivery}
    (concerns : deed.token? = some token)
    (noted : Deed.tally token (deed :: past) = some known) :
    Tallied (deed :: past) now (delivery.insert now token known).2 where
  lasts := tallied.lasts.insert token known
  ordered := tallied.ordered.insert now token known
  stores_iff := by
    intro other stored
    rw [tallied.lasts.stores_insert]
    by_cases same : other = token
    · simp [same, noted, eq_comm]
    · have elsewhere : deed.token? ≠ some other := by
        rw [concerns]
        exact fun isToken => same (Option.some.inj isToken).symm
      simp [same, Deed.tally_of_ne elsewhere, tallied.stores_iff]

theorem started
    (tallied : Tallied past now delivery)
    (id : MessageId) :
    Tallied (.started id :: past) now delivery :=
  { tallied with
    stores_iff := by
      intro token known
      rw [Deed.tally_of_ne (by simp [Deed.token?]), tallied.stores_iff] }

theorem purge
    (tallied : Tallied past now delivery) :
    Tallied past now (delivery.purge now).2 := by
  rw [tallied.lasts.purge_eq tallied.ordered]
  exact tallied

theorem after
    (tallied : Tallied past now delivery)
    {length : Nat}
    (early : now.nanos + length < Pool.deliveryRetention) :
    Tallied past (now.after length) delivery :=
  { tallied with lasts := tallied.lasts.after early }

end Tallied

end Coap
