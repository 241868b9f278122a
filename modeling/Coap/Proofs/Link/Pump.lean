import Mathlib.Tactic.Common
import Coap.Link
import Coap.Proofs.Engine.Inbound
import Coap.Proofs.Engine.Outbound

namespace Coap

/-!
# Carrying without faults

A turn polls one side and lets the other one take in what was sent, in order. Rounds
of turns settle once nothing is due on either side. As long as there is something to
carry, what follows a turn decides how they settle.
-/

namespace Side

theorem other_other (side : Side) :
    side.other.other = side := by
  cases side <;> rfl

end Side

namespace Link

variable {link final : Link} {side : Side}

/-! ## The two engines -/

theorem engine_setEngine
    (link : Link)
    (side : Side)
    (engine : Engine) :
    (link.setEngine side engine).engine side = engine := by
  cases side <;> rfl

/-- The other side follows. -/
theorem engine_other_setEngine
    (link : Link)
    (side : Side)
    (engine : Engine) :
    (link.setEngine side engine).engine side.other =
      link.follow engine (link.engine side.other) := by
  cases side <;> rfl

theorem sharesIds_setEngine
    (link : Link)
    (side : Side)
    (engine : Engine) :
    (link.setEngine side engine).sharesIds = link.sharesIds := by
  cases side <;> rfl

/-- An engine follows the last one that has drawn identifiers. -/
theorem follow_follow
    (link : Link)
    (earlier later engine : Engine) :
    link.follow later (link.follow earlier engine) = link.follow later engine := by
  unfold follow counterAfter
  split <;> rfl

/-- Both sides have the same clock, and the same counter if they share it. -/
structure IsSynced
    (link : Link)
    (side : Side) :
    Prop where
  now_eq : (link.engine side.other).now = (link.engine side).now
  nextId_eq : link.sharesIds = true →
    (link.engine side.other).nextId = (link.engine side).nextId

theorem IsSynced.swap (synced : link.IsSynced side) : link.IsSynced side.other where
  now_eq := by
    rw [Side.other_other]
    exact synced.now_eq.symm
  nextId_eq := by
    rw [Side.other_other]
    exact fun shared => (synced.nextId_eq shared).symm

/-- A side that follows the other one already stays as it is. -/
theorem IsSynced.follow_eq
    (synced : link.IsSynced side) :
    link.follow (link.engine side) (link.engine side.other) =
      link.engine side.other := by
  unfold follow counterAfter
  rw [← synced.now_eq]
  split
  · next shared => rw [← synced.nextId_eq shared]
  · rfl

theorem isSynced_setEngine
    (link : Link)
    (side : Side)
    (engine : Engine) :
    (link.setEngine side engine).IsSynced side := by
  constructor
  · rw [engine_other_setEngine, engine_setEngine]
    rfl
  · intro shared
    rw [sharesIds_setEngine] at shared
    rw [engine_other_setEngine, engine_setEngine]
    unfold follow counterAfter
    rw [if_pos shared]

/-- Setting an engine to what it is changes nothing. -/
theorem setEngine_self (synced : link.IsSynced side) :
    link.setEngine side (link.engine side) = link := by
  have unmoved := synced.follow_eq
  cases side with
  | a => exact congrArg (fun engine => { link with b := engine }) unmoved
  | b => exact congrArg (fun engine => { link with a := engine }) unmoved

/-! ## Turns -/

/-- A datagram for the other side is taken in there once. -/
theorem copies_eq_one
    (number : Nat)
    (address : SocketAddress) :
    ({} : LinkFaults).copies number address address = 1 := by
  simp [LinkFaults.copies]

/--
What became of both sides of a link when one has taken in the
datagrams of the other.
-/
structure Carries
    (link : Link)
    (side : Side)
    (near far : Engine)
    (later : Link) :
    Prop where
  far_eq : later.engine side.other = far
  near_eq : later.engine side = link.follow far near
  sharesIds_eq : later.sharesIds = link.sharesIds

/-- The counter of the other side is followed as before. -/
theorem Carries.follow_eq
    {near far : Engine}
    {later : Link}
    (carries : link.Carries side near far later) :
    later.follow = link.follow := by
  unfold follow counterAfter
  rw [carries.sharesIds_eq]

/-- Both sides are in step afterwards. -/
theorem Carries.isSynced
    {near far : Engine}
    {later : Link}
    (carries : link.Carries side near far later) :
    later.IsSynced side := by
  constructor
  · rw [carries.far_eq, carries.near_eq]
    rfl
  · intro shared
    rw [carries.sharesIds_eq] at shared
    rw [carries.far_eq, carries.near_eq]
    unfold follow counterAfter
    rw [if_pos shared]

/-- A datagram for the other side is taken in there. -/
theorem carry_spec
    {datagram : Datagram}
    (routed : datagram.target = side.other.address) :
    link.Carries side (link.engine side)
      ((link.engine side.other).process datagram.bytes side.address).2
      (link.carry {} side datagram).2 := by
  have carried : (link.carry {} side datagram).2 =
      { link with numbered := link.numbered + 1 }.setEngine side.other
        ((link.engine side.other).process datagram.bytes side.address).2 := by
    unfold carry
    dsimp only
    rw [routed, copies_eq_one]
    rfl
  rw [carried]
  refine ⟨engine_setEngine _ _ _, ?_, sharesIds_setEngine _ _ _⟩
  cases side <;> rfl

/-- Datagrams for the other side are taken in there in order. -/
theorem carryAll_spec
    {datagrams : List Datagram}
    (routed : ∀ datagram ∈ datagrams, datagram.target = side.other.address)
    (synced : link.IsSynced side) :
    link.Carries side (link.engine side)
        ((link.engine side.other).processAll side.address datagrams)
        (link.carryAll {} side datagrams).2 ∧
      ((link.carryAll {} side datagrams).1 = [] ↔ datagrams = []) := by
  induction datagrams generalizing link with
  | nil =>
      refine ⟨⟨rfl, ?_, rfl⟩, by simp [carryAll]⟩
      have unmoved := synced.swap.follow_eq
      rw [Side.other_other] at unmoved
      exact unmoved.symm
  | cons first others inductionHypothesis =>
      have carries := @carry_spec link side first (routed first List.mem_cons_self)
      obtain ⟨later, _⟩ := inductionHypothesis
        (fun datagram member =>
          routed datagram (List.mem_cons_of_mem _ member)) carries.isSynced
      rw [carries.far_eq, carries.near_eq] at later
      refine ⟨⟨later.far_eq, ?_, later.sharesIds_eq.trans carries.sharesIds_eq⟩,
        by simp [carryAll]⟩
      refine later.near_eq.trans ?_
      rw [carries.follow_eq, follow_follow]
      rfl

/-- What a turn makes of both sides. -/
theorem turn_spec
    (link : Link)
    (side : Side)
    {near : Engine}
    (polled : ((link.engine side).pollAll pollLimit).2 = near)
    (routed : ∀ datagram ∈ near.sent, datagram.target = side.other.address) :
    link.Carries side { near with sent := [] }
        ((link.follow near (link.engine side.other)).processAll
          side.address near.sent)
        (link.turn {} side).2 ∧
      ((link.turn {} side).1 = [] ↔ near.sent = []) := by
  have synced := isSynced_setEngine link side { near with sent := [] }
  obtain ⟨carries, none_iff⟩ := carryAll_spec routed synced
  rw [engine_other_setEngine, engine_setEngine] at carries
  unfold turn
  dsimp only
  rw [polled]
  refine ⟨⟨carries.far_eq, ?_,
    carries.sharesIds_eq.trans (sharesIds_setEngine _ _ _)⟩, none_iff⟩
  refine carries.near_eq.trans ?_
  unfold follow counterAfter
  rw [sharesIds_setEngine]

/-- A turn polls its side more than once. -/
theorem pollLimit_eq :
    pollLimit = pollLimit - 1 + 1 :=
  rfl

/-- A turn of a side with nothing to send changes nothing. -/
theorem turn_of_silent
    (synced : link.IsSynced side)
    (polled : (link.engine side).poll = (false, link.engine side))
    (unsent : (link.engine side).sent = []) :
    link.turn {} side = ([], link) := by
  have rests := Engine.pollAll_of_silent polled pollLimit
  have same : { link.engine side with sent := [] } = link.engine side := by
    rw [← unsent]
  unfold turn
  dsimp only
  rw [rests, unsent, same, setEngine_self synced]
  rfl

/-- Neither side has anything to send. -/
def IsAtRest (link : Link) : Prop :=
  link.IsSynced .a ∧
    ∀ side ∈ [Side.a, Side.b],
      (link.engine side).poll = (false, link.engine side) ∧
        (link.engine side).sent = []

instance : Decidable (link.IsSynced side) :=
  decidable_of_iff
    ((link.engine side.other).now = (link.engine side).now ∧
      (link.sharesIds = true →
        (link.engine side.other).nextId = (link.engine side).nextId))
    ⟨fun both => ⟨both.1, both.2⟩, fun synced => ⟨synced.now_eq, synced.nextId_eq⟩⟩

instance : Decidable link.IsAtRest :=
  inferInstanceAs (Decidable (_ ∧ _))

theorem silent_of_isAtRest (atRest : link.IsAtRest) :
    ∀ side, link.turn {} side = ([], link) := by
  obtain ⟨synced, rests⟩ := atRest
  obtain ⟨polledA, unsentA⟩ := rests .a (by decide)
  obtain ⟨polledB, unsentB⟩ := rests .b (by decide)
  intro side
  cases side with
  | a => exact turn_of_silent synced polledA unsentA
  | b => exact turn_of_silent synced.swap polledB unsentB

/-! ## Rounds -/

/-- Rounds of turns end with `final`, where neither side has anything to send. -/
structure Settles
    (link final : Link) :
    Prop where
  ends : ∃ enough, ∀ rounds, enough ≤ rounds → (pump {} rounds 0 link).link = final
  silent : ∀ side, final.turn {} side = ([], final)

/-- The same from the turn of a side on. -/
def SettlesFrom
    (side : Side)
    (link final : Link) :
    Prop :=
  match side with
  | .a => link.Settles final
  | .b => (link.turn {} .b).2.Settles final

/-- Rounds that have nothing to carry change nothing. -/
theorem pump_of_silent
    (silent : ∀ side, link.turn {} side = ([], link))
    (rounds quiet : Nat) :
    (pump {} rounds quiet link).link = link := by
  induction rounds generalizing quiet with
  | zero => rfl
  | succ rounds inductionHypothesis =>
      unfold pump
      split
      · rfl
      · rw [silent .a]
        dsimp only
        rw [silent .b]
        exact inductionHypothesis _

/-- Once neither side has anything to send, further rounds change nothing. -/
theorem pump_add
    (rounds quiet : Nat)
    (silent : ∀ side, (pump {} rounds quiet link).link.turn {} side =
      ([], (pump {} rounds quiet link).link))
    (more : Nat) :
    (pump {} (rounds + more) quiet link).link =
      (pump {} rounds quiet link).link := by
  induction rounds generalizing quiet link with
  | zero =>
      rw [Nat.zero_add]
      exact pump_of_silent silent more quiet
  | succ rounds inductionHypothesis =>
      rw [Nat.succ_add]
      unfold pump at silent ⊢
      split
      · rfl
      · next unquiet =>
          rw [if_neg unquiet] at silent
          exact inductionHypothesis _ silent

/-- Rounds settle once neither side has anything to send after some of them. -/
theorem settles_pump
    {rounds : Nat}
    (atRest : (pump {} rounds 0 link).link.IsAtRest) :
    link.Settles (pump {} rounds 0 link).link := by
  have silent := silent_of_isAtRest atRest
  refine ⟨⟨rounds, fun others enough => ?_⟩, silent⟩
  obtain ⟨more, rfl⟩ := Nat.exists_eq_add_of_le enough
  exact pump_add rounds 0 silent more

/-- A link settles in one way only. -/
theorem Settles.unique
    {other : Link}
    (first : link.Settles final)
    (second : link.Settles other) :
    final = other := by
  obtain ⟨firstEnough, firstEnds⟩ := first.ends
  obtain ⟨secondEnough, secondEnds⟩ := second.ends
  rw [← firstEnds _ (Nat.le_max_left firstEnough secondEnough),
    ← secondEnds _ (Nat.le_max_right firstEnough secondEnough)]

theorem settlesFrom_of_silent
    (silent : ∀ side, link.turn {} side = ([], link))
    (side : Side) :
    SettlesFrom side link link := by
  have settles : link.Settles link :=
    ⟨⟨0, fun rounds _ => pump_of_silent silent rounds 0⟩, silent⟩
  cases side with
  | a => exact settles
  | b =>
      unfold SettlesFrom
      dsimp only
      rw [silent .b]
      exact settles

/-- A round that carries something starts the count of quiet rounds anew. -/
theorem settles_of_round
    (some : (link.turn {} .a).1 ++ ((link.turn {} .a).2.turn {} .b).1 ≠ [])
    (settles : SettlesFrom .b (link.turn {} .a).2 final) :
    link.Settles final := by
  obtain ⟨⟨enough, ends⟩, silent⟩ := settles
  refine ⟨⟨enough + 1, fun rounds bound => ?_⟩, silent⟩
  obtain ⟨before, rfl⟩ :=
    Nat.exists_eq_add_of_le' (Nat.le_trans (Nat.le_add_left 1 enough) bound)
  generalize turnA : link.turn {} .a = firstTurn at some ends
  obtain ⟨first, middle⟩ := firstTurn
  dsimp only at some ends
  generalize turnB : middle.turn {} .b = secondTurn at some ends
  obtain ⟨second, later⟩ := secondTurn
  have isEmpty : (first ++ second).isEmpty = false :=
    Bool.eq_false_iff.mpr fun none => some (List.isEmpty_iff.mp none)
  unfold pump
  rw [if_neg (by decide), turnA]
  dsimp only
  rw [turnB]
  dsimp only
  rw [isEmpty]
  exact ends before (Nat.le_of_succ_le_succ bound)

/-- The first turn carries something. -/
theorem settles_of_first
    (some : (link.turn {} .a).1 ≠ [])
    (settles : SettlesFrom .b (link.turn {} .a).2 final) :
    link.Settles final :=
  settles_of_round (fun none => some (List.append_eq_nil_iff.mp none).1) settles

/-- The first turn carries nothing, the second one does. -/
theorem settles_of_second
    (silent : link.turn {} .a = ([], link))
    (some : (link.turn {} .b).1 ≠ [])
    (settles : SettlesFrom .b link final) :
    link.Settles final := by
  refine settles_of_round ?_ ?_
  · rw [silent]
    exact some
  · rw [silent]
    exact settles

/-- A turn that carries something. -/
theorem SettlesFrom.of_turn
    (some : (link.turn {} side).1 ≠ [])
    (settles : SettlesFrom side.other (link.turn {} side).2 final) :
    SettlesFrom side link final := by
  cases side with
  | a => exact settles_of_first some settles
  | b => exact settles

end Link

end Coap
