import Mathlib.Tactic.Common
import Coap.Proofs.Engine.Dispatch
import Coap.Proofs.Link.Pump

namespace Coap

/-!
# Scenes on both sides of a link

As long as both engines show a scene, a turn is an operation on the two scenes. On a
link where nothing is due and nothing was sent, every turn is silent.
-/

namespace Engine.Shows

variable {engine : Engine} {setting : Setting} {nextId : MessageId} {scene : Scene}
variable {message : Message} {hooks : Hooks} {bytes : List UInt8}

/--
A short message that is alone in the queue is sent; unless
confirmable, it is done then.
-/
theorem pollAll_of_single
    (shows : engine.Shows setting nextId scene)
    (patient : setting.pool.IsPatient)
    (waits : 0 < setting.pool.resendWait message)
    (queue_eq : scene.queue = [PoolEntry.create setting.now message hooks])
    (named_eq : scene.named = some message.id)
    (key_eq : message.key = setting.token)
    (short : message.bodyLength ≤ setting.arq.maxPayload)
    (routed : message.target? = some setting.peer)
    (written : Wire.encode message = .ok bytes) :
    (engine.pollAll Link.pollLimit).2.Shows setting nextId
      (if message.kind = .confirmable then
          { scene with
            queue :=
              [(PoolEntry.create setting.now message hooks).handedOut setting.now]
            sent := scene.sent ++ [⟨setting.peer, bytes⟩] }
        else
          { scene with
            queue := []
            named := none
            sent := scene.sent ++ [⟨setting.peer, bytes⟩] }) := by
  have alone : scene.queue =
      [] ++ PoolEntry.create setting.now message hooks :: [] := queue_eq
  obtain ⟨handedOut, polled, showsHandedOut⟩ :=
    shows.poll_of_due alone (by simp)
      (PoolEntry.decision_create patient message hooks)
  have single := showsHandedOut.needsTransfer_of_short key_eq short
  have dispatched := showsHandedOut.dispatch_of_single key_eq single routed written
  have again (later : Scene)
      (showsLater : (handedOut.dispatch message).Shows setting nextId later)
      (rests : ∀ entry ∈ later.queue,
        entry.decision setting.pool setting.now = .rest) :
      (engine.pollAll Link.pollLimit).2.Shows setting nextId later := by
    have due : engine.poll = (true, handedOut.dispatch message) := polled
    rw [Link.pollLimit_eq, Engine.pollAll_of_poll due,
      Engine.pollAll_of_silent (showsLater.poll_of_resting rests)]
    exact showsLater
  by_cases confirmable : message.kind = .confirmable
  · rw [if_pos confirmable] at dispatched ⊢
    refine again _ dispatched fun entry member => ?_
    rw [List.mem_singleton.mp member]
    exact PoolEntry.decision_handedOut patient waits hooks
  · rw [if_neg confirmable] at dispatched ⊢
    refine again _ ?_ (by simp)
    simpa [named_eq, Option.filter_some, PoolEntry.create,
      PoolEntry.handedOut, Pool.idOf] using dispatched

end Engine.Shows

namespace Link

variable {link : Link} {side : Side} {near far : Setting} {nearId farId : MessageId}
variable {nearScene farScene : Scene}

/-- A counter that stands where a shared one would stands still. -/
theorem counterAfter_of_shared
    {nextId own : MessageId}
    (shared : link.sharesIds = true → own = nextId) :
    link.counterAfter nextId own = own := by
  unfold counterAfter
  split
  · next shares => exact (shared shares).symm
  · rfl

theorem counterAfter_eq_of_shared
    (link : Link)
    (nextId own : MessageId)
    (shared : link.sharesIds = true) :
    link.counterAfter nextId own = nextId :=
  if_pos shared

/-- An engine shows the same scene when it has followed another one. -/
theorem shows_follow
    (link : Link)
    {engine other : Engine}
    {setting : Setting}
    {own : MessageId}
    {scene : Scene}
    (shows : engine.Shows setting own scene)
    (now_eq : other.now = setting.now) :
    (link.follow other engine).Shows setting
      (link.counterAfter other.nextId own) scene := by
  unfold follow
  rw [now_eq, shows.nextId_eq]
  exact shows.follow _

/--
One side shows `nearScene` and the other one `farScene`, and a
shared counter shows the same.
-/
structure Shows
    (link : Link)
    (side : Side)
    (near far : Setting)
    (nearId farId : MessageId)
    (nearScene farScene : Scene) :
    Prop where
  near : (link.engine side).Shows near nearId nearScene
  far : (link.engine side.other).Shows far farId farScene
  shared : link.sharesIds = true → farId = nearId

namespace Shows

theorem swap (shows : link.Shows side near far nearId farId nearScene farScene) :
    link.Shows side.other far near farId nearId farScene nearScene where
  near := shows.far
  far := by
    rw [Side.other_other]
    exact shows.near
  shared shares := (shows.shared shares).symm

/-- What a call makes of the engine of one side. -/
theorem setEngine
    {engine : Engine}
    (near_shows : engine.Shows near nearId nearScene)
    (far_shows : (link.engine side.other).Shows far farId farScene)
    (now_eq : far.now = near.now) :
    (link.setEngine side engine).Shows side near far nearId
      (link.counterAfter nearId farId) nearScene farScene where
  near := by
    rw [engine_setEngine]
    exact near_shows
  far := by
    rw [engine_other_setEngine, ← near_shows.nextId_eq]
    exact link.shows_follow far_shows (near_shows.now_eq.trans now_eq.symm)
  shared shares := by
    rw [sharesIds_setEngine] at shares
    exact link.counterAfter_eq_of_shared nearId farId shares

/--
One side sends a message that is not part of a transfer, and the other one is handed
it, with an outcome that need not be known.
-/
theorem exists_turn_of_message
    (shows : link.Shows side near far nearId farId nearScene farScene)
    (now_eq : far.now = near.now)
    {polledScene : Scene}
    (polled : ((link.engine side).pollAll pollLimit).2.Shows near
      nearId polledScene)
    {bytes : List UInt8}
    (sent_eq : polledScene.sent = [⟨side.other.address, bytes⟩])
    {message : Message}
    (reading : Wire.decode bytes = .ok message)
    (windowless : message.uint? .windowSize = none)
    {Outcome : Type}
    {IsOutcome : Outcome → Prop}
    {laterScene : Outcome → Scene}
    (hands : ∀ engine : Engine, engine.Shows far farId farScene →
      ∃ outcome, IsOutcome outcome ∧
        (engine.handOver { message with address := some side.address }
          (some side.address)).2.Shows far farId (laterScene outcome)) :
    (link.turn {} side).1 ≠ [] ∧
      ∃ outcome, IsOutcome outcome ∧
        (link.turn {} side).2.Shows side near far nearId farId
          { polledScene with sent := [] }
          (laterScene outcome) := by
  have sentThere := polled.sent_eq.trans sent_eq
  have routed : ∀ datagram ∈ ((link.engine side).pollAll pollLimit).2.sent,
      datagram.target = side.other.address := by
    intro datagram member
    rw [sentThere] at member
    rw [List.mem_singleton.mp member]
  obtain ⟨carries, none_iff⟩ := turn_spec link side rfl routed
  have followed := link.shows_follow shows.far (polled.now_eq.trans now_eq.symm)
  rw [polled.nextId_eq, counterAfter_of_shared shows.shared] at followed
  obtain ⟨outcome, isOutcome, taken⟩ := hands _ followed
  have far_eq := carries.far_eq
  rw [sentThere, Engine.processAll_of_windowless reading windowless] at far_eq
  rw [← far_eq] at taken
  refine ⟨fun none => ?_, outcome, isOutcome, ⟨?_, taken, ?_⟩⟩
  · rw [none_iff.mp none] at sentThere
    cases sentThere
  · have back := link.shows_follow polled.carriedAway (taken.now_eq.trans now_eq)
    rw [taken.nextId_eq,
      counterAfter_of_shared fun shares => (shows.shared shares).symm] at back
    rw [carries.near_eq, ← carries.far_eq]
    exact back
  · rw [carries.sharesIds_eq]
    exact shows.shared

/-- The same with one outcome. -/
theorem turn_of_message
    (shows : link.Shows side near far nearId farId nearScene farScene)
    (now_eq : far.now = near.now)
    {polledScene laterScene : Scene}
    (polled : ((link.engine side).pollAll pollLimit).2.Shows near
      nearId polledScene)
    {bytes : List UInt8}
    (sent_eq : polledScene.sent = [⟨side.other.address, bytes⟩])
    {message : Message}
    (reading : Wire.decode bytes = .ok message)
    (windowless : message.uint? .windowSize = none)
    (hands : ∀ engine : Engine, engine.Shows far farId farScene →
      (engine.handOver { message with address := some side.address }
        (some side.address)).2.Shows far farId laterScene) :
    (link.turn {} side).1 ≠ [] ∧
      (link.turn {} side).2.Shows side near far nearId farId
        { polledScene with sent := [] }
        laterScene := by
  have handsAlone (engine : Engine)
      (showsEngine : engine.Shows far farId farScene) :
      ∃ outcome : Unit, outcome = () ∧
        (engine.handOver { message with address := some side.address }
          (some side.address)).2.Shows far farId laterScene :=
    ⟨(), rfl, hands engine showsEngine⟩
  obtain ⟨carries, _, _, turned⟩ :=
    shows.exists_turn_of_message now_eq polled sent_eq reading windowless handsAlone
  exact ⟨carries, turned⟩

/-- A side on which nothing is due has nothing to carry. -/
theorem turn_of_resting
    (shows : link.Shows side near far nearId farId nearScene farScene)
    (now_eq : far.now = near.now)
    (rests : ∀ entry ∈ nearScene.queue, entry.decision near.pool near.now = .rest)
    (unsent : nearScene.sent = []) :
    link.turn {} side = ([], link) := by
  refine turn_of_silent ⟨?_, fun shares => ?_⟩ (shows.near.poll_of_resting rests) ?_
  · rw [shows.far.now_eq, shows.near.now_eq, now_eq]
  · rw [shows.far.nextId_eq, shows.near.nextId_eq, shows.shared shares]
  · rw [shows.near.sent_eq, unsent]

/-- A link settles at once if nothing is due on either side. -/
theorem silent
    (shows : link.Shows side near far nearId farId nearScene farScene)
    (now_eq : far.now = near.now)
    (nearRests : ∀ entry ∈ nearScene.queue,
      entry.decision near.pool near.now = .rest)
    (farRests : ∀ entry ∈ farScene.queue, entry.decision far.pool far.now = .rest)
    (nearUnsent : nearScene.sent = [])
    (farUnsent : farScene.sent = []) :
    ∀ other, link.turn {} other = ([], link) := by
  have first := shows.turn_of_resting now_eq nearRests nearUnsent
  have second := shows.swap.turn_of_resting now_eq.symm farRests farUnsent
  intro other
  cases side <;> cases other <;> assumption

end Shows

end Link

end Coap
