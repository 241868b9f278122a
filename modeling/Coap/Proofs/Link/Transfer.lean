import Mathlib.Tactic.Common
import Coap.Proofs.Engine.Departure
import Coap.Proofs.Engine.Receiving
import Coap.Proofs.Link.Scene

namespace Coap.Link

/-!
# A parcel over a link

In a turn of the sending side all fragments that its window lets out are carried, in
the next turn their acknowledgements are. Then the window has moved on by its whole
length, and after finitely many rounds by the length of the parcel.
-/

/-- A side sends a parcel that the other one takes in. -/
structure Delivers
    (side : Side)
    (parcel : Parcel)
    (recipient : Recipient) :
    Prop where
  sound : parcel.IsSound
  suits : parcel.Suits recipient
  target_eq : parcel.setting.peer = side.other.address
  source_eq : recipient.setting.peer = side.address
  now_eq : recipient.setting.now = parcel.setting.now

/-- What settles after `later` settles after `link`, from the turn of a side on. -/
def LeadsTo
    (side : Side)
    (link later : Link) :
    Prop :=
  ∀ final, SettlesFrom side later final → SettlesFrom side link final

/--
The recipient takes in a parcel; a counter that the sides share stands at `nextId`.
-/
def Receives
    (link : Link)
    (parcel : Parcel)
    (recipient : Recipient)
    (engine : Engine)
    (nextId : MessageId)
    (count : Nat)
    (datagrams : List Datagram) :
    Prop :=
  ∃ own, (link.sharesIds = true → own = nextId) ∧
    parcel.IsTakenIn recipient engine own count datagrams

/--
The blocks before `count` are confirmed, and neither side has anything to carry yet.
-/
structure HasCarried
    (link : Link)
    (side : Side)
    (parcel : Parcel)
    (recipient : Recipient)
    (count : Nat) :
    Prop where
  sends : parcel.IsUnderWay (link.engine side) count count []
  receives : link.Receives parcel recipient (link.engine side.other)
    (parcel.idAt (parcel.released count)) count []

/--
The next polls send what stands before the fragments, and all that
the window lets out.
-/
structure IsReleasing
    (link : Link)
    (side : Side)
    (parcel : Parcel)
    (recipient : Recipient)
    (first : Nat)
    (before fragments : List Datagram) :
    Prop where
  sends :
    parcel.IsSending ((link.engine side).pollAll pollLimit).2 first
      (parcel.released first) (before ++ fragments)
  areFragments :
    List.Forall₂ parcel.IsDatagramOf
      (List.range' first (parcel.released first - first)) fragments
  routed : ∀ datagram ∈ before, datagram.target = parcel.setting.peer
  receives :
    link.Receives parcel recipient
      ((link.follow ((link.engine side).pollAll pollLimit).2
        (link.engine side.other)).processAll recipient.setting.peer before)
      (parcel.idAt (parcel.released first)) first []

variable {link : Link} {side : Side} {parcel : Parcel} {recipient : Recipient}
variable {first : Nat}
variable {before fragments acks : List Datagram}

/-! ## Following the other side -/

/-- A recipient goes on when it has followed the other side. -/
theorem isTakenIn_follow
    (link : Link)
    (suits : parcel.Suits recipient)
    {engine other : Engine}
    {own : MessageId}
    {count : Nat}
    {datagrams : List Datagram}
    (isTakenIn : parcel.IsTakenIn recipient engine own count datagrams)
    (now_eq : other.now = recipient.setting.now) :
    parcel.IsTakenIn recipient (link.follow other engine)
      (link.counterAfter other.nextId own)
      count datagrams := by
  obtain ⟨scene, shows, _⟩ := isTakenIn.exists_shows suits
  unfold follow
  rw [now_eq, shows.nextId_eq]
  exact isTakenIn.follow _

theorem Receives.follow
    (suits : parcel.Suits recipient)
    {engine other : Engine}
    {nextId : MessageId}
    {count : Nat}
    {datagrams : List Datagram}
    (receives : link.Receives parcel recipient engine nextId count datagrams)
    (now_eq : other.now = recipient.setting.now) :
    link.Receives parcel recipient
      (link.follow other engine) other.nextId count datagrams := by
  obtain ⟨own, _, isTakenIn⟩ := receives
  exact ⟨_, link.counterAfter_eq_of_shared other.nextId own,
    link.isTakenIn_follow suits isTakenIn now_eq⟩

/--
A sender goes on when it has followed a side that has drawn
nothing from a shared counter.
-/
theorem isSending_follow
    {engine other : Engine}
    {sent : Nat}
    {datagrams : List Datagram}
    (isSending : parcel.IsSending engine first sent datagrams)
    (now_eq : other.now = parcel.setting.now)
    (shared : link.sharesIds = true →
      other.nextId = parcel.idAt (parcel.released first)) :
    parcel.IsSending (link.follow other engine) first sent datagrams := by
  obtain ⟨transfer, carried, named, shows⟩ := isSending
  have followed := link.shows_follow shows now_eq
  rw [counterAfter_of_shared fun shares => (shared shares).symm] at followed
  exact ⟨transfer, carried, named, followed⟩

/-! ## Turns -/

theorem target_of_forall₂
    {relation : Nat → Datagram → Prop}
    {target : SocketAddress}
    (routed : ∀ index datagram, relation index datagram → datagram.target = target)
    {indices : List Nat}
    {datagrams : List Datagram}
    (related : List.Forall₂ relation indices datagrams) :
    ∀ datagram ∈ datagrams, datagram.target = target := by
  induction related with
  | nil => simp
  | cons isFirst _ inductionHypothesis =>
      intro datagram member
      rcases List.mem_cons.mp member with rfl | isOther
      · exact routed _ _ isFirst
      · exact inductionHypothesis datagram isOther

/-- The turn of the sending side carries the fragments, which are acknowledged. -/
theorem IsReleasing.turn
    (releasing : link.IsReleasing side parcel recipient first before fragments)
    (delivers : Delivers side parcel recipient)
    (unfinished : first < parcel.total) :
    (link.turn {} side).1 ≠ [] ∧
    parcel.IsSending ((link.turn {} side).2.engine side) first
      (parcel.released first) [] ∧
    ∃ acks,
      List.Forall₂ (parcel.IsAckDatagramOf side.address)
        (List.range' first (parcel.released first - first)) acks ∧
      (link.turn {} side).2.Receives parcel recipient
        ((link.turn {} side).2.engine side.other)
        (parcel.idAt (parcel.released first)) (parcel.released first) acks := by
  obtain ⟨sends, areFragments, routed, own, shared, takesIn⟩ := releasing
  have grows := delivers.sound.lt_released unfinished
  have count_eq : first + (parcel.released first - first) =
      parcel.released first := by omega
  generalize polled :
    ((link.engine side).pollAll pollLimit).2 = near at sends takesIn
  obtain ⟨transfer, carried, named, shows⟩ := sends
  have sent_eq : near.sent = before ++ fragments := shows.sent_eq
  have allRouted : ∀ datagram ∈ near.sent,
      datagram.target = side.other.address := by
    rw [sent_eq, ← delivers.target_eq]
    intro datagram member
    rcases List.mem_append.mp member with isBefore | isFragment
    · exact routed datagram isBefore
    · exact target_of_forall₂
        (fun _ _ isDatagram => isDatagram.target_eq) areFragments datagram
        isFragment
  obtain ⟨carries, none_iff⟩ := turn_spec link side polled allRouted
  obtain ⟨acks, areAcks, takenIn⟩ :=
    takesIn.process_fragments delivers.sound delivers.suits _
      areFragments (by rw [count_eq]; exact parcel.released_le_total first)
  have far_eq := carries.far_eq
  rw [sent_eq, ← delivers.source_eq, Engine.processAll_append] at far_eq
  rw [count_eq, ← far_eq, List.nil_append] at takenIn
  obtain ⟨scene, showsFar, _⟩ := takenIn.exists_shows delivers.suits
  refine ⟨?_, ?_, acks, ?_, own, ?_, takenIn⟩
  · rw [ne_eq, none_iff, sent_eq]
    intro none
    have noFragment := (List.append_eq_nil_iff.mp none).2
    have lengths := areFragments.length_eq
    rw [noFragment, List.length_range', List.length_nil] at lengths
    omega
  · rw [carries.near_eq, ← carries.far_eq]
    refine isSending_follow ⟨transfer, carried, named, shows.carriedAway⟩
      (showsFar.now_eq.trans delivers.now_eq) fun shares => ?_
    rw [showsFar.nextId_eq, shared shares]
  · rw [← delivers.source_eq]
    exact areAcks
  · rw [carries.sharesIds_eq]
    exact shared

/-- The turn of the other side carries their acknowledgements. -/
theorem turn_of_acks
    (delivers : Delivers side parcel recipient)
    (grows : first < parcel.released first)
    (sends : parcel.IsSending (link.engine side) first (parcel.released first) [])
    (areAcks : List.Forall₂ (parcel.IsAckDatagramOf side.address)
      (List.range' first (parcel.released first - first)) acks)
    (receives : link.Receives parcel recipient (link.engine side.other)
      (parcel.idAt (parcel.released first)) (parcel.released first) acks) :
    (link.turn {} side.other).1 ≠ [] ∧
      (link.turn {} side.other).2.HasCarried side parcel recipient
        (parcel.released first) := by
  obtain ⟨own, shared, takenIn⟩ := receives
  obtain ⟨scene, shows, sent_eq, rests⟩ := takenIn.exists_shows delivers.suits
  have acks_eq : (link.engine side.other).sent = acks := shows.sent_eq.trans sent_eq
  have count_eq : first + (parcel.released first - first) =
      parcel.released first := by omega
  have allRouted : ∀ datagram ∈ (link.engine side.other).sent,
      datagram.target = side.other.other.address := by
    rw [acks_eq, Side.other_other]
    exact target_of_forall₂ (fun _ _ isAck => isAck.1) areAcks
  obtain ⟨carries, none_iff⟩ :=
    turn_spec link side.other
      (Engine.pollAll_of_silent (shows.poll_of_resting rests) pollLimit) allRouted
  have follows : parcel.IsSending
      (link.follow (link.engine side.other) (link.engine side)) first
      (parcel.released first) [] :=
    isSending_follow sends (shows.now_eq.trans delivers.now_eq) fun shares => by
      rw [shows.nextId_eq, shared shares]
  have bound := parcel.released_le_total first
  have underWay : parcel.IsUnderWay
      (link.follow (link.engine side.other) (link.engine side)) first
      (first + (parcel.released first - first)) [] := by
    unfold Parcel.IsUnderWay
    rw [if_pos (by omega), count_eq]
    exact follows
  have moved :=
    underWay.process_acks delivers.sound side.address side.other.address _ areAcks
      (by omega)
  have near_eq := carries.far_eq
  rw [Side.other_other, acks_eq] at near_eq
  rw [count_eq, ← near_eq] at moved
  obtain ⟨laterScene, laterShows⟩ := moved.exists_shows bound
  refine ⟨?_, moved, ?_⟩
  · rw [ne_eq, none_iff, acks_eq]
    intro none
    have lengths := areAcks.length_eq
    rw [none, List.length_range', List.length_nil] at lengths
    omega
  · have followed := link.isTakenIn_follow delivers.suits takenIn.carriedAway
      (laterShows.now_eq.trans delivers.now_eq.symm)
    have far_eq := carries.near_eq
    rw [← carries.far_eq, Side.other_other] at far_eq
    rw [← far_eq] at followed
    refine ⟨_, fun shares => ?_, followed⟩
    rw [carries.sharesIds_eq] at shares
    rw [link.counterAfter_eq_of_shared _ _ shares, laterShows.nextId_eq]

/-- Both turns together move the window on by its whole length. -/
theorem IsReleasing.exists_later
    (releasing : link.IsReleasing side parcel recipient first before fragments)
    (delivers : Delivers side parcel recipient)
    (unfinished : first < parcel.total) :
    ∃ later, LeadsTo side link later ∧
      later.HasCarried side parcel recipient (parcel.released first) := by
  obtain ⟨carriesFragments, sends, acks, areAcks, receives⟩ :=
    releasing.turn delivers unfinished
  obtain ⟨carriesAcks, hasCarried⟩ :=
    turn_of_acks delivers
      (delivers.sound.lt_released unfinished) sends areAcks receives
  refine ⟨_, ?_, hasCarried⟩
  intro final settles
  refine SettlesFrom.of_turn carriesFragments (SettlesFrom.of_turn carriesAcks ?_)
  rw [Side.other_other]
  exact settles

/-! ## Windows -/

/-- A window that waits is sent by the next polls. -/
theorem HasCarried.isReleasing
    (hasCarried : link.HasCarried side parcel recipient first)
    (delivers : Delivers side parcel recipient)
    (unfinished : first < parcel.total) :
    ∃ fragments, link.IsReleasing side parcel recipient first [] fragments := by
  obtain ⟨sends, receives⟩ := hasCarried
  unfold Parcel.IsUnderWay at sends
  rw [if_pos unfinished] at sends
  have small := Parcel.released_lt delivers.sound first
  have enough : parcel.released first - first < pollLimit := by
    unfold pollLimit
    omega
  have grows := delivers.sound.lt_released unfinished
  obtain ⟨fragments, sendsAll, areFragments⟩ :=
    sends.pollAll delivers.sound (Nat.le_refl first) (Nat.le_of_lt grows) enough
  obtain ⟨transfer, carried, named, shows⟩ := sendsAll
  have followed :=
    receives.follow delivers.suits (shows.now_eq.trans delivers.now_eq.symm)
  rw [shows.nextId_eq] at followed
  exact ⟨fragments, ⟨transfer, carried, named, shows⟩,
    areFragments, by simp, followed⟩

theorem LeadsTo.trans
    {middle later : Link}
    (first : LeadsTo side link middle)
    (second : LeadsTo side middle later) :
    LeadsTo side link later :=
  fun final settles => first final (second final settles)

/-- Window by window the whole parcel is carried. -/
theorem HasCarried.exists_last
    (hasCarried : link.HasCarried side parcel recipient first)
    (delivers : Delivers side parcel recipient)
    (bound : first ≤ parcel.total) :
    ∃ last, LeadsTo side link last ∧
      last.HasCarried side parcel recipient parcel.total := by
  -- each window leaves fewer blocks to be carried
  induction remaining : parcel.total - first using Nat.strong_induction_on
    generalizing link first with
  | _ remaining inductionHypothesis =>
      subst remaining
      rcases Nat.lt_or_eq_of_le bound with unfinished | rfl
      · obtain ⟨fragments, releasing⟩ := hasCarried.isReleasing delivers unfinished
        obtain ⟨later, leads, carriedMore⟩ :=
          releasing.exists_later delivers unfinished
        have grows := delivers.sound.lt_released unfinished
        obtain ⟨last, leadsOn, carriedAll⟩ :=
          inductionHypothesis (parcel.total - parcel.released first)
            (by omega) carriedMore (parcel.released_le_total first) rfl
        exact ⟨last, leads.trans leadsOn, carriedAll⟩
      · exact ⟨link, fun _ settles => settles, hasCarried⟩

/-- From the first window on the whole parcel is carried. -/
theorem IsReleasing.exists_last
    (releasing : link.IsReleasing side parcel recipient 0 before fragments)
    (delivers : Delivers side parcel recipient) :
    ∃ last, LeadsTo side link last ∧
      last.HasCarried side parcel recipient parcel.total := by
  have more : 0 < parcel.total :=
    Nat.lt_of_succ_lt (Parcel.one_lt_total delivers.sound)
  obtain ⟨later, leads, hasCarried⟩ := releasing.exists_later delivers more
  obtain ⟨last, leadsOn, carriedAll⟩ :=
    hasCarried.exists_last delivers (parcel.released_le_total 0)
  exact ⟨last, leads.trans leadsOn, carriedAll⟩

/--
In the end the whole message waits for its answer, and the other
side has handed it over.
-/
theorem HasCarried.delivered
    (hasCarried : link.HasCarried side parcel recipient parcel.total) :
    ∃ message own, parcel.IsHandedOver recipient message ∧
      link.Shows side parcel.setting recipient.setting
        (parcel.idAt parcel.total) own
        { parcel.rest with
          queue := [(PoolEntry.create parcel.setting.now parcel.whole
            parcel.hooks).suppressed]
          named := some parcel.whole.id
          watched := []
          sending := none
          sent := [] }
        { recipient.done message with sent := [] } := by
  obtain ⟨finished, own, shared, takenIn⟩ := hasCarried
  have released_eq : parcel.released parcel.total = parcel.total := by
    unfold Parcel.released
    omega
  unfold Parcel.IsUnderWay at finished
  unfold Parcel.IsTakenIn at takenIn
  rw [if_neg (Nat.lt_irrefl _)] at finished takenIn
  rw [released_eq] at shared
  obtain ⟨message, isHandedOver, shows⟩ := takenIn
  exact ⟨message, own, isHandedOver, finished, shows, shared⟩

/-! ## Departures -/

/-- A side that is at rest is ready for the first block. -/
theorem isTakenIn_zero
    {engine : Engine}
    {nextId : MessageId}
    (delivers : Delivers side parcel recipient)
    (shows : engine.Shows recipient.setting nextId
      { recipient.rest with
        receiving := none
        sent := [] }) :
    parcel.IsTakenIn recipient engine nextId 0 [] := by
  unfold Parcel.IsTakenIn
  rw [if_pos (Nat.lt_of_succ_lt (Parcel.one_lt_total delivers.sound))]
  exact ⟨none, shows,
    fun now initiating => ReceiveState.hasFirst_start now initiating _ _⟩

/-- Once its transfer has started, the first window of a parcel is sent. -/
theorem exists_fragments
    (delivers : Delivers side parcel recipient)
    {engine later : Engine}
    (polled : engine.poll = (true, later))
    (isSending : parcel.IsSending later 0 0 before) :
    ∃ fragments,
      parcel.IsSending (engine.pollAll pollLimit).2 0 (parcel.released 0)
        (before ++ fragments) ∧
      List.Forall₂ parcel.IsDatagramOf
        (List.range' 0 (parcel.released 0 - 0)) fragments := by
  have small := Parcel.released_lt delivers.sound 0
  have enough : parcel.released 0 - 0 < pollLimit - 1 := by
    unfold pollLimit
    omega
  obtain ⟨fragments, sendsAll, areFragments⟩ :=
    isSending.pollAll delivers.sound (Nat.le_refl 0) (Nat.zero_le _) enough
  rw [← Engine.pollAll_of_poll polled, ← pollLimit_eq] at sendsAll
  exact ⟨fragments, sendsAll, areFragments⟩

/-- A confirmable message departs. -/
theorem exists_isReleasing_of_confirmable
    (delivers : ∀ serial, Delivers side { parcel with serial := serial } recipient)
    (isPosted : parcel.IsPosted (link.engine side) parcel.whole [])
    {farId : MessageId}
    (shows : (link.engine side.other).Shows recipient.setting farId
      { recipient.rest with
        receiving := none
        sent := [] }) :
    ∃ serial fragments,
      link.IsReleasing side { parcel with serial := serial } recipient 0
        [] fragments := by
  obtain ⟨serial, later, polled, isSending⟩ :=
    isPosted.poll_of_confirmable (delivers parcel.serial).sound
  obtain ⟨fragments, ⟨transfer, carried, named, sends⟩, areFragments⟩ :=
    exists_fragments (delivers serial) polled isSending
  have followed :=
    link.shows_follow shows (sends.now_eq.trans (delivers serial).now_eq.symm)
  exact ⟨serial, fragments, ⟨transfer, carried, named, sends⟩, areFragments, by
    simp, _, fun shared => (link.counterAfter_eq_of_shared _ farId shared).trans
      sends.nextId_eq, isTakenIn_zero (delivers serial) followed⟩

/--
An acknowledgement departs behind its notice, and the other side stops asking.
-/
theorem exists_isReleasing_of_acknowledgement
    (delivers : ∀ serial, Delivers side { parcel with serial := serial } recipient)
    {message : Message}
    (whole_eq : Engine.transferMessage message = parcel.whole)
    (isAck : message.kind = .acknowledgement)
    (plain : message.IsPlain)
    (readable : Wire.IsReadable message)
    (apart : parcel.released 0 ≤ (message.id - parcel.base).toNat)
    (isPosted : parcel.IsPosted (link.engine side) message [])
    {entry : PoolEntry}
    (queue_eq : recipient.rest.queue = [entry.suppressed])
    (named_eq : recipient.rest.named = some (Pool.idOf entry))
    {farId : MessageId}
    (shows : (link.engine side.other).Shows recipient.setting farId
      { recipient.rest with
        queue := [entry]
        receiving := none
        sent := [] }) :
    ∃ serial notice fragments,
      link.IsReleasing side { parcel with serial := serial } recipient 0
        [notice] fragments := by
  obtain ⟨serial, notice, later, isNotice, polled, isSending⟩ :=
    isPosted.poll_of_acknowledgement
      (delivers parcel.serial).sound whole_eq isAck plain readable apart
  obtain ⟨fragments, ⟨transfer, carried, named, sends⟩, areFragments⟩ :=
    exists_fragments (delivers serial) polled isSending
  have followed :=
    link.shows_follow shows (sends.now_eq.trans (delivers serial).now_eq.symm)
  obtain ⟨received, window, reading, token_eq, windowed,
    announces⟩ := isNotice.reads
  have key_eq : received.key = recipient.setting.token := by
    rw [(delivers serial).suits.token_eq, ← (delivers serial).sound.key_eq]
    exact Message.key_eq token_eq
  refine ⟨serial, notice, fragments, ⟨transfer, carried, named, sends⟩,
    areFragments, ?_, _, fun shared =>
    (link.counterAfter_eq_of_shared _ farId shared).trans sends.nextId_eq, ?_⟩
  · intro datagram member
    rw [List.mem_singleton.mp member]
    exact isNotice.target_eq
  · rw [Engine.processAll_cons, Engine.process_of_notice reading windowed announces]
    refine isTakenIn_zero (delivers serial) ?_
    have alone : [entry] = [] ++ entry :: [] := rfl
    have suppressed := followed.suppress alone named_eq
      (key_eq : { received with address := some recipient.setting.peer }.key = _)
    rw [List.nil_append, ← queue_eq] at suppressed
    exact suppressed

end Coap.Link
