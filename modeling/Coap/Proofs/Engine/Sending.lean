import Mathlib.Data.List.Range
import Mathlib.Tactic.Common
import Coap.Proofs.Engine.Dispatch
import Coap.Proofs.Engine.Parcel

namespace Coap.Parcel

/-!
# Sending a parcel in order

A poll sends the next fragment that waits, and the acknowledgement of the first
unconfirmed block lets the window move on by one. The last acknowledgement ends the
transfer, and the whole message waits in the queue for its answer.
-/

/--
The transfer state has confirmed the blocks before `first` and
released those before `last`.
-/
structure IsTrackedBy
    (parcel : Parcel)
    (state : SendState)
    (first last : Nat) :
    Prop where
  data_eq : state.data = parcel.whole.body
  blockSize_eq : state.blockSize = parcel.setting.arq.maxPayload
  whole_eq : state.whole = parcel.whole
  window_eq : state.windowSize = parcel.window
  tracks : state.Tracks last fun number => number < first
  reaches : state.Reaches fun number => number < first

/-- The same for a transfer with everything that belongs to it. -/
structure IsCarriedBy
    (parcel : Parcel)
    (transfer : OutboundTransfer)
    (first last : Nat) :
    Prop where
  tracked : parcel.IsTrackedBy transfer.state first last
  hooks_eq : transfer.hooks = parcel.hooks
  serial_eq : transfer.serial = parcel.serial
  inFlight_eq : transfer.inFlight =
    (List.range' first (last - first)).map parcel.idAt

variable {parcel : Parcel} {transfer : OutboundTransfer} {state : SendState}
variable {first sent last : Nat}

/-! ## Cutting -/

namespace IsTrackedBy

theorem first_le (tracked : parcel.IsTrackedBy state first last) :
    first ≤ last := by
  by_contra beyond
  have below := tracked.tracks.confirmed_lt last (Nat.not_le.mp beyond)
  exact Nat.lt_irrefl last below

theorem total_eq (tracked : parcel.IsTrackedBy state first last) :
    state.total = parcel.total := by
  unfold SendState.total
  rw [tracked.data_eq, tracked.blockSize_eq]
  rfl

theorem blockAt_eq
    (tracked : parcel.IsTrackedBy state first last)
    (number : Nat) :
    state.blockAt number = parcel.start.blockAt number := by
  unfold SendState.blockAt
  rw [tracked.data_eq, tracked.blockSize_eq]
  rfl

theorem fragmentOf_eq
    (tracked : parcel.IsTrackedBy state first last)
    (block : Block)
    (id : MessageId) :
    Engine.fragmentOf state block id = Engine.fragmentOf parcel.start block id := by
  unfold Engine.fragmentOf
  dsimp only
  rw [tracked.whole_eq, tracked.window_eq]
  rfl

/-- Where the confirmed blocks end is a machine word. -/
theorem word_eq
    (tracked : parcel.IsTrackedBy state first last)
    (sound : parcel.IsSound) :
    SendState.word state.data.length (state.confirmedCount * state.blockSize) =
      state.confirmedCount * state.blockSize := by
  have long : state.blockSize < state.data.length := by
    rw [tracked.blockSize_eq, tracked.data_eq]
    exact sound.long
  have positive : 0 < state.blockSize := tracked.blockSize_eq ▸ sound.positive
  refine SendState.word_of_lt_twice
    (tracked.reaches.end_lt (by omega) fun number known => ?_)
  have inside : number < state.total :=
    Nat.lt_of_lt_of_le
      (tracked.tracks.confirmed_lt number known) tracked.tracks.released_le_total
  have begins : number * state.blockSize < state.data.length := by
    by_contra past
    have ends := (SendState.length_le_mul_iff _ _ positive).mp (Nat.not_lt.mp past)
    exact Nat.not_le.mpr inside ends
  rw [Nat.succ_mul]
  omega

/-- The counters do not matter. -/
theorem with_stats
    (tracked : parcel.IsTrackedBy state first last)
    (stats : TransferStats) :
    parcel.IsTrackedBy { state with stats := stats } first last :=
  { tracked with tracks := { tracked.tracks with }, reaches := tracked.reaches }

/-- A pop releases the next block if the window lets it out. -/
theorem pop?
    (tracked : parcel.IsTrackedBy state first last)
    (positive : 0 < parcel.setting.arq.maxPayload) :
    ∃ after,
      state.pop? =
        (if last < parcel.released first then some (parcel.start.blockAt last)
          else none, after) ∧
      parcel.IsTrackedBy after first
        (if last < parcel.released first then last + 1 else last) := by
  have blockPositive : 0 < state.blockSize := tracked.blockSize_eq ▸ positive
  have least : IsLeast { number | ¬ number < first } first :=
    ⟨Nat.lt_irrefl first, fun number beyond => Nat.not_lt.mp beyond⟩
  have isSome_iff := tracked.tracks.pop?_isSome_iff blockPositive least
  have isReleased : state.pop?.1.isSome ↔ last < parcel.released first := by
    have size_eq : state.window.size = parcel.window := tracked.window_eq
    rw [isSome_iff, tracked.total_eq, size_eq]
    unfold released
    omega
  have after := tracked.tracks.pop?_snd blockPositive
  obtain ⟨data_eq, blockSize_eq, whole_eq, size_eq⟩ := state.pop?_frame
  have popped : state.pop?.1 =
      if last < parcel.released first then some (parcel.start.blockAt last)
      else none := by
    split
    · next more =>
        obtain ⟨block, isBlock⟩ := Option.isSome_iff_exists.mp (isReleased.mpr more)
        have inside : last < state.total := by
          rw [tracked.total_eq]
          exact Nat.lt_of_lt_of_le more (parcel.released_le_total first)
        have found := tracked.tracks.block?_of_pop? blockPositive isBlock
        rw [SendState.block?_eq_blockAt blockPositive inside] at found
        rw [isBlock, ← found, tracked.blockAt_eq]
    · next no =>
        rw [← Option.not_isSome_iff_eq_none, isReleased]
        exact no
  refine ⟨state.pop?.2, Prod.ext popped rfl, ?_⟩
  refine ⟨data_eq.trans tracked.data_eq, blockSize_eq.trans tracked.blockSize_eq,
    whole_eq.trans tracked.whole_eq, size_eq.trans tracked.window_eq, ?_,
    tracked.reaches.pop?⟩
  rw [popped] at after
  by_cases more : last < parcel.released first
  · rw [if_pos more] at after ⊢
    exact after
  · rw [if_neg more] at after ⊢
    exact after

end IsTrackedBy

theorem window_lt
    (sound : parcel.IsSound) :
    parcel.window < 2 ^ 16 := by
  rw [window_eq sound]
  exact Nat.lt_of_le_of_lt (Nat.min_le_left _ _) sound.windowSmall

/-- Cutting releases all blocks that the window lets out. -/
theorem cutWithin_spec
    (sound : parcel.IsSound)
    (room : Nat)
    (carried : parcel.IsCarriedBy transfer first last)
    (bound : last ≤ parcel.released first)
    (enough : parcel.released first - last < room) :
    let cutting :=
      Engine.cutWithin parcel.setting.token room transfer (parcel.idAt last)
    cutting.fragments =
      (List.range' last (parcel.released first - last)).map parcel.fragment ∧
      parcel.IsCarriedBy cutting.transfer first (parcel.released first) ∧
      cutting.nextId = parcel.idAt (parcel.released first) := by
  induction room generalizing transfer last with
  | zero => exact (Nat.not_lt_zero _ enough).elim
  | succ room inductionHypothesis =>
      obtain ⟨after, popped, tracked⟩ := carried.tracked.pop? sound.positive
      have first_le := carried.tracked.first_le
      dsimp only
      unfold Engine.cutWithin
      by_cases more : last < parcel.released first
      · rw [if_pos more] at popped tracked
        have small := window_lt sound
        have reach : parcel.released first ≤ first + parcel.window :=
          Nat.min_le_left _ _
        have new : parcel.idAt last ∉ transfer.inFlight := by
          rw [carried.inFlight_eq]
          exact idAt_not_mem (by omega) (.inr (by omega)) (by omega)
        have fragment_eq :
            Engine.fragmentOf after (parcel.start.blockAt last) (parcel.idAt last) =
              (parcel.fragment last).message :=
          tracked.fragmentOf_eq _ _
        have hooks_eq :
            ({ onResend :=
                 some (.transfer parcel.setting.token transfer.serial) } : Hooks) =
              (parcel.fragment last).hooks := by
          rw [carried.serial_eq]
          rfl
        have appended : transfer.inFlight ++ [parcel.idAt last] =
            (List.range' first (last + 1 - first)).map parcel.idAt := by
          have length_eq : last + 1 - first = (last - first) + 1 := by omega
          have end_eq : first + 1 * (last - first) = last := by omega
          rw [carried.inFlight_eq, length_eq, List.range'_concat,
            List.map_append, end_eq]
          rfl
        have grown : parcel.IsCarriedBy
            { transfer with
              state := after.onMessage
              inFlight :=
                transfer.inFlight ++ [parcel.idAt last] } first (last + 1) :=
          ⟨tracked.with_stats _, carried.hooks_eq, carried.serial_eq, appended⟩
        obtain ⟨fragments_eq, others, nextId_eq⟩ :=
          inductionHypothesis grown (by omega) (by omega)
        rw [idAt_succ] at fragments_eq others nextId_eq
        have count_eq : parcel.released first - last =
            parcel.released first - (last + 1) + 1 := by
          omega
        rw [popped]
        dsimp only
        rw [if_neg new, fragment_eq, hooks_eq, count_eq, List.range'_succ,
          List.map_cons, fragments_eq]
        exact ⟨rfl, others, nextId_eq⟩
      · rw [if_neg more] at popped tracked
        have all : last = parcel.released first := by omega
        rw [popped]
        dsimp only
        rw [← all, Nat.sub_self]
        exact ⟨rfl, ⟨tracked, carried.hooks_eq, carried.serial_eq,
          carried.inFlight_eq⟩, rfl⟩

/-- The window has room for all its fragments. -/
theorem cut_spec
    (sound : parcel.IsSound)
    (carried : parcel.IsCarriedBy transfer first last)
    (bound : last ≤ parcel.released first) :
    let cutting := Engine.cut parcel.setting.token transfer (parcel.idAt last)
    cutting.fragments =
      (List.range' last (parcel.released first - last)).map parcel.fragment ∧
      parcel.IsCarriedBy cutting.transfer first (parcel.released first) ∧
      cutting.nextId = parcel.idAt (parcel.released first) := by
  refine cutWithin_spec sound _ carried bound ?_
  have first_le := carried.tracked.first_le
  have reach : parcel.released first ≤ first + parcel.window := Nat.min_le_left _ _
  rw [carried.tracked.window_eq]
  omega

/-! ## What a sending side shows -/

/--
The fragments from `first` on, up to `last`, are queued, and those
before `sent` were sent.
-/
def IsQueued
    (parcel : Parcel)
    (engine : Engine)
    (first sent last : Nat)
    (nextId : MessageId)
    (sending : Option OutboundTransfer)
    (datagrams : List Datagram) :
    Prop :=
  ∃ named,
    engine.Shows parcel.setting nextId
      { parcel.rest with
        queue := parcel.queue first sent last
        named := named
        watched := parcel.watched first last
        sending := sending
        sent := datagrams }

/--
The blocks before `first` are confirmed, those before `sent` sent,
and the window is full.
-/
def IsSending
    (parcel : Parcel)
    (engine : Engine)
    (first sent : Nat)
    (datagrams : List Datagram) :
    Prop :=
  ∃ transfer,
    parcel.IsCarriedBy transfer first (parcel.released first) ∧
      parcel.IsQueued engine first sent (parcel.released first)
        (parcel.idAt (parcel.released first)) (some transfer) datagrams

variable {engine : Engine} {nextId : MessageId} {sending : Option OutboundTransfer}
variable {datagrams : List Datagram}

theorem key_fragment
    (sound : parcel.IsSound)
    (index : Nat) :
    (parcel.fragment index).message.key = parcel.setting.token := by
  rw [fragment_eq sound.plain, ← sound.key_eq]
  rfl

/-- No fragment waits for long. -/
theorem spans_fragment
    (sound : parcel.IsSound)
    (index : Nat) :
    parcel.setting.pool.Spans (parcel.fragment index).message := by
  rw [fragment_eq sound.plain]
  exact fun isLong => absurd isLong Bool.false_ne_true

theorem resendWait_fragment_pos
    (sound : parcel.IsSound)
    (index : Nat) :
    0 < parcel.setting.pool.resendWait (parcel.fragment index).message := by
  rw [fragment_eq sound.plain]
  exact sound.patient.resendPeriod

/-- The fragments that were cut join the queue. -/
theorem IsQueued.dispatchFragments
    (sound : parcel.IsSound)
    (queued : parcel.IsQueued engine first sent last nextId sending datagrams)
    (firstLe : first ≤ sent)
    (sentLe : sent ≤ last)
    (count : Nat)
    (small : last + count ≤ first + parcel.window) :
    parcel.IsQueued
      (engine.dispatchFragments parcel.setting.token
        ((List.range' last count).map parcel.fragment))
      first sent (last + count) nextId sending datagrams := by
  induction count generalizing engine last with
  | zero => exact queued
  | succ count inductionHypothesis =>
      obtain ⟨named, shows⟩ := queued
      have windowSmall := window_lt sound
      have windowLe : parcel.window ≤ parcel.setting.arq.windowSize := by
        rw [window_eq sound]
        exact Nat.min_le_left _ _
      have room := sound.room
      have id_eq : (parcel.fragment last).message.id = parcel.idAt last :=
        Engine.id_fragmentOf _ _ _
      have new : parcel.idAt last ∉
          (List.range' first (last - first)).map parcel.idAt :=
        idAt_not_mem (by omega) (.inr (by omega)) (by omega)
      have unwatched :
          parcel.idAt last ∉ Table.keys (parcel.watched first last) := by
        rw [keys_watched]
        exact new
      have unqueued :
          (parcel.fragment last).message.id ∉
            (parcel.queue first sent last).map Pool.idOf := by
        rw [ids_queue parcel firstLe sentLe, id_eq]
        exact new
      have hasRoom :
          (parcel.queue first sent last).length < parcel.setting.pool.capacity := by
        rw [length_queue firstLe sentLe]
        omega
      have registered := shows.register unwatched
        (.fragment parcel.setting.token (parcel.fragment last).blockNumber)
      have added :=
        registered.enqueue (key_fragment sound last) (spans_fragment sound last)
          unqueued hasRoom (parcel.fragment last).hooks
      have grown : parcel.IsQueued
          ((engine.register (parcel.fragment last).message.id
              (.fragment parcel.setting.token
                (parcel.fragment last).blockNumber)).enqueue
            (parcel.fragment last).message (parcel.fragment last).hooks)
          first sent (last + 1) nextId sending datagrams := by
        refine ⟨named.or (some (parcel.fragment last).message.id), ?_⟩
        rw [queue_succ parcel first sentLe,
          watched_succ parcel (Nat.le_trans firstLe sentLe), id_eq]
        rw [id_eq] at added
        exact added
      have others := inductionHypothesis grown (by omega) (by omega)
      rw [List.range'_succ, List.map_cons, Nat.add_comm count 1, ← Nat.add_assoc]
      exact others

/-- The first fragments of a new transfer. -/
theorem isSending_startTransfer
    (sound : parcel.IsSound)
    (serial_eq : parcel.serial = engine.nextSerial)
    (shows : engine.Shows parcel.setting parcel.base
      { parcel.rest with
        queue := []
        named := none
        watched := []
        sending := none
        sent := datagrams }) :
    parcel.IsSending
      (engine.startTransfer parcel.setting.token parcel.start parcel.hooks) 0 0
      datagrams := by
  have base_eq : parcel.base = parcel.idAt 0 := by
    simp [idAt]
  have untouched : (fun number : Nat => number < 0) = fun _ => False := by
    funext number
    simp
  have carried : parcel.IsCarriedBy
      { state := parcel.start
        hooks := parcel.hooks
        serial := parcel.serial } 0 0 := by
    refine ⟨⟨rfl, rfl, rfl, rfl, ?_, ?_⟩, rfl, rfl, rfl⟩
    · rw [untouched]
      exact SendState.tracks_start _ _ _ _ _
    · rw [untouched]
      exact SendState.reaches_start _ _ _ _ _
  obtain ⟨fragments_eq, carriedOn, nextId_eq⟩ :=
    cut_spec sound carried (Nat.zero_le _)
  have reach : parcel.released 0 ≤ 0 + parcel.window := Nat.min_le_left _ _
  unfold Engine.startTransfer
  dsimp only
  rw [← serial_eq, shows.nextId_eq, base_eq, fragments_eq, nextId_eq,
    shows.outgoing_eq]
  generalize (Engine.cut parcel.setting.token
    { state := parcel.start
      hooks := parcel.hooks
      serial := parcel.serial } (parcel.idAt 0)).transfer = transfer at carriedOn ⊢
  refine ⟨transfer, carriedOn, ?_⟩
  have stored : parcel.IsQueued
      { engine with
        nextSerial := parcel.serial + 1
        nextId := parcel.idAt (parcel.released 0)
        outgoing := Table.put parcel.setting.token transfer
          (Table.only parcel.setting.token none) }
      0 0 0 (parcel.idAt (parcel.released 0)) (some transfer) datagrams := by
    refine ⟨none, ?_⟩
    exact
      { shows with
        nextId_eq := rfl
        outgoing_eq := rfl }
  have queued := stored.dispatchFragments sound (Nat.le_refl 0) (Nat.le_refl 0)
    (parcel.released 0) (by omega)
  rw [Nat.zero_add] at queued
  rw [Nat.sub_zero]
  exact queued

/-! ## Polls -/

/-- The datagram carries a fragment to the other side. -/
structure IsDatagramOf
    (parcel : Parcel)
    (index : Nat)
    (datagram : Datagram) :
    Prop where
  target_eq : datagram.target = parcel.setting.peer
  written : Wire.encode (parcel.fragment index).message = .ok datagram.bytes

theorem exists_datagram
    (sound : parcel.IsSound)
    (index : Nat) :
    ∃ bytes, parcel.IsDatagramOf index ⟨parcel.setting.peer, bytes⟩ := by
  have readable : Wire.IsReadable (parcel.fragment index).message :=
    Engine.isReadable_fragmentOf sound.readable sound.plain _ _
  obtain ⟨bytes, written, _⟩ := readable.exists_bytes
  exact ⟨bytes, rfl, written⟩

/-- A fragment that was sent is not due. -/
theorem decision_flying
    (sound : parcel.IsSound)
    (indices : List Nat) :
    ∀ entry ∈ indices.map parcel.flying,
      entry.decision parcel.setting.pool parcel.setting.now = .rest := by
  intro entry member
  obtain ⟨index, _, rfl⟩ := List.mem_map.mp member
  exact PoolEntry.decision_handedOut sound.patient
    (resendWait_fragment_pos sound index) _

namespace IsSending

/-- The next fragment that waits is sent. -/
theorem poll
    (sound : parcel.IsSound)
    (isSending : parcel.IsSending engine first sent datagrams)
    (firstLe : first ≤ sent)
    (more : sent < parcel.released first) :
    ∃ datagram later,
      parcel.IsDatagramOf sent datagram ∧ engine.poll = (true, later) ∧
        parcel.IsSending later first (sent + 1) (datagrams ++ [datagram]) := by
  obtain ⟨transfer, carried, named, shows⟩ := isSending
  obtain ⟨bytes, isDatagram⟩ := exists_datagram sound sent
  obtain ⟨picked, polled, showsPicked⟩ :=
    shows.poll_of_due (queue_of_waiting parcel first more) (decision_flying sound _)
      (PoolEntry.decision_create sound.patient _ _)
  have passes : (picked.responded (parcel.fragment sent).message).needsTransfer
      (parcel.fragment sent).message = false :=
    Engine.needsTransfer_fragmentOf _ _ _ _
  have routed : (parcel.fragment sent).message.target? =
      some parcel.setting.peer := by
    rw [fragment_eq sound.plain]
    exact sound.routed
  have confirmable : (parcel.fragment sent).message.kind = .confirmable := by
    rw [fragment_eq sound.plain]
    exact sound.confirmable
  have dispatched :=
    showsPicked.dispatch_of_single (key_fragment sound sent) passes routed
      isDatagram.written
  rw [if_pos confirmable] at dispatched
  refine ⟨_, _, isDatagram, polled, transfer, carried, named, ?_⟩
  rw [← queue_of_flying parcel firstLe]
  exact dispatched

/-- Once every fragment in the window has been sent, nothing is due. -/
theorem poll_of_sent
    (sound : parcel.IsSound)
    (isSending : parcel.IsSending engine first (parcel.released first) datagrams) :
    engine.poll = (false, engine) := by
  obtain ⟨transfer, carried, named, shows⟩ := isSending
  refine shows.poll_of_resting fun entry member => ?_
  unfold queue at member
  rw [Nat.sub_self, List.range'_zero, List.map_nil, List.append_nil] at member
  exact decision_flying sound _ entry member

/-- Polling until nothing is due sends every fragment in the window. -/
theorem pollAll
    (sound : parcel.IsSound)
    {limit : Nat}
    (isSending : parcel.IsSending engine first sent datagrams)
    (firstLe : first ≤ sent)
    (sentLe : sent ≤ parcel.released first)
    (enough : parcel.released first - sent < limit) :
    ∃ added,
      parcel.IsSending (engine.pollAll limit).2 first (parcel.released first)
          (datagrams ++ added) ∧
        List.Forall₂ parcel.IsDatagramOf
          (List.range' sent (parcel.released first - sent)) added := by
  induction limit generalizing engine sent datagrams with
  | zero => exact (Nat.not_lt_zero _ enough).elim
  | succ limit inductionHypothesis =>
      by_cases more : sent < parcel.released first
      · obtain ⟨datagram, later, isDatagram, polled, sendsOn⟩ :=
          isSending.poll sound firstLe more
        obtain ⟨added, sentAll, areDatagrams⟩ :=
          inductionHypothesis sendsOn (Nat.le_succ_of_le firstLe) more (by omega)
        have count_eq :
            parcel.released first - sent =
              (parcel.released first - (sent + 1)) + 1 := by
          omega
        refine ⟨datagram :: added, ?_, ?_⟩
        · rw [Engine.pollAll_of_poll polled]
          rw [List.append_assoc] at sentAll
          exact sentAll
        · rw [count_eq, List.range'_succ]
          exact .cons isDatagram areDatagrams
      · have all : sent = parcel.released first := by omega
        subst all
        refine ⟨[], ?_, ?_⟩
        · rw [Engine.pollAll_of_silent (isSending.poll_of_sent sound),
            List.append_nil]
          exact isSending
        · rw [Nat.sub_self]
          exact .nil

end IsSending

/-! ## Acknowledgements -/

/-- The message acknowledges a fragment. -/
structure IsAckOf
    (parcel : Parcel)
    (index : Nat)
    (message : Message) :
    Prop where
  id_eq : message.id = parcel.idAt index
  token_eq : message.token = parcel.whole.token
  acks : ∃ number, Engine.AcksBlock message number ∧ number.toNat = index

/-- All blocks are confirmed, and the whole message waits for its answer. -/
def IsFinished
    (parcel : Parcel)
    (engine : Engine)
    (datagrams : List Datagram) :
    Prop :=
  engine.Shows parcel.setting (parcel.idAt parcel.total)
    { parcel.rest with
      queue :=
        [(PoolEntry.create parcel.setting.now parcel.whole parcel.hooks).suppressed]
      named := some parcel.whole.id
      watched := []
      sending := none
      sent := datagrams }

/-- The blocks before `first` are confirmed, which may be all of them. -/
def IsUnderWay
    (parcel : Parcel)
    (engine : Engine)
    (first sent : Nat)
    (datagrams : List Datagram) :
    Prop :=
  if first < parcel.total then parcel.IsSending engine first sent datagrams
  else parcel.IsFinished engine datagrams

/-- Confirming the first unconfirmed block. -/
theorem IsCarriedBy.confirm
    (carried : parcel.IsCarriedBy transfer first last)
    (inside : first < last)
    (near : last < first + 2 ^ 16)
    {number : UInt32}
    (number_eq : number.toNat = first) :
    parcel.IsCarriedBy
      { transfer with
        state := transfer.state.confirm number
        inFlight :=
          transfer.inFlight.filter fun fragment => fragment ≠ parcel.idAt first }
      (first + 1) last := by
  have confirmed :
      (fun other => other < first ∨ (other = number.toNat ∧ other < last)) =
        fun other => other < first + 1 := by
    funext other
    rw [number_eq]
    exact propext ⟨by omega, by omega⟩
  have length_eq : last - first = (last - (first + 1)) + 1 := by omega
  refine ⟨⟨carried.tracked.data_eq, carried.tracked.blockSize_eq,
    carried.tracked.whole_eq, ?_, ?_, ?_⟩, carried.hooks_eq, carried.serial_eq, ?_⟩
  · exact (SendState.confirm_size _ _).trans carried.tracked.window_eq
  · rw [← confirmed]
    exact carried.tracked.tracks.confirm number
  · refine (carried.tracked.reaches.confirm number).mono fun other => ?_
    rw [number_eq]
    omega
  · dsimp only
    rw [carried.inFlight_eq, length_eq, List.range'_succ, List.map_cons,
      List.filter_cons, if_neg (by simp), List.filter_eq_self.mpr]
    intro id member
    obtain ⟨index, inRange, rfl⟩ := List.mem_map.mp member
    obtain ⟨lower, upper⟩ := List.mem_range'_1.mp inRange
    rw [decide_eq_true_iff]
    intro same
    have equal : index = first := idAt_inj (by omega) (by omega) same
    omega

theorem released_mono (parcel : Parcel) (first : Nat) :
    parcel.released first ≤ parcel.released (first + 1) := by
  unfold released
  omega

theorem released_lt
    (sound : parcel.IsSound)
    (first : Nat) :
    parcel.released first < first + 2 ^ 16 := by
  have small := window_lt sound
  have reach : parcel.released first ≤ first + parcel.window := Nat.min_le_left _ _
  omega

/-- The window always lets out another block, if there is one. -/
theorem IsSound.lt_released
    (sound : parcel.IsSound)
    (unfinished : first < parcel.total) :
    first < parcel.released first := by
  have window : 0 < parcel.window := by
    rw [window_eq sound]
    exact Nat.lt_min.mpr
      ⟨sound.windowPositive, Nat.lt_of_le_of_lt (Nat.zero_le _) unfinished⟩
  exact Nat.lt_min.mpr ⟨Nat.lt_add_of_pos_right window, unfinished⟩

/-- How far the counter has come. -/
theorem IsUnderWay.exists_shows
    (underWay : parcel.IsUnderWay engine first sent datagrams)
    (bound : first ≤ parcel.total) :
    ∃ scene, engine.Shows parcel.setting
      (parcel.idAt (parcel.released first)) scene := by
  unfold IsUnderWay at underWay
  split at underWay
  · obtain ⟨transfer, _, named, shows⟩ := underWay
    exact ⟨_, shows⟩
  · have all : parcel.released first = parcel.total := by
      unfold released
      omega
    rw [all]
    exact ⟨_, underWay⟩

namespace IsSending

/--
Noting the acknowledgement of the first unconfirmed block lets the window move on.
-/
theorem confirmBlock
    (sound : parcel.IsSound)
    (isSending : parcel.IsSending engine first sent datagrams)
    (inside : first < sent)
    (sentLe : sent ≤ parcel.released first)
    {number : UInt32}
    (number_eq : number.toNat = first) :
    parcel.IsSending
      (((engine.dropAck (parcel.idAt first)).discard
        (parcel.idAt first)).confirmBlock
        parcel.setting.token number (parcel.idAt first))
      (first + 1) sent datagrams := by
  obtain ⟨transfer, carried, named, shows⟩ := isSending
  have near := released_lt sound first
  have confirmed :=
    carried.confirm (Nat.lt_of_lt_of_le inside sentLe) near number_eq
  obtain ⟨fragments_eq, carriedOn, nextId_eq⟩ :=
    cut_spec sound confirmed (released_mono parcel first)
  have dropped := (shows.dropAck (parcel.idAt first)).discard (parcel.idAt first)
  dsimp only at dropped
  rw [queue_filter inside sentLe near,
    watched_erase (Nat.lt_of_lt_of_le inside sentLe) near] at dropped
  generalize (engine.dropAck (parcel.idAt first)).discard (parcel.idAt first) =
    after at dropped ⊢
  have found : after.outgoing.find? parcel.setting.token = some transfer := by
    rw [dropped.outgoing_eq]
    exact Table.find?_put_self parcel.setting.token transfer []
  unfold Engine.confirmBlock
  rw [found]
  dsimp only
  rw [dropped.nextId_eq, fragments_eq, nextId_eq, dropped.outgoing_eq]
  generalize (Engine.cut parcel.setting.token _
    (parcel.idAt (parcel.released first))).transfer =
    cutTransfer at carriedOn ⊢
  refine ⟨cutTransfer, carriedOn, ?_⟩
  have stored : parcel.IsQueued
      { after with
        outgoing := Table.put parcel.setting.token cutTransfer
          (Table.only parcel.setting.token (some transfer))
        nextId := parcel.idAt (parcel.released (first + 1)) }
      (first + 1) sent (parcel.released first)
        (parcel.idAt (parcel.released (first + 1)))
      (some cutTransfer) datagrams := by
    refine ⟨named.filter fun name => name ≠ parcel.idAt first, ?_⟩
    refine
      { dropped with
        nextId_eq := rfl
        outgoing_eq := ?_ }
    simp [Table.only, Table.put]
  have reach : parcel.released (first + 1) ≤ first + 1 + parcel.window :=
    Nat.min_le_left _ _
  have grown := released_mono parcel first
  have queued := stored.dispatchFragments sound inside sentLe
    (parcel.released (first + 1) - parcel.released first) (by omega)
  rw [Nat.add_sub_cancel' grown] at queued
  exact queued

/-- A transfer with unconfirmed blocks goes on. -/
theorem takeCompleted_of_more
    (sound : parcel.IsSound)
    (isSending : parcel.IsSending engine first sent datagrams)
    (more : first < parcel.total) :
    engine.takeCompleted parcel.setting.token = (none, engine) := by
  obtain ⟨transfer, carried, named, shows⟩ := isSending
  have found : engine.outgoing.find? parcel.setting.token = some transfer := by
    rw [shows.outgoing_eq]
    exact Table.find?_put_self parcel.setting.token transfer []
  have positive : 0 < transfer.state.blockSize :=
    carried.tracked.blockSize_eq ▸ sound.positive
  have incomplete : transfer.state.isCompleted = false := by
    rw [← Bool.not_eq_true]
    intro completed
    have all := carried.tracked.tracks.confirmed_of_isCompleted positive completed
    rw [carried.tracked.total_eq] at all
    exact Nat.lt_irrefl _ (all first more)
  unfold Engine.takeCompleted
  rw [found]
  dsimp only
  rw [incomplete]
  rfl

/-- A transfer whose blocks are all confirmed ends. -/
theorem takeCompleted_of_all
    (sound : parcel.IsSound)
    (isSending : parcel.IsSending engine parcel.total parcel.total datagrams) :
    ∃ transfer after,
      engine.takeCompleted parcel.setting.token = (some transfer, after) ∧
      parcel.IsCarriedBy transfer parcel.total parcel.total ∧
      after.Shows parcel.setting (parcel.idAt parcel.total)
        { parcel.rest with
          queue := []
          named := none
          watched := []
          sending := none
          sent := datagrams } := by
  obtain ⟨transfer, carried, named, shows⟩ := isSending
  have released_eq : parcel.released parcel.total = parcel.total := by
    unfold released
    omega
  have emptied : parcel.queue parcel.total parcel.total parcel.total = [] ∧
      parcel.watched parcel.total parcel.total = [] := by
    unfold queue watched
    rw [Nat.sub_self]
    exact ⟨rfl, rfl⟩
  rw [released_eq] at carried shows
  rw [emptied.1, emptied.2] at shows
  have unnamed : named = none := shows.pool.named_eq_none
  subst unnamed
  have found : engine.outgoing.find? parcel.setting.token = some transfer := by
    rw [shows.outgoing_eq]
    exact Table.find?_put_self parcel.setting.token transfer []
  have positive : 0 < transfer.state.blockSize :=
    carried.tracked.blockSize_eq ▸ sound.positive
  have complete : transfer.state.isCompleted = true := by
    rw [carried.tracked.tracks.isCompleted_iff positive
      (carried.tracked.word_eq sound), carried.tracked.total_eq]
    exact fun number inside => inside
  refine ⟨transfer,
    { engine with outgoing := engine.outgoing.erase parcel.setting.token },
    ?_, carried, ?_⟩
  · unfold Engine.takeCompleted
    rw [found]
    dsimp only
    rw [complete]
    rfl
  · refine { shows with outgoing_eq := ?_ }
    dsimp only
    rw [shows.outgoing_eq]
    simp [Table.only, Table.erase]

/-- The whole message takes the place of its fragments and waits for its answer. -/
theorem isFinished_of_all
    (sound : parcel.IsSound)
    (shows : engine.Shows parcel.setting (parcel.idAt parcel.total)
      { parcel.rest with
        queue := []
        named := none
        watched := []
        sending := none
        sent := datagrams }) :
    parcel.IsFinished
      ((engine.enqueue parcel.whole parcel.hooks).suppress parcel.whole)
      datagrams := by
  have room : 0 < parcel.setting.pool.capacity :=
    Nat.lt_of_le_of_lt (Nat.zero_le _) sound.room
  have added := shows.enqueue sound.key_eq sound.spans (by simp) room parcel.hooks
  have alone : [] ++
      [PoolEntry.create parcel.setting.now parcel.whole parcel.hooks] =
      [] ++ PoolEntry.create parcel.setting.now parcel.whole parcel.hooks :: [] :=
    rfl
  exact added.suppress alone rfl sound.key_eq

/--
The acknowledgement of the first unconfirmed block is stopped, and
moves the transfer on.
-/
theorem onBlockAcknowledged
    (sound : parcel.IsSound)
    (isSending : parcel.IsSending engine first sent datagrams)
    (inside : first < sent)
    (sentLe : sent ≤ parcel.released first)
    {message : Message}
    (isAck : parcel.IsAckOf first message)
    (isPlain : Engine.isPlainAck message = true)
    (cell : Option SocketAddress)
    (option : OptionNumber)
    {block : Block}
    (number_eq : block.number.toNat = first) :
    (engine.onBlockAcknowledged message cell option block).result = .ok .stop ∧
      parcel.IsUnderWay
        (engine.onBlockAcknowledged message cell option block).state (first + 1)
        sent datagrams := by
  have key_eq : message.key = parcel.setting.token :=
    (Message.key_eq isAck.token_eq).trans sound.key_eq
  have confirmed := isSending.confirmBlock sound inside sentLe number_eq
  have bound := parcel.released_le_total first
  unfold Engine.onBlockAcknowledged Engine.acknowledgeBlock IsUnderWay
  dsimp only
  rw [isAck.id_eq, key_eq]
  by_cases more : first + 1 < parcel.total
  · rw [confirmed.takeCompleted_of_more sound more, if_pos more]
    exact ⟨rfl, confirmed⟩
  · have total_eq : first + 1 = parcel.total := by omega
    have sent_eq : sent = parcel.total := by omega
    rw [total_eq, sent_eq] at confirmed
    obtain ⟨transfer, after, taken, carried, shows⟩ :=
      confirmed.takeCompleted_of_all sound
    have landed : transfer.inFlight = [] := by
      rw [carried.inFlight_eq, Nat.sub_self]
      rfl
    rw [taken, if_neg more]
    dsimp only
    rw [landed, carried.tracked.whole_eq, carried.hooks_eq, if_pos isPlain]
    exact ⟨rfl, isFinished_of_all sound (shows.recordTransfer _ _)⟩

/-- The datagram of such an acknowledgement moves the transfer on. -/
theorem process_ack
    (sound : parcel.IsSound)
    (isSending : parcel.IsSending engine first sent datagrams)
    (inside : first < sent)
    (sentLe : sent ≤ parcel.released first)
    {message : Message}
    (isAck : parcel.IsAckOf first message)
    {bytes : List UInt8}
    (reading : Wire.decode bytes = .ok message)
    (source : SocketAddress) :
    parcel.IsUnderWay (engine.process bytes source).2
      (first + 1) sent datagrams := by
  obtain ⟨number, acks, number_eq⟩ := isAck.acks
  have addressed := acks.addressed source
  have isAddressed : parcel.IsAckOf first { message with address := some source } :=
    ⟨isAck.id_eq, isAck.token_eq, number, addressed, number_eq⟩
  have isTokened : message.token.isSome := by
    rw [isAck.token_eq]
    exact sound.isTokened.isSome
  obtain ⟨option, block, rfl, stage⟩ :=
    Engine.blockwiseReceive_of_acksBlock engine addressed isTokened (some source)
  obtain ⟨stops, underWay⟩ :=
    isSending.onBlockAcknowledged sound inside sentLe isAddressed
      addressed.isPlain (some source) option number_eq
  rw [← stage] at stops underWay
  unfold Engine.process
  rw [reading]
  dsimp only
  rw [Engine.receive_of_stop stops]
  exact underWay

end IsSending

/-- The datagram is an acknowledgement of a fragment. -/
def IsAckDatagramOf
    (parcel : Parcel)
    (target : SocketAddress)
    (index : Nat)
    (datagram : Datagram) :
    Prop :=
  datagram.target = target ∧
    ∃ message, Wire.decode datagram.bytes = .ok message ∧
      parcel.IsAckOf index message

/-- Acknowledgements in order confirm every block that was sent. -/
theorem IsUnderWay.process_acks
    (sound : parcel.IsSound)
    (target source : SocketAddress)
    (count : Nat)
    {acks : List Datagram}
    (areAcks : List.Forall₂ (parcel.IsAckDatagramOf target)
      (List.range' first count) acks)
    (underWay : parcel.IsUnderWay engine first (first + count) datagrams)
    (sentLe : first + count ≤ parcel.released first) :
    parcel.IsUnderWay (engine.processAll source acks)
      (first + count) (first + count)
      datagrams := by
  induction count generalizing engine first acks with
  | zero =>
      cases areAcks
      exact underWay
  | succ count inductionHypothesis =>
      rw [List.range'_succ] at areAcks
      cases areAcks with
      | cons isFirst others =>
          obtain ⟨_, message, reading, isAck⟩ := isFirst
          have bound := parcel.released_le_total first
          have grown := released_mono parcel first
          have isSending :
              parcel.IsSending engine first (first + (count + 1)) datagrams := by
            unfold IsUnderWay at underWay
            rwa [if_pos (by omega)] at underWay
          have next :=
            isSending.process_ack sound (by omega) sentLe isAck reading source
          have count_eq : first + (count + 1) = first + 1 + count := by omega
          rw [count_eq] at next ⊢
          rw [Engine.processAll_cons]
          exact inductionHypothesis others next (by omega)

end Coap.Parcel
