import Mathlib.Algebra.Group.Nat.Defs
import Mathlib.Data.List.Basic
import Mathlib.Data.List.Induction
import Mathlib.Data.Nat.Find
import Mathlib.Order.Bounds.Basic
import Mathlib.Tactic.Common
import Coap.Proofs.Transfer.Send

namespace Coap.SendState

/-!
# Runs of an outbound transfer

A transfer is used by two calls, in any order: pop a block, and confirm a number.
What its user sees of a run is which blocks came back, and which numbers were
confirmed after their block had come back. These observations decide everything
that the transfer does next.
-/

/-- A call on a transfer. -/
inductive Call where
  | pop
  | confirm (number : UInt32)
deriving DecidableEq, Repr

/-- A transfer with what its user has seen of it. -/
structure History where
  state : SendState
  /-- The blocks that pops returned, in order. -/
  returned : List Block := []
  /-- The numbers confirmed when their block had been returned already. -/
  confirmed : List Nat := []

namespace History

/-- The history after one more call. -/
def step
    (history : History) :
    Call →
    History
  | .pop =>
      { history with
        state := history.state.pop?.2
        returned := history.returned ++ history.state.pop?.1.toList }
  | .confirm number =>
      { history with
        state := history.state.confirm number
        confirmed :=
          if number ∈ history.returned.map Block.number then
            number.toNat :: history.confirmed
          else history.confirmed }

/-- The history of calls on a transfer. -/
def run
    (state : SendState)
    (calls : List Call) :
    History :=
  calls.foldl step { state := state }

end History

/-- A pop changes nothing but the window, whose size stays. -/
theorem pop?_frame (state : SendState) :
    state.pop?.2.data = state.data ∧ state.pop?.2.blockSize = state.blockSize ∧
      state.pop?.2.whole = state.whole ∧
        state.pop?.2.window.size = state.window.size := by
  unfold pop?
  split
  · exact ⟨rfl, rfl, rfl, rfl⟩
  · next moved =>
      have taken : state.window.advance.1 = some () := by rw [moved]
      have kept := (Window.advance_snd_of_some taken).2
      rw [moved] at kept
      exact ⟨rfl, rfl, rfl, kept⟩

/-- A confirmation keeps the size of the window. -/
theorem confirm_size
    (state : SendState)
    (number : UInt32) :
    (state.confirm number).window.size = state.window.size :=
  Window.size_set _ _ _

/-- A number has a block exactly if it is below the number of blocks. -/
theorem block?_isSome_iff
    {state : SendState}
    (number : Nat)
    (positive : 0 < state.blockSize) :
    (state.block? number).isSome ↔ number < state.total := by
  have past := length_le_mul_iff state.data.length number positive
  unfold block? total
  dsimp only
  split
  · next ends => simpa using past.mp ends
  · next continues => simpa using fun ends => continues (past.mpr ends)

/-- The block with a number holds the slice of the data that the number names. -/
theorem block?_spec
    {state : SendState}
    {number : Nat}
    {block : Block}
    (positive : 0 < state.blockSize)
    (found : state.block? number = some block) :
    block.number = UInt32.ofNat number ∧
      block.data =
        state.data.extract
          (number * state.blockSize)
            (min ((number + 1) * state.blockSize) state.data.length) ∧
      (block.more ↔ number + 1 < state.total) := by
  have ending := length_le_mul_iff state.data.length (number + 1) positive
  unfold block? at found
  dsimp only at found
  split at found
  · simp at found
  · simp only [Option.some.injEq] at found
    subst found
    refine ⟨rfl, ?_, ?_⟩
    · simp only [Block.ofData, List.extract_eq_take_drop, Nat.succ_mul]
      rw [List.take_eq_take_iff, List.length_drop]
      omega
    · simp only [Block.ofData, decide_eq_true_eq, total]
      rw [Nat.succ_mul] at ending
      omega

namespace Tracks

variable {state : SendState} {released : Nat} {confirmed : Nat → Prop}

/-- A pop returns the next block if the window moves and there is one. -/
theorem pop?_fst
    (tracks : state.Tracks released confirmed)
    (positive : 0 < state.blockSize) :
    state.pop?.1 =
      if released < state.total ∧
          state.window.advance.1 = some () then state.block? released
      else none := by
  unfold pop?
  split
  · next blocked => simp [blocked]
  · next value window moved =>
      have taken : state.window.advance.1 = some () := by rw [moved]
      obtain ⟨offset_eq, size_eq⟩ := Window.advance_snd_of_some taken
      simp only [moved] at offset_eq size_eq
      have released_eq := tracks.released_eq
      have frontier_nonneg := tracks.frontier_nonneg
      simp only [moved, Window.tail, offset_eq, size_eq, and_true]
      by_cases remaining : released < state.total
      · rw [if_pos remaining]
        congr 1
        omega
      · have ended : ¬ (state.block?
            (state.window.offset + 1 + state.window.size - 1).toNat).isSome := by
          rw [block?_isSome_iff _ positive]
          omega
        rw [if_neg remaining]
        simpa using ended

/-- A pop keeps the window in step with the blocks returned. -/
theorem pop?_snd
    (tracks : state.Tracks released confirmed)
    (positive : 0 < state.blockSize) :
    state.pop?.2.Tracks (released + state.pop?.1.toList.length) confirmed := by
  have popped := tracks.pop?_fst positive
  have someBlock := block?_isSome_iff released positive
  have bound := tracks.released_le_total
  cases moved : state.window.advance.1 with
  | none =>
      have stays : state.pop? = (none, state) := by
        unfold pop?
        split
        · rfl
        · next taken => simp [taken] at moved
      simpa [stays] using tracks
  | some value =>
      have next_eq : state.pop?.2 =
          { state with window := state.window.advance.2 } := by
        unfold pop?
        split
        · next blocked => simp [blocked] at moved
        · next taken => simp [taken]
      have advanced := tracks.advance moved
      rw [next_eq]
      suffices count_eq :
          released + state.pop?.1.toList.length = min (released + 1) state.total by
        rw [count_eq]
        exact advanced
      rw [popped]
      by_cases remaining : released < state.total
      · obtain ⟨block, found⟩ :=
          Option.isSome_iff_exists.mp (someBlock.mpr remaining)
        rw [if_pos ⟨remaining, moved⟩, found]
        simp only [Option.toList_some, List.length_singleton]
        omega
      · rw [if_neg fun both => remaining both.1]
        simp only [Option.toList_none, List.length_nil]
        omega

/-- A block that a pop returns is the next one. -/
theorem block?_of_pop?
    (tracks : state.Tracks released confirmed)
    (positive : 0 < state.blockSize)
    {block : Block}
    (popped : state.pop?.1 = some block) :
    state.block? released = some block := by
  rw [tracks.pop?_fst positive] at popped
  split at popped
  · exact popped
  · simp at popped

/--
A pop returns a block exactly if one remains within a window's
length of the first gap.
-/
theorem pop?_isSome_iff
    (tracks : state.Tracks released confirmed)
    (positive : 0 < state.blockSize)
    {first : Nat}
    (least : IsLeast { number | ¬ confirmed number } first) :
    state.pop?.1.isSome ↔
      released < state.total ∧ released < first + state.window.size := by
  rw [tracks.pop?_fst positive]
  constructor
  · intro returned
    split at returned
    · next both => exact ⟨both.1, (tracks.moves_iff both.1 least).mp both.2⟩
    · simp at returned
  · rintro ⟨remaining, near⟩
    rw [if_pos ⟨remaining, (tracks.moves_iff remaining least).mpr near⟩]
    exact (block?_isSome_iff _ positive).mpr remaining

end Tracks

namespace History

/-- What stays true of a history whose transfer has `total` blocks. -/
structure Sound
    (start : SendState)
    (history : History) :
    Prop where
  data_eq : history.state.data = start.data
  blockSize_eq : history.state.blockSize = start.blockSize
  size_eq : history.state.window.size = start.window.size
  numbers_eq :
    history.returned.map Block.number =
      (List.range history.returned.length).map UInt32.ofNat
  tracks : history.state.Tracks history.returned.length (· ∈ history.confirmed)

namespace Sound

variable {start : SendState} {history : History}

/-- The number of blocks stays. -/
theorem total_eq (sound : history.Sound start) :
    history.state.total = start.total := by
  simp only [total, sound.data_eq, sound.blockSize_eq]

/-- A number was returned exactly if it is below the number of returned blocks. -/
theorem mem_returned_iff
    (sound : history.Sound start)
    (fits : start.total < 2 ^ 32)
    (number : UInt32) :
    number ∈ history.returned.map Block.number ↔
      number.toNat < history.returned.length := by
  have bound := sound.tracks.released_le_total
  rw [sound.total_eq] at bound
  rw [sound.numbers_eq, List.mem_map]
  constructor
  · rintro ⟨index, below, rfl⟩
    rw [List.mem_range] at below
    rw [UInt32.toNat_ofNat_of_lt' (by simp only [UInt32.size]; omega)]
    exact below
  · intro below
    exact ⟨number.toNat, List.mem_range.mpr below, UInt32.ofNat_toNat⟩

/-- What a pop returns is the next block. -/
theorem step_pop
    (sound : history.Sound start)
    (positive : 0 < history.state.blockSize) :
    (history.step .pop).Sound start := by
  obtain ⟨data_eq, blockSize_eq, _, size_eq⟩ := history.state.pop?_frame
  constructor
  case data_eq => exact data_eq.trans sound.data_eq
  case blockSize_eq => exact blockSize_eq.trans sound.blockSize_eq
  case size_eq => exact size_eq.trans sound.size_eq
  case numbers_eq =>
    simp only [History.step]
    cases returned : history.state.pop?.1 with
    | none => simpa using sound.numbers_eq
    | some block =>
        have next_eq := sound.tracks.block?_of_pop? positive returned
        have number_eq := (block?_spec positive next_eq).1
        simp [List.range_succ, sound.numbers_eq, number_eq]
  case tracks =>
    have popped := sound.tracks.pop?_snd positive
    simpa [History.step] using popped

/-- A confirmation counts exactly if its block has been returned. -/
theorem step_confirm
    (sound : history.Sound start)
    (fits : start.total < 2 ^ 32)
    (number : UInt32) :
    (history.step (.confirm number)).Sound start := by
  constructor
  case data_eq => exact sound.data_eq
  case blockSize_eq => exact sound.blockSize_eq
  case size_eq => exact (confirm_size _ _).trans sound.size_eq
  case numbers_eq => exact sound.numbers_eq
  case tracks =>
    have confirmed := sound.tracks.confirm number
    have returned := sound.mem_returned_iff fits number
    simp only [History.step]
    by_cases out : number.toNat < history.returned.length
    · rw [if_pos (returned.mpr out)]
      convert confirmed using 2 with other
      simp only [List.mem_cons]
      constructor
      · rintro (rfl | before)
        · exact .inr ⟨rfl, out⟩
        · exact .inl before
      · rintro (before | ⟨rfl, _⟩)
        · exact .inr before
        · exact .inl rfl
    · rw [if_neg (mt returned.mp out)]
      convert confirmed using 2 with other
      constructor
      · exact .inl
      · rintro (before | ⟨rfl, below⟩)
        · exact before
        · exact (out below).elim

/-- Every call keeps a history sound. -/
theorem step
    (sound : history.Sound start)
    (positive : 0 < start.blockSize)
    (fits : start.total < 2 ^ 32)
    (call : Call) :
    (history.step call).Sound start := by
  cases call with
  | pop => exact sound.step_pop (sound.blockSize_eq ▸ positive)
  | confirm number => exact sound.step_confirm fits number

/-- A run keeps the history of a fresh transfer sound. -/
theorem run
    (start : SendState)
    (positive : 0 < start.blockSize)
    (fits : start.total < 2 ^ 32)
    (fresh : start.Tracks 0 fun _ => False)
    (calls : List Call) :
    (History.run start calls).Sound start := by
  unfold History.run
  have initial : History.Sound start { state := start } :=
    { data_eq := rfl
      blockSize_eq := rfl
      size_eq := rfl
      numbers_eq := rfl
      tracks := by simpa using fresh }
  generalize ({ state := start } : History) = history at initial
  induction calls generalizing history with
  | nil => exact initial
  | cons call rest inductionHypothesis =>
      exact inductionHypothesis _ (initial.step positive fits call)

end Sound

/-! ## What confirmations reach -/

/-- Nothing counts as confirmed that no call has named. -/
theorem reaches_run
    {start : SendState}
    (fresh : start.Reaches fun _ => False)
    (calls : List Call) :
    (run start calls).state.Reaches fun number =>
      ∃ word, .confirm word ∈ calls ∧ word.toNat = number := by
  induction calls using List.reverseRecOn with
  | nil => exact fresh.mono fun _ impossible => impossible.elim
  | append_singleton calls call inductionHypothesis =>
      have unrolled : run start (calls ++ [call]) =
          (run start calls).step call := by
        simp [run]
      rw [unrolled]
      have earlier (number : Nat)
          (known : ∃ word, Call.confirm word ∈ calls ∧ word.toNat = number) :
          ∃ word, Call.confirm word ∈ calls ++ [call] ∧ word.toNat = number := by
        obtain ⟨word, member, word_eq⟩ := known
        exact ⟨word, List.mem_append_left _ member, word_eq⟩
      cases call with
      | pop => exact inductionHypothesis.pop?.mono earlier
      | confirm word =>
          refine (inductionHypothesis.confirm word).mono fun number => ?_
          rintro (known | rfl)
          · exact earlier number known
          · exact ⟨word, List.mem_append_right _ List.mem_cons_self, rfl⟩

/-! ## Transfers without a window -/

/-- Without a window no call has any effect. -/
theorem state_run_of_windowless
    {start : SendState}
    (windowless : start.window.size = 0)
    (calls : List Call) :
    (run start calls).state = start ∧ (run start calls).returned = [] := by
  have noSlots : start.window.slots = [] := List.eq_nil_of_length_eq_zero windowless
  have stays : start.pop? = (none, start) := by
    unfold pop? Window.advance
    rw [noSlots]
  induction calls using List.reverseRecOn with
  | nil => exact ⟨rfl, rfl⟩
  | append_singleton calls call inductionHypothesis =>
      obtain ⟨state_eq, returned_eq⟩ := inductionHypothesis
      have unrolled : run start (calls ++ [call]) =
          (run start calls).step call := by
        simp [run]
      rw [unrolled]
      cases call with
      | pop => simp [step, state_eq, returned_eq, stays]
      | confirm number =>
          refine ⟨?_, returned_eq⟩
          have outside : ¬ (start.window.offset ≤ (number.toNat : Int) ∧
              (number.toNat : Int) < start.window.offset + start.window.size) := by
            omega
          simp only [step, state_eq, confirm]
          rw [Window.set_of_outside () outside]

/-- A transfer whose blocks cannot be counted returns none and is never complete. -/
theorem run_of_wraps
    (now : Timestamp)
    {data : List UInt8}
    (windowSize : Nat)
    {blockSize : Nat}
    (whole : Message)
    (isBuffer : data.length < 2 ^ 63)
    (isWord : blockSize < 2 ^ 64)
    (wraps : 2 ^ 64 < data.length + blockSize)
    (calls : List Call) :
    let history := History.run (start now data windowSize blockSize whole) calls
    history.returned = [] ∧ history.state.pop?.1 = none ∧
      history.state.isCompleted = false := by
  have count_eq := blockCount_of_wraps isBuffer isWord wraps
  have windowless :
      (start now data windowSize blockSize whole).window.size = 0 := by
    simp [start, Window.size, Window.filled, count_eq]
  obtain ⟨state_eq, returned_eq⟩ := state_run_of_windowless windowless calls
  refine ⟨returned_eq, ?_, ?_⟩
  · rw [state_eq]
    unfold pop? Window.advance
    rw [show (start now data windowSize blockSize whole).window.slots = [] from
      List.eq_nil_of_length_eq_zero windowless]
  · rw [state_eq]
    have bound :=
      (start now data windowSize blockSize whole).window.leadingFilled_le_size
    have none_confirmed :
        (start now data windowSize blockSize whole).confirmedCount = 0 := by
      have offset_eq :
          (start now data windowSize blockSize whole).window.offset = 0 := by
        simp [start, Window.filled, count_eq]
      unfold confirmedCount
      omega
    have short := word_le data.length (0 * blockSize)
    unfold isCompleted
    rw [none_confirmed]
    change decide (data.length ≤ word data.length (0 * blockSize)) = false
    rw [decide_eq_false_iff_not]
    omega

/-! ## The observations decide -/

end History

end Coap.SendState
