import Mathlib.Data.List.Basic
import Mathlib.Tactic.Common
import Coap.Window

namespace Coap.Window

/-!
# Windows by absolute index

A window is read at absolute indices: inside its range at the slot for that index,
outside it nowhere. Each operation is described by what it does to that reading.
-/

variable {α : Type}

/-- The value at an absolute index; outside the window there is none. -/
def read?
    (window : Window α)
    (index : Int) :
    Option α :=
  if index < window.offset then none
  else window.slot? (index - window.offset).toNat

/-- A window has nothing to read beyond its tail. -/
theorem read?_beyond
    {window : Window α}
    {index : Int}
    (beyond : window.offset + window.size ≤ index) :
    window.read? index = none := by
  unfold read? slot?
  split
  · rfl
  · have past : window.slots.length ≤ (index - window.offset).toNat := by
      simp only [size] at beyond
      omega
    simp [List.getElem?_eq_none past]

/-- A window has nothing to read below its offset. -/
theorem read?_below
    {window : Window α}
    {index : Int}
    (below : index < window.offset) :
    window.read? index = none := by
  unfold read?
  rw [if_pos below]

/-- A slot is read at the index that its position names. -/
theorem read?_offset_add
    (window : Window α)
    (position : Nat) :
    window.read? (window.offset + position) = window.slot? position := by
  have low : ¬ window.offset + (position : Int) < window.offset := by omega
  have same : (window.offset + (position : Int) - window.offset).toNat =
      position := by omega
  unfold read?
  rw [if_neg low, same]

/-- A fresh window has nothing to read. -/
theorem read?_empty
    (size : Nat)
    (offset index : Int) :
    (empty (α := α) size offset).read? index = none := by
  unfold read? slot? empty
  split
  · rfl
  · dsimp only
    rw [List.getElem?_replicate]
    split <;> rfl

/-- Filling every slot fills every index of the range. -/
theorem read?_filled
    {size : Nat}
    {offset index : Int}
    {value : α}
    (lower : offset ≤ index)
    (upper : index < offset + size) :
    (filled size offset value).read? index = some value := by
  have inside : (index - offset).toNat < size := by omega
  simp [read?, slot?, filled, Int.not_lt.mpr lower, inside]

@[simp]
theorem size_set
    (window : Window α)
    (index : Int)
    (value : α) :
    (window.set index value).size = window.size := by
  unfold set
  split <;> simp [size]

@[simp]
theorem offset_set
    (window : Window α)
    (index : Int)
    (value : α) :
    (window.set index value).offset = window.offset := by
  unfold set
  split <;> rfl

/-- Storing inside the window is read back at its index. -/
theorem read?_set_self
    {window : Window α}
    {index : Int}
    (value : α)
    (lower : window.offset ≤ index)
    (upper : index < window.offset + window.size) :
    (window.set index value).read? index = some value := by
  have inside : (index - window.offset).toNat < window.slots.length := by
    simp only [size] at upper
    omega
  simp [read?, slot?, set, Int.not_lt.mpr lower, inside]

/-- Storing leaves every other index alone. -/
theorem read?_set_ne
    {window : Window α}
    {index other : Int}
    (value : α)
    (different : other ≠ index) :
    (window.set index value).read? other = window.read? other := by
  unfold read?
  rw [offset_set]
  split
  · rfl
  · unfold set
    split
    · rfl
    · have positions :
          (index - window.offset).toNat ≠ (other - window.offset).toNat := by
        omega
      simp [slot?, List.getElem?_set_ne positions]

/-- Storing outside the window changes nothing. -/
theorem set_of_outside
    {window : Window α}
    {index : Int}
    (value : α)
    (outside : ¬ (window.offset ≤ index ∧ index < window.offset + window.size)) :
    window.set index value = window := by
  unfold set
  split
  · rfl
  · have past : window.slots.length ≤ (index - window.offset).toNat := by
      simp only [size] at outside
      omega
    rw [List.set_eq_of_length_le past]

/-- A window advances exactly when something can be read at its offset. -/
theorem advance_fst (window : Window α) :
    window.advance.1 = window.read? window.offset := by
  obtain ⟨slots, offset⟩ := window
  unfold read?
  rw [if_neg (Int.lt_irrefl _)]
  simp only [Int.sub_self, Int.toNat_zero]
  match slots with
  | [] => rfl
  | none :: _ => rfl
  | some _ :: _ => rfl

/-- A window that advances moves up by one and keeps its size. -/
theorem advance_snd_of_some
    {window : Window α}
    {value : α}
    (moved : window.advance.1 = some value) :
    window.advance.2.offset = window.offset + 1 ∧
      window.advance.2.size = window.size := by
  obtain ⟨slots, offset⟩ := window
  match slots with
  | [] => simp [advance] at moved
  | none :: _ => simp [advance] at moved
  | some _ :: rest => simp [advance, size]

/-- A window that does not advance stays as it is. -/
theorem advance_snd_of_none
    {window : Window α}
    (stuck : window.advance.1 = none) :
    window.advance.2 = window := by
  obtain ⟨slots, offset⟩ := window
  match slots with
  | [] => rfl
  | none :: _ => rfl
  | some _ :: _ => simp [advance] at stuck

/-- After an advance every index above the old offset reads as before. -/
theorem read?_advance
    {window : Window α}
    {value : α}
    {index : Int}
    (moved : window.advance.1 = some value)
    (above : window.offset < index) :
    window.advance.2.read? index = window.read? index := by
  obtain ⟨slots, offset⟩ := window
  match slots with
  | [] => simp [advance] at moved
  | none :: _ => simp [advance] at moved
  | some _ :: rest =>
      simp only at above
      have low : ¬ index < offset := by omega
      have lowNext : ¬ index < offset + 1 := by omega
      obtain ⟨position, position_eq⟩ : ∃ position,
          (index - offset).toNat = position + 1 :=
        ⟨(index - offset).toNat - 1, by omega⟩
      have next : (index - (offset + 1)).toNat = position := by omega
      simp only [advance, read?, slot?, if_neg low, if_neg lowNext, position_eq,
        next, List.getElem?_cons_succ]
      by_cases inside : position < rest.length
      · rw [List.getElem?_append_left inside]
      · have past : rest[position]? = none := List.getElem?_eq_none (by omega)
        rw [List.getElem?_append_right (by omega), past]
        cases position - rest.length <;> simp

@[simp]
theorem size_resize
    (window : Window α)
    (size : Nat) :
    (window.resize size).size = size := by
  unfold resize Window.size
  simp only [List.length_append, List.length_take, List.length_replicate]
  omega

/--
The slots below the new number of slots are kept, those above the
old number are empty.
-/
theorem slot?_resize
    (window : Window α)
    (size position : Nat) :
    (window.resize size).slot? position =
      if position < size then window.slot? position else none := by
  have length_eq : (window.resize size).slots.length = size :=
    size_resize window size
  by_cases inside : position < size
  · rw [if_pos inside]
    unfold slot? resize
    dsimp only
    by_cases stored : position < window.slots.length
    · have kept : position < (window.slots.take size).length := by
        rw [List.length_take]
        omega
      rw [List.getElem?_append_left kept, List.getElem?_take_of_lt inside]
    · have past : (window.slots.take size).length ≤ position := by
        rw [List.length_take]
        omega
      have missing : window.slots[position]? = none :=
        List.getElem?_eq_none (by omega)
      rw [List.getElem?_append_right past, List.getElem?_replicate, missing]
      split <;> rfl
  · rw [if_neg inside]
    unfold slot?
    rw [List.getElem?_eq_none (by omega)]
    rfl

/-- A new number of slots keeps what can be read below its end, and adds nothing. -/
theorem read?_resize
    (window : Window α)
    (size : Nat)
    (index : Int) :
    (window.resize size).read? index =
      if index < window.offset + size then window.read? index else none := by
  have offset_eq : (window.resize size).offset = window.offset := rfl
  by_cases low : index < window.offset
  · rw [read?_below (offset_eq ▸ low), read?_below low, ite_self]
  · have inside_iff : (index - window.offset).toNat < size ↔
        index < window.offset + size := by
      omega
    unfold read?
    rw [offset_eq, if_neg low, if_neg low, slot?_resize]
    simp only [inside_iff]

/--
A number of slots is filled from the start exactly if each of
their indices can be read.
-/
theorem le_leadingFilled_iff
    {window : Window α}
    {count : Nat} :
    count ≤ window.leadingFilled ↔
      ∀ position < count, (window.read? (window.offset + position)).isSome := by
  simp only [read?_offset_add]
  obtain ⟨slots, offset⟩ := window
  simp only [slot?, leadingFilled]
  induction slots generalizing count with
  | nil =>
      cases count with
      | zero => simp
      | succ count => simpa using ⟨0, by omega⟩
  | cons slot rest inductionHypothesis =>
      cases count with
      | zero => simp
      | succ count =>
          cases slot with
          | none =>
              simp only [List.takeWhile_cons, Option.isSome_none,
                Bool.false_eq_true, ↓reduceIte, List.length_nil, Nat.le_zero_eq,
                Nat.add_eq_zero_iff, Nat.one_ne_zero, and_false, false_iff]
              intro all
              simpa using all 0 (by omega)
          | some value =>
              simp only [List.takeWhile_cons, Option.isSome_some, ↓reduceIte,
                List.length_cons, Nat.add_le_add_iff_right, inductionHypothesis]
              constructor
              · intro all position below
                cases position with
                | zero => simp
                | succ position => simpa using all position (by omega)
              · intro all position below
                simpa using all (position + 1) (by omega)

/-- No more slots can be filled than there are. -/
theorem leadingFilled_le_size (window : Window α) :
    window.leadingFilled ≤ window.size :=
  (List.takeWhile_sublist _).length_le

end Coap.Window
