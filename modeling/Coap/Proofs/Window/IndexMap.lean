import Mathlib.Data.Nat.Find
import Mathlib.Logic.Function.Basic
import Mathlib.Tactic.Common
import Coap.Proofs.Window

namespace Coap

/-!
# A window as a finite map

The plain model of a window is a map from the absolute indices of a range to values.
It knows neither slots nor positions: a value is held at its index until the range
moves past it or is cut short. A window is asked the same things as its map, and
gives the same answers whatever it was asked before.
-/

/-- A map from the indices of a range to values. -/
@[ext]
structure IndexMap (α : Type) where
  offset : Int
  size : Nat
  value? : Int → Option α
  /-- Only indices of the range hold a value. -/
  inside : ∀ index, value? index ≠ none → offset ≤ index ∧ index < offset + size

namespace IndexMap

variable {α : Type}

/-- The map of a range that holds nothing. -/
def empty
    (size : Nat)
    (offset : Int) :
    IndexMap α :=
  { offset := offset
    size := size
    value? := fun _ => none
    inside := fun _ held => (held rfl).elim }

/-- Hold a value at an index of the range; elsewhere this changes nothing. -/
def set
    (map : IndexMap α)
    (index : Int)
    (value : α) :
    IndexMap α :=
  if covered : map.offset ≤ index ∧ index < map.offset + map.size then
    { map with
      value? := Function.update map.value? index (some value)
      inside := by
        intro other held
        by_cases same : other = index
        · rw [same]
          exact covered
        · rw [Function.update_of_ne same] at held
          exact map.inside other held }
  else map

/--
Remove the value at the first index and move the range up by one,
if there is a value.
-/
def advance (map : IndexMap α) : Option α × IndexMap α :=
  match map.value? map.offset with
  | none => (none, map)
  | some value =>
      (some value,
        { offset := map.offset + 1
          size := map.size
          value? := Function.update map.value? map.offset none
          inside := by
            intro index held
            by_cases first : index = map.offset
            · rw [first, Function.update_self] at held
              exact (held rfl).elim
            · rw [Function.update_of_ne first] at held
              have bounds := map.inside index held
              omega })

/-- Cut the range short or extend it; values past its new end are gone. -/
def resize
    (map : IndexMap α)
    (size : Nat) :
    IndexMap α :=
  { offset := map.offset
    size := size
    value? :=
      fun index => if index < map.offset + size then map.value? index else none
    inside := by
      intro index held
      split at held
      · next below => exact ⟨(map.inside index held).1, below⟩
      · exact (held rfl).elim }

/-- The last index of the range. -/
def tail (map : IndexMap α) : Int :=
  map.offset + map.size - 1

/-- Somewhere from the offset on there is an index without a value. -/
theorem exists_gap (map : IndexMap α) :
    ∃ count : Nat, map.value? (map.offset + count) = none := by
  refine ⟨map.size, ?_⟩
  by_contra held
  have bounds := map.inside _ held
  omega

/--
The length of the longest run of values from the offset on: it
ends at the first gap.
-/
def filledRun (map : IndexMap α) : Nat :=
  Nat.find map.exists_gap

/--
A run from the offset on holds values throughout exactly if it is
no longer than that.
-/
theorem le_filledRun_iff
    {map : IndexMap α}
    {count : Nat} :
    count ≤ map.filledRun ↔
      ∀ position < count, (map.value? (map.offset + position)).isSome := by
  unfold filledRun
  rw [Nat.le_find_iff]
  simp only [← ne_eq, Option.isSome_iff_ne_none]

end IndexMap

namespace Window

variable {α : Type}

/-- What a caller asks of a window. -/
inductive Call (α : Type) where
  | set (index : Int) (value : α)
  | get (position : Nat)
  | advance
  | leadingFilled
  | resize (size : Nat)
  | tail

/-- What a window answers. -/
inductive Answer (α : Type) where
  | done
  | value (found : Option α)
  | count (count : Nat)
  | index (index : Int)

/-- The answer of a window to a call, and the window afterwards. -/
def answer
    (window : Window α) :
    Call α →
    Answer α × Window α
  | .set index value => (.done, window.set index value)
  | .get position => (.value (window.slot? position), window)
  | .advance =>
      let (taken, window) := window.advance
      (.value taken, window)
  | .leadingFilled => (.count window.leadingFilled, window)
  | .resize size => (.done, window.resize size)
  | .tail => (.index window.tail, window)

/-- The answers of a window to calls, and the window afterwards. -/
def answerAll
    (window : Window α) :
    List (Call α) →
    List (Answer α) × Window α
  | [] => ([], window)
  | call :: rest =>
      let (first, window) := window.answer call
      let (others, window) := window.answerAll rest
      (first :: others, window)

end Window

namespace IndexMap

variable {α : Type}

/-- The answer of a map to a call on its window, and the map afterwards. -/
def answer
    (map : IndexMap α) :
    Window.Call α →
    Window.Answer α × IndexMap α
  | .set index value => (.done, map.set index value)
  | .get position => (.value (map.value? (map.offset + position)), map)
  | .advance =>
      let (taken, map) := map.advance
      (.value taken, map)
  | .leadingFilled => (.count map.filledRun, map)
  | .resize size => (.done, map.resize size)
  | .tail => (.index map.tail, map)

/-- The answers of a map to calls, and the map afterwards. -/
def answerAll
    (map : IndexMap α) :
    List (Window.Call α) →
    List (Window.Answer α) × IndexMap α
  | [] => ([], map)
  | call :: rest =>
      let (first, map) := map.answer call
      let (others, map) := map.answerAll rest
      (first :: others, map)

end IndexMap

namespace Window

variable {α : Type}

/-- The map that a window stands for. -/
def toIndexMap (window : Window α) : IndexMap α :=
  { offset := window.offset
    size := window.size
    value? := window.read?
    inside := by
      intro index held
      by_contra outside
      rcases Int.lt_or_le index window.offset with below | above
      · exact held (read?_below below)
      · exact held (read?_beyond (by omega)) }

/-- A fresh window stands for the empty map of its range. -/
theorem toIndexMap_empty
    (size : Nat)
    (offset : Int) :
    (empty (α := α) size offset).toIndexMap = IndexMap.empty size offset := by
  apply IndexMap.ext
  · rfl
  · exact List.length_replicate
  · funext index
    exact read?_empty size offset index

theorem toIndexMap_set
    (window : Window α)
    (index : Int)
    (value : α) :
    (window.set index value).toIndexMap = window.toIndexMap.set index value := by
  unfold IndexMap.set
  split
  · next covered =>
      apply IndexMap.ext
      · exact offset_set window index value
      · exact size_set window index value
      · funext other
        change (window.set index value).read? other =
          Function.update window.read? index (some value) other
        by_cases same : other = index
        · rw [same, Function.update_self]
          exact read?_set_self value covered.1 covered.2
        · rw [Function.update_of_ne same]
          exact read?_set_ne value same
  · next outside => rw [set_of_outside value outside]

theorem toIndexMap_resize
    (window : Window α)
    (size : Nat) :
    (window.resize size).toIndexMap = window.toIndexMap.resize size := by
  apply IndexMap.ext
  · rfl
  · exact size_resize window size
  · funext index
    exact read?_resize window size index

/-- A window takes what its map removes, and moves up with it. -/
theorem toIndexMap_advance (window : Window α) :
    window.toIndexMap.advance =
      (window.advance.1, window.advance.2.toIndexMap) := by
  have first_eq : window.toIndexMap.value? window.toIndexMap.offset =
      window.advance.1 :=
    (advance_fst window).symm
  unfold IndexMap.advance
  split
  · next stuck =>
      rw [first_eq] at stuck
      rw [stuck, advance_snd_of_none stuck]
  · next value taken =>
      rw [first_eq] at taken
      obtain ⟨offset_eq, size_eq⟩ := advance_snd_of_some taken
      rw [taken, Prod.mk.injEq]
      refine ⟨rfl, IndexMap.ext offset_eq.symm size_eq.symm ?_⟩
      funext index
      change Function.update window.read? window.offset none index =
        window.advance.2.read? index
      rcases Int.lt_trichotomy index window.offset with below | first | above
      · rw [Function.update_of_ne (by omega), read?_below below,
          read?_below (by omega)]
      · rw [first, Function.update_self, read?_below (by omega)]
      · rw [Function.update_of_ne (by omega), read?_advance taken above]

/--
A window has as many leading filled slots as the longest run of its map is long.
-/
theorem filledRun_toIndexMap (window : Window α) :
    window.toIndexMap.filledRun = window.leadingFilled := by
  refine Nat.le_antisymm ?_ ?_
  · exact le_leadingFilled_iff.mpr (IndexMap.le_filledRun_iff.mp (Nat.le_refl _))
  · exact IndexMap.le_filledRun_iff.mpr (le_leadingFilled_iff.mp (Nat.le_refl _))

/--
One call: the map gives the answer of its window and becomes the
map of what is left.
-/
theorem answer_toIndexMap
    (window : Window α)
    (call : Call α) :
    window.toIndexMap.answer call =
      ((window.answer call).1, (window.answer call).2.toIndexMap) := by
  cases call with
  | set index value => simp only [IndexMap.answer, answer, toIndexMap_set]
  | get position =>
      have found : window.toIndexMap.value? (window.toIndexMap.offset + position) =
          window.slot? position :=
        read?_offset_add window position
      simp only [IndexMap.answer, answer, found]
  | advance => simp only [IndexMap.answer, answer, toIndexMap_advance]
  | leadingFilled => simp only [IndexMap.answer, answer, filledRun_toIndexMap]
  | resize size => simp only [IndexMap.answer, answer, toIndexMap_resize]
  | tail => rfl

/-- Any calls: the map gives the answers of its window. -/
theorem answerAll_toIndexMap
    (window : Window α)
    (calls : List (Call α)) :
    window.toIndexMap.answerAll calls =
      ((window.answerAll calls).1, (window.answerAll calls).2.toIndexMap) := by
  induction calls generalizing window with
  | nil => rfl
  | cons call rest inductionHypothesis =>
      simp only [IndexMap.answerAll, answerAll, answer_toIndexMap,
        inductionHypothesis]

/--
Whatever is asked of a window, from any range on and in any order, it answers
as the map from the indices of that range to values answers, and stands for
what that map has become.
-/
theorem answers_as_index_map
    (size : Nat)
    (offset : Int)
    (calls : List (Call α)) :
    ((empty size offset).answerAll calls).1 =
      ((IndexMap.empty size offset).answerAll calls).1 ∧
      ((empty size offset).answerAll calls).2.toIndexMap =
        ((IndexMap.empty size offset).answerAll calls).2 := by
  rw [← toIndexMap_empty, answerAll_toIndexMap]
  exact ⟨rfl, rfl⟩

/--
Two slots below zero: index 0 can be stored once the window has
moved, and is cut off again.
-/
example :
    ((empty 2 (-2)).answerAll
      [.set 0 7, .set (-2) 5, .advance, .tail, .set 0 7, .leadingFilled, .get 1,
        .resize 1, .get 1, .advance]).1 =
      [.done, .done, .value (some 5), .index 0, .done, .count 0, .value (some 7),
        .done, .value none, .value none] :=
  rfl

end Window

end Coap
