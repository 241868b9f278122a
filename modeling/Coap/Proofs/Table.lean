import Mathlib.Data.List.Nodup
import Mathlib.Data.List.Perm.Basic
import Mathlib.Tactic.Common
import Coap.Table

namespace Coap.Table

/-!
# Tables as functions from keys

What a table holds under each key decides everything about it but its order.
-/

variable {K V : Type} [DecidableEq K]

theorem find?_put
    (key other : K)
    (value : V)
    (table : Table K V) :
    find? other (put key value table) =
      if other = key then some value else find? other table := by
  split
  · next same =>
      subst same
      exact find?_put_self other value table
  · next different => exact find?_put_ne different value table

/-- What is found after a replacement is what was put, or it was found before. -/
theorem find?_put_cases
    {key other : K}
    {value stored : V}
    {table : Table K V}
    (found : find? other (put key value table) = some stored) :
    (other = key ∧ stored = value) ∨
      (other ≠ key ∧ find? other table = some stored) := by
  rw [find?_put] at found
  split at found
  · next same => exact .inl ⟨same, (Option.some.inj found).symm⟩
  · next different => exact .inr ⟨different, found⟩

theorem find?_erase
    (key other : K)
    (table : Table K V) :
    find? other (erase key table) = if other = key then none
      else find? other table := by
  split
  · next same =>
      subst same
      exact find?_erase_self other table
  · next different => exact find?_erase_ne different table

theorem find?_singleton
    (key : K)
    (value : V) :
    find? key [(key, value)] = some value := by
  simp [find?]

theorem erase_singleton
    (key : K)
    (value : V) :
    erase key [(key, value)] = [] := by
  simp [erase]

/-- A key that is not in the table is not missed by removing it. -/
theorem erase_of_find?_none
    {key : K}
    {table : Table K V}
    (absent : find? key table = none) :
    erase key table = table := by
  induction table with
  | nil => rfl
  | cons pair rest inductionHypothesis =>
      obtain ⟨other, value⟩ := pair
      by_cases same : other = key
      · simp [find?, same] at absent
      · simp only [find?, same, ↓reduceIte] at absent
        have kept := inductionHypothesis absent
        unfold erase at kept ⊢
        rw [List.filter_cons, if_pos (by simpa using same), kept]

/-- What a table holds under a key stands in it. -/
theorem mem_of_find?
    {key : K}
    {value : V}
    {table : Table K V}
    (found : find? key table = some value) :
    (key, value) ∈ table := by
  induction table with
  | nil => cases found
  | cons pair rest inductionHypothesis =>
      obtain ⟨other, stored⟩ := pair
      by_cases same : other = key
      · simp only [find?, same, ↓reduceIte, Option.some.injEq] at found
        simp [same, found]
      · simp only [find?, same, ↓reduceIte] at found
        exact List.mem_cons_of_mem _ (inductionHypothesis found)

/-- If no key occurs twice, a table holds exactly the pairs that stand in it. -/
theorem find?_eq_some_iff
    {key : K}
    {value : V}
    {table : Table K V}
    (distinct : (keys table).Nodup) :
    find? key table = some value ↔ (key, value) ∈ table := by
  refine ⟨mem_of_find?, fun member => ?_⟩
  induction table with
  | nil => cases member
  | cons pair rest inductionHypothesis =>
      obtain ⟨other, stored⟩ := pair
      obtain ⟨notInRest, restDistinct⟩ := List.nodup_cons.mp distinct
      rcases List.mem_cons.mp member with isHead | inRest
      · cases isHead
        simp [find?]
      · have different : other ≠ key := by
          rintro rfl
          exact notInRest (List.mem_map.mpr ⟨_, inRest, rfl⟩)
        simp only [find?, different, ↓reduceIte]
        exact inductionHypothesis restDistinct inRest

/-- The order of the pairs does not matter for what a table holds. -/
theorem find?_perm
    {first second : Table K V}
    (perm : first.Perm second)
    (distinct : (keys second).Nodup)
    (key : K) :
    find? key first = find? key second := by
  have firstDistinct : (keys first).Nodup :=
    (perm.map Prod.fst).nodup_iff.mpr distinct
  ext value
  rw [find?_eq_some_iff firstDistinct, find?_eq_some_iff distinct, perm.mem_iff]

/-- Values may be changed before or after they are looked up. -/
theorem find?_map
    {W : Type}
    (change : V → W)
    (key : K)
    (table : Table K V) :
    find? key (table.map fun pair => (pair.1, change pair.2)) =
      (find? key table).map change := by
  induction table with
  | nil => rfl
  | cons pair rest inductionHypothesis =>
      by_cases same : pair.1 = key
      · simp [find?_cons, same]
      · simp [find?_cons, same, inductionHypothesis]

/-- Values may be changed before or after a key is removed. -/
theorem erase_map
    {W : Type}
    (change : V → W)
    (key : K)
    (table : Table K V) :
    erase key (table.map fun pair => (pair.1, change pair.2)) =
      (erase key table).map fun pair => (pair.1, change pair.2) := by
  unfold erase
  rw [List.filter_map]
  rfl

theorem find?_eq_none_iff
    {key : K}
    {table : Table K V} :
    find? key table = none ↔ key ∉ keys table := by
  induction table with
  | nil => simp [keys]
  | cons pair rest inductionHypothesis =>
      by_cases same : pair.1 = key
      · simp [find?_cons, keys, same]
      · have different : key ≠ pair.1 := Ne.symm same
        simpa [find?_cons, keys, same, different] using inductionHypothesis

/-- Storing under a new key appends. -/
theorem put_of_find?_none
    {key : K}
    {table : Table K V}
    (absent : find? key table = none)
    (value : V) :
    put key value table = table ++ [(key, value)] := by
  induction table with
  | nil => rfl
  | cons pair rest inductionHypothesis =>
      obtain ⟨other, stored⟩ := pair
      by_cases same : other = key
      · simp [find?, same] at absent
      · simp only [find?, same, ↓reduceIte] at absent
        simp [put, same, inductionHypothesis absent]

/-- Storing removes the key's old pair and adds the new one. -/
theorem put_perm
    {table : Table K V}
    (distinct : (keys table).Nodup)
    (key : K)
    (value : V) :
    (put key value table).Perm (erase key table ++ [(key, value)]) := by
  induction table with
  | nil => exact List.Perm.refl _
  | cons pair rest inductionHypothesis =>
      obtain ⟨other, stored⟩ := pair
      obtain ⟨notInRest, restDistinct⟩ := List.nodup_cons.mp distinct
      by_cases same : other = key
      · subst same
        have untouched : erase other rest = rest :=
          erase_of_find?_none (find?_eq_none_iff.mpr notInRest)
        have erased : erase other ((other, stored) :: rest) = rest := by
          rw [← untouched]
          simp [erase]
        rw [erased]
        simpa [put] using (List.perm_append_singleton (other, value) rest).symm
      · have kept : erase key ((other, stored) :: rest) =
            (other, stored) :: erase key rest := by
          simp [erase, same]
        simpa [put, same, kept] using
          (inductionHypothesis restDistinct).cons (other, stored)

/-- Replacing a value is not seen by a function that does not tell the two apart. -/
theorem map_put_of_find?
    {W : Type}
    (view : K × V → W)
    {key : K}
    {value stored : V}
    {table : Table K V}
    (found : find? key table = some stored)
    (same : view (key, value) = view (key, stored)) :
    (put key value table).map view = table.map view := by
  induction table with
  | nil => cases found
  | cons pair rest inductionHypothesis =>
      obtain ⟨other, held⟩ := pair
      by_cases isKey : other = key
      · simp only [find?, isKey, ↓reduceIte, Option.some.injEq] at found
        simp [put, isKey, same, found]
      · simp only [find?, isKey, ↓reduceIte] at found
        simp [put, isKey, inductionHypothesis found]

/-- Values may be changed before or after one is stored. -/
theorem put_map
    {W : Type}
    (change : V → W)
    (key : K)
    (value : V)
    (table : Table K V) :
    put key (change value) (table.map fun pair => (pair.1, change pair.2)) =
      (put key value table).map fun pair => (pair.1, change pair.2) := by
  induction table with
  | nil => rfl
  | cons pair rest inductionHypothesis =>
      by_cases same : pair.1 = key
      · simp [put, same]
      · simp [put, same, inductionHypothesis]

/-- Removing what has just been stored removes what was stored before it. -/
theorem erase_put
    (key : K)
    (value : V)
    (table : Table K V) :
    erase key (put key value table) = erase key table := by
  induction table with
  | nil => simp [put, erase]
  | cons pair rest inductionHypothesis =>
      by_cases same : pair.1 = key
      · simp [put, erase, same]
      · simpa [put, erase, same] using inductionHypothesis

/-- Only the last value stored under a key counts. -/
theorem put_put
    (key : K)
    (first second : V)
    (table : Table K V) :
    put key second (put key first table) = put key second table := by
  induction table with
  | nil => simp [put]
  | cons pair rest inductionHypothesis =>
      by_cases same : pair.1 = key
      · simp [put, same]
      · simp [put, same, inductionHypothesis]

/-! ## Lengths -/

/-- Replacing a value makes a table no longer. -/
theorem length_put_of_find?
    {key : K}
    {stored : V}
    {table : Table K V}
    (found : find? key table = some stored)
    (value : V) :
    (put key value table).length = table.length := by
  induction table with
  | nil => cases found
  | cons pair rest inductionHypothesis =>
      obtain ⟨other, held⟩ := pair
      by_cases isKey : other = key
      · simp [put, isKey]
      · simp only [find?, isKey, ↓reduceIte] at found
        simp [put, isKey, inductionHypothesis found]

theorem length_put_le
    (key : K)
    (value : V)
    (table : Table K V) :
    (put key value table).length ≤ table.length + 1 := by
  cases found : find? key table with
  | none => simp [put_of_find?_none found]
  | some stored => simp [length_put_of_find? found]

theorem length_erase_le
    (key : K)
    (table : Table K V) :
    (erase key table).length ≤ table.length :=
  List.length_filter_le _ table

/-- Removing a key that is there makes a table shorter. -/
theorem length_erase_lt
    {key : K}
    {stored : V}
    {table : Table K V}
    (found : find? key table = some stored) :
    (erase key table).length < table.length :=
  List.length_filter_lt_length_iff_exists.mpr ⟨_, mem_of_find? found, by simp⟩

/-! ## Deciding -/

section Decide

variable {P : K → V → Prop} {table : Table K V}

theorem exists_find?_iff :
    (∃ key value, find? key table = some value ∧ P key value) ↔
      ∃ key ∈ keys table, ∃ value ∈ find? key table, P key value := by
  constructor
  · rintro ⟨key, value, found, holds⟩
    exact ⟨key, List.mem_map_of_mem (mem_of_find? found), value, found, holds⟩
  · rintro ⟨key, _, value, found, holds⟩
    exact ⟨key, value, found, holds⟩

theorem forall_find?_iff :
    (∀ key value, find? key table = some value → P key value) ↔
      ∀ key ∈ keys table, ∀ value ∈ find? key table, P key value := by
  constructor
  · exact fun all key _ value found => all key value found
  · exact fun all key value found =>
      all key (List.mem_map_of_mem (mem_of_find? found)) value found

instance [∀ key value, Decidable (P key value)] :
    Decidable (∃ key value, find? key table = some value ∧ P key value) :=
  decidable_of_iff _ exists_find?_iff.symm

instance [∀ key value, Decidable (P key value)] :
    Decidable (∀ key value, find? key table = some value → P key value) :=
  decidable_of_iff _ forall_find?_iff.symm

end Decide

end Coap.Table
