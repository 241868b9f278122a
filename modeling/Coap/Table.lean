namespace Coap

/-!
# Tables

A table is an association list that holds each key once, in the order in
which the keys first arrived. `put` replaces in place or appends, so the order
of the other pairs never changes.
-/

/-- Pairs of keys and values; the operations below keep the keys distinct. -/
abbrev Table (K V : Type) := List (K × V)

namespace Table

variable {K V : Type} [DecidableEq K]

/-- The value stored under `key`. -/
def find?
    (key : K) :
    Table K V →
    Option V
  | [] => none
  | (k, v) :: rest => if k = key then some v else find? key rest

/-- Store `value` under `key`: in the key's place if it has one, else at the end. -/
def put
    (key : K)
    (value : V) :
    Table K V →
    Table K V
  | [] => [(key, value)]
  | (k, v) :: rest =>
      if k = key then (key, value) :: rest
      else (k, v) :: put key value rest

/-- Remove `key` and its value. -/
def erase
    (key : K)
    (table : Table K V) :
    Table K V :=
  table.filter fun pair => pair.1 ≠ key

/-- The keys in order. -/
def keys
    (table : Table K V) :
    List K :=
  table.map Prod.fst

@[simp]
theorem find?_nil (key : K) :
    find? key ([] : Table K V) = none :=
  rfl

theorem find?_cons (key : K) (pair : K × V) (rest : Table K V) :
    find? key (pair :: rest) =
      if pair.1 = key then some pair.2 else find? key rest :=
  rfl

@[simp]
theorem find?_put_self (key : K) (value : V) (table : Table K V) :
    find? key (put key value table) = some value := by
  induction table with
  | nil => simp [put, find?]
  | cons pair rest ih =>
      obtain ⟨k, v⟩ := pair
      by_cases h : k = key
      · simp [put, find?, h]
      · simp [put, find?, h, ih]

theorem find?_put_ne
    {key other : K}
    (h : other ≠ key)
    (value : V)
    (table : Table K V) :
    find? other (put key value table) = find? other table := by
  induction table with
  | nil => simp [put, find?, Ne.symm h]
  | cons pair rest ih =>
      obtain ⟨k, v⟩ := pair
      by_cases hk : k = key
      · subst hk
        simp [put, find?, Ne.symm h]
      · simp [put, find?, hk, ih]

@[simp]
theorem find?_erase_self (key : K) (table : Table K V) :
    find? key (erase key table) = none := by
  induction table with
  | nil => rfl
  | cons pair rest ih =>
      obtain ⟨k, v⟩ := pair
      by_cases h : k = key
      · simpa [erase, find?, h] using ih
      · simpa [erase, find?, h] using ih

theorem find?_erase_ne {key other : K} (h : other ≠ key) (table : Table K V) :
    find? other (erase key table) = find? other table := by
  induction table with
  | nil => rfl
  | cons pair rest ih =>
      obtain ⟨k, v⟩ := pair
      by_cases hk : k = key
      · subst hk
        simpa [erase, find?, Ne.symm h] using ih
      · by_cases ho : k = other
        · subst ho
          simp [erase, find?, h]
        · simpa [erase, find?, hk, ho] using ih

end Table

end Coap
