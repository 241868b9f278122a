import Mathlib.Data.List.Basic
import Mathlib.Data.List.Sort
import Mathlib.Data.UInt
import Mathlib.Tactic.Common
import Coap.Wire.Encode

namespace Coap.Wire

/-!
# The order of options on the wire

A datagram holds the options in ascending order of their numbers, and options
with the same number in the order in which the message holds them. These two
properties leave only one order.
-/

/-- The number of an option on the wire. -/
def wireNumber (option : MessageOption) : Nat :=
  option.number.toUInt16.toNat

/-- Options in ascending order, equal numbers in the order of the original list. -/
structure IsStableSort
    (options sorted : List MessageOption) :
    Prop where
  ascending : sorted.Pairwise fun first second =>
    wireNumber first ≤ wireNumber second
  stable : ∀ number,
    (sorted.filter fun option => wireNumber option = number) =
      options.filter fun option => wireNumber option = number

/-- Whether an option may stand before another one. -/
def MayPrecede
    (first second : MessageOption) :
    Prop :=
  first.number.toUInt16 ≤ second.number.toUInt16

instance : DecidableRel MayPrecede := fun first second =>
  inferInstanceAs (Decidable (first.number.toUInt16 ≤ second.number.toUInt16))

instance : Std.Total MayPrecede :=
  ⟨fun first second => UInt16.le_total first.number.toUInt16 second.number.toUInt16⟩

instance : IsTrans MessageOption MayPrecede :=
  ⟨fun _ _ _ first second => UInt16.le_trans first second⟩

/-- Inserting by number is ordered insertion. -/
theorem insertByNumber_eq_orderedInsert
    (option : MessageOption)
    (options : List MessageOption) :
    insertByNumber option options = options.orderedInsert MayPrecede option := by
  induction options with
  | nil => rfl
  | cons head rest inductionHypothesis =>
      rw [insertByNumber, List.orderedInsert, inductionHypothesis]
      rfl

/-- Sorting by number is insertion sort. -/
theorem sortByNumber_eq_insertionSort (options : List MessageOption) :
    sortByNumber options = options.insertionSort MayPrecede := by
  induction options with
  | nil => rfl
  | cons option rest inductionHypothesis =>
      have unfolded : sortByNumber (option :: rest) =
          insertByNumber option (sortByNumber rest) :=
        rfl
      rw [unfolded, inductionHypothesis, insertByNumber_eq_orderedInsert]
      rfl

/-- Sorting keeps exactly the options there are. -/
theorem mem_sortByNumber
    {option : MessageOption}
    {options : List MessageOption} :
    option ∈ sortByNumber options ↔ option ∈ options := by
  rw [sortByNumber_eq_insertionSort]
  exact (List.perm_insertionSort MayPrecede options).mem_iff

/-- Sorted options are in ascending order. -/
theorem sortByNumber_ascending (options : List MessageOption) :
    (sortByNumber options).Pairwise MayPrecede := by
  rw [sortByNumber_eq_insertionSort]
  exact List.pairwise_insertionSort MayPrecede options

/-- Inserting an option passes over smaller numbers only. -/
theorem filter_insertByNumber
    (number : Nat)
    (option : MessageOption)
    (options : List MessageOption) :
    ((insertByNumber option options).filter fun option =>
      wireNumber option = number) =
      (option :: options).filter fun option => wireNumber option = number := by
  induction options with
  | nil => rfl
  | cons head rest inductionHypothesis =>
      rw [insertByNumber]
      split
      · rfl
      · next passes =>
          have differ : wireNumber head < wireNumber option :=
            UInt16.not_le.mp passes
          rw [List.filter_cons, inductionHypothesis]
          by_cases isHead : wireNumber head = number
          · have other : wireNumber option ≠ number := by omega
            simp [isHead, other]
          · simp [List.filter_cons, isHead]

/-- Sorting by number is stable. -/
theorem isStableSort_sortByNumber (options : List MessageOption) :
    IsStableSort options (sortByNumber options) := by
  constructor
  case ascending =>
    exact (sortByNumber_ascending options).imp fun before =>
      UInt16.le_iff_toNat_le.mp before
  case stable =>
    intro number
    induction options with
    | nil => rfl
    | cons option rest inductionHypothesis =>
        have unfolded :
            sortByNumber (option :: rest) =
              insertByNumber option (sortByNumber rest) :=
          rfl
        rw [unfolded, filter_insertByNumber, List.filter_cons, List.filter_cons,
          inductionHypothesis]

/-- Ascending options are determined by the options of each number in order. -/
theorem eq_of_filter_eq
    {first second : List MessageOption}
    (firstAscending : first.Pairwise fun one other =>
      wireNumber one ≤ wireNumber other)
    (secondAscending : second.Pairwise fun one other =>
      wireNumber one ≤ wireNumber other)
    (same : ∀ number,
      (first.filter fun option => wireNumber option = number) =
        second.filter fun option => wireNumber option = number) :
    first = second := by
  have member (option : MessageOption) : option ∈ first ↔ option ∈ second := by
    have byNumber := congrArg (option ∈ ·) (same (wireNumber option))
    simpa using byNumber
  induction first generalizing second with
  | nil =>
      cases second with
      | nil => rfl
      | cons head rest => simpa using (member head).mpr List.mem_cons_self
  | cons head rest inductionHypothesis =>
      cases second with
      | nil => simpa using (member head).mp List.mem_cons_self
      | cons other others =>
          obtain ⟨headLeast, restAscending⟩ := List.pairwise_cons.mp firstAscending
          obtain ⟨otherLeast, othersAscending⟩ :=
            List.pairwise_cons.mp secondAscending
          have head_le : wireNumber other ≤ wireNumber head := by
            rcases List.mem_cons.mp ((member head).mp List.mem_cons_self) with
              isOther | inOthers
            · rw [isOther]
            · exact otherLeast head inOthers
          have other_le : wireNumber head ≤ wireNumber other := by
            rcases List.mem_cons.mp
              ((member other).mpr List.mem_cons_self) with isHead | inRest
            · rw [isHead]
            · exact headLeast other inRest
          have number_eq : wireNumber other = wireNumber head :=
            Nat.le_antisymm head_le other_le
          have atNumber := same (wireNumber head)
          simp only [List.filter_cons, number_eq, decide_true, ↓reduceIte,
            List.cons.injEq] at atNumber
          have sameRest (number : Nat) :
              (rest.filter fun option => wireNumber option = number) =
                others.filter fun option => wireNumber option = number := by
            by_cases isNumber : wireNumber head = number
            · subst isNumber
              exact atNumber.2
            · have reduced := same number
              simpa [List.filter_cons, number_eq, isNumber] using reduced
          rw [atNumber.1,
            inductionHypothesis restAscending othersAscending sameRest]
          intro option
          have byNumber := congrArg (option ∈ ·) (sameRest (wireNumber option))
          simpa using byNumber

/-- There is only one stable sort. -/
theorem IsStableSort.eq_sortByNumber
    {options sorted : List MessageOption}
    (stable : IsStableSort options sorted) :
    sorted = sortByNumber options := by
  have computed := isStableSort_sortByNumber options
  exact eq_of_filter_eq stable.ascending computed.ascending fun number =>
    (stable.stable number).trans (computed.stable number).symm

end Coap.Wire
