import Mathlib.Data.List.DropRight
import Mathlib.Tactic.Common
import Coap.Proofs.Message.Options
import Coap.Proofs.Message.Path

namespace Coap

/-!
# Options tell what was added last

Whatever is called on a message comes down to options that are added and numbers
that are removed. The options of a message that started without any can be read off
the list of these changes: of a number, all values count that were added since it
was last removed, or the last of them if it is not repeatable. Options that a change
does not displace keep their order.
-/

namespace MessageOption

/-- The values of the options with a number, in order. -/
def valuesFor
    (number : OptionNumber)
    (options : List MessageOption) :
    List OptionValue :=
  (options.filter fun option => option.number = number).map value

theorem valuesFor_append
    (number : OptionNumber)
    (first second : List MessageOption) :
    valuesFor number (first ++ second) =
      valuesFor number first ++ valuesFor number second := by
  unfold valuesFor
  rw [List.filter_append, List.map_append]

theorem valuesFor_self (option : MessageOption) :
    valuesFor option.number [option] = [option.value] := by
  simp [valuesFor]

theorem valuesFor_of_ne
    {option : MessageOption}
    {number : OptionNumber}
    (different : option.number ≠ number) :
    valuesFor number [option] = [] := by
  simp [valuesFor, different]

/--
All values of a number are kept, or none, if only the number decides what is kept.
-/
theorem valuesFor_filter
    (number : OptionNumber)
    (options : List MessageOption)
    (kept : OptionNumber → Prop)
    [DecidablePred kept] :
    valuesFor number (options.filter fun option => kept option.number) =
      if kept number then valuesFor number options else [] := by
  unfold valuesFor
  rw [List.filter_filter]
  split
  · next isKept =>
      congr 1
      refine List.filter_congr fun option _ => ?_
      by_cases same : option.number = number
      · simp [same, isKept]
      · simp [same]
  · next isLost =>
      rw [List.map_eq_nil_iff, List.filter_eq_nil_iff]
      intro option _
      by_cases same : option.number = number
      · simp [same, isLost]
      · simp [same]

end MessageOption

namespace Message

open MessageOption
  (valuesFor valuesFor_append valuesFor_self valuesFor_of_ne valuesFor_filter)

/-- No option is carried twice, unless it is repeatable. -/
def CarriesOnce (message : Message) : Prop :=
  ∀ number : OptionNumber, number.isRepeatable = false →
    (valuesFor number message.options).length ≤ 1

/-! ## Changes -/

/-- What happens to the options of a message. -/
inductive Change where
  | added (option : MessageOption)
  | removed (number : OptionNumber)
deriving DecidableEq, Repr

namespace Change

/-- The option that is new. -/
def option? : Change → Option MessageOption
  | added option => some option
  | removed _ => none

/-- The change does away with the options of a number that were there before. -/
def Displaces (number : OptionNumber) : Change → Prop
  | added option => option.number = number ∧ number.isRepeatable = false
  | removed other => other = number

instance (number : OptionNumber) : DecidablePred (Displaces number)
  | added option => inferInstanceAs (Decidable (option.number = number ∧ _ = false))
  | removed other => inferInstanceAs (Decidable (other = number))

/-- The values that were added for a number since it was last removed, in order. -/
def addedSince
    (number : OptionNumber)
    (changes : List Change) :
    List OptionValue :=
  valuesFor number
    ((changes.rtakeWhile fun change => change ≠ removed number).filterMap option?)

/--
What is left of these values: all of them, or the last one if there can be one only.
-/
def standing
    (number : OptionNumber)
    (changes : List Change) :
    List OptionValue :=
  if number.isRepeatable then addedSince number changes
  else (addedSince number changes).getLast?.toList

theorem addedSince_concat_added
    (number : OptionNumber)
    (changes : List Change)
    (option : MessageOption) :
    addedSince number (changes ++ [added option]) =
      addedSince number changes ++ valuesFor number [option] := by
  unfold addedSince
  rw [List.rtakeWhile_concat_pos _ _ _ (by simp), List.filterMap_append,
    valuesFor_append]
  rfl

theorem addedSince_concat_removed
    (number other : OptionNumber)
    (changes : List Change) :
    addedSince number (changes ++ [removed other]) =
      if other = number then [] else addedSince number changes := by
  unfold addedSince
  split
  · next same =>
      rw [List.rtakeWhile_concat_neg _ _ _ (by simp [same])]
      rfl
  · next different =>
      rw [List.rtakeWhile_concat_pos _ _ _ (by simp [different]),
        List.filterMap_append, valuesFor_append]
      exact List.append_nil _

/-- Of a number that is not repeatable, one value is left at most. -/
theorem length_standing_le
    {number : OptionNumber}
    (unique : number.isRepeatable = false)
    (changes : List Change) :
    (standing number changes).length ≤ 1 := by
  unfold standing
  rw [unique]
  exact Option.length_toList_le

/--
What is left after one more change: what it does not displace, and what it adds.
-/
theorem standing_concat
    (number : OptionNumber)
    (changes : List Change)
    (change : Change) :
    standing number (changes ++ [change]) =
      (if change.Displaces number then [] else standing number changes) ++
        valuesFor number change.option?.toList := by
  unfold standing
  cases change with
  | added option =>
      -- a new value follows the others of its number, or takes their place
      rw [addedSince_concat_added]
      by_cases same : option.number = number
      · subst same
        cases repeatable : option.number.isRepeatable with
        | true => simp [Displaces, option?, repeatable]
        | false => simp [Displaces, option?, repeatable, valuesFor_self]
      · simp [Displaces, option?, same, valuesFor_of_ne same]
  | removed other =>
      rw [addedSince_concat_removed]
      by_cases same : other = number
      · simp [Displaces, option?, same, valuesFor]
      · simp [Displaces, option?, same, valuesFor]

end Change

variable {message : Message} {past : List Change}

/-- The message after a change. -/
def perform
    (message : Message) :
    Change →
    Message
  | .added option => message.addOption option
  | .removed number => message.removeOption number

/--
A change keeps the options that it does not displace, in their
order before the new one.
-/
theorem options_perform
    (message : Message)
    (change : Change) :
    (message.perform change).options =
      (message.options.filter fun option => ¬ change.Displaces option.number) ++
        change.option?.toList := by
  cases change with
  | added option =>
      unfold perform addOption
      dsimp only
      congr 1
      split
      · next repeatable =>
          refine (List.filter_eq_self.mpr fun other _ => ?_).symm
          simp only [Change.Displaces, decide_eq_true_eq, not_and]
          intro same
          simp [← same, repeatable]
      · next unique =>
          refine List.filter_congr fun other _ => ?_
          by_cases same : option.number = other.number
          · simp [Change.Displaces, ← same, unique]
          · simp [Change.Displaces, same, Ne.symm same]
  | removed number =>
      unfold perform removeOption
      rw [Change.option?, Option.toList_none, List.append_nil]
      exact List.filter_congr fun other _ =>
        decide_eq_decide.mpr (not_congr eq_comm)

/-- The values of a number after a change. -/
theorem valuesFor_perform
    (number : OptionNumber)
    (message : Message)
    (change : Change) :
    valuesFor number (message.perform change).options =
      (if change.Displaces number then [] else valuesFor number message.options) ++
        valuesFor number change.option?.toList := by
  rw [options_perform, valuesFor_append,
    valuesFor_filter number message.options fun other =>
      ¬ change.Displaces other, ite_not]

/-- The message carries what is left of the changes. -/
def Reflects
    (message : Message)
    (changes : List Change) :
    Prop :=
  ∀ number, valuesFor number message.options = Change.standing number changes

namespace Reflects

theorem nil (bare : message.options = []) :
    message.Reflects [] := by
  intro number
  rw [bare]
  unfold Change.standing
  exact (ite_self _).symm

theorem perform
    (reflects : message.Reflects past)
    (change : Change) :
    (message.perform change).Reflects (past ++ [change]) := by
  intro number
  rw [valuesFor_perform, Change.standing_concat, reflects number]

theorem performAll
    (reflects : message.Reflects past)
    (later : List Change) :
    (later.foldl Message.perform message).Reflects (past ++ later) := by
  induction later generalizing message past with
  | nil =>
      rw [List.append_nil]
      exact reflects
  | cons change rest inductionHypothesis =>
      rw [List.append_cons]
      exact inductionHypothesis (reflects.perform change)

end Reflects

/--
Changes keep the options that none of them displaces, in their order before the new
ones, if no change displaces what another one added before it.
-/
theorem options_performAll
    (message : Message)
    {changes : List Change}
    (compatible : changes.Pairwise fun earlier later =>
      ∀ option ∈ earlier.option?, ¬ later.Displaces option.number) :
    (changes.foldl perform message).options =
      (message.options.filter fun option =>
          ∀ change ∈ changes, ¬ change.Displaces option.number) ++
        changes.filterMap Change.option? := by
  induction changes generalizing message with
  | nil => simp
  | cons change rest inductionHypothesis =>
      obtain ⟨first, others⟩ := List.pairwise_cons.mp compatible
      -- the option that the first change adds outlives all others
      have kept :
          (change.option?.toList.filter fun option =>
              ∀ later ∈ rest, ¬ later.Displaces option.number) =
            change.option?.toList := by
        refine List.filter_eq_self.mpr fun option member => ?_
        rw [decide_eq_true_eq]
        intro later isLater
        exact first later isLater option (Option.mem_toList.mp member)
      rw [List.foldl_cons, inductionHypothesis _ others, options_perform,
        List.filter_append, kept, List.filter_filter, List.append_assoc]
      congr 1
      · refine List.filter_congr fun option _ => ?_
        simp [Bool.and_comm]
      · cases change <;> rfl

/-! ## Calls -/

/-- What a program calls to put a message together. -/
inductive Edit where
  | addOption (option : MessageOption)
  | removeOption (number : OptionNumber)
  | setPath (path : String)
  | setProxy (proxy : SocketAddress)
  /-- All but the options is set to what it is in `fields`. -/
  | assign (fields : Message)
deriving DecidableEq, Repr

/-- The message after a call. -/
def edit
    (message : Message) :
    Edit →
    Message
  | .addOption option => message.addOption option
  | .removeOption number => message.removeOption number
  | .setPath path => message.setPath path
  | .setProxy proxy => message.setProxy proxy
  | .assign fields => { fields with options := message.options }

/-- The message after calls. -/
def editAll
    (message : Message)
    (edits : List Edit) :
    Message :=
  edits.foldl edit message

/--
What a call changes: a path removes the one before it and adds its parts between
slashes that are not empty, a proxy adds where the message goes to in the end.
-/
def changes
    (message : Message) :
    Edit →
    List Change
  | .addOption option => [.added option]
  | .removeOption number => [.removed number]
  | .setPath path =>
      .removed .uriPath ::
        (((path.split '/').toList.map String.Slice.copy).filter
          fun part => part ≠ "").map
          fun part => .added (MessageOption.text .uriPath part)
  | .setProxy _ =>
      message.address.toList.map fun address =>
        .added (MessageOption.text .proxyUri
          (message.scheme ++ "://" ++ address.text))
  | .assign _ => []

/-- What calls change one after another. -/
def history
    (message : Message) :
    List Edit →
    List Change
  | [] => []
  | edit :: rest => message.changes edit ++ (message.edit edit).history rest

/-- Where an option is added, the other fields do not matter. -/
theorem options_addOption_congr
    {message other : Message}
    (same : message.options = other.options)
    (option : MessageOption) :
    (message.addOption option).options = (other.addOption option).options := by
  unfold addOption removeOption
  dsimp only
  split
  · rw [same]
  · rw [same]

/-- A call does nothing to the options but its changes. -/
theorem options_edit_eq
    (message : Message)
    (edit : Edit) :
    (message.edit edit).options =
      ((message.changes edit).foldl perform message).options := by
  cases edit with
  | addOption option => rfl
  | removeOption number => rfl
  | setPath path =>
      unfold Message.edit Message.changes setPath
      dsimp only
      rw [← Path.map_ofList_segments, List.foldl_cons,
        List.foldl_map, List.foldl_map]
      rfl
  | setProxy proxy =>
      unfold Message.edit Message.changes setProxy
      dsimp only
      cases message.address with
      | none => rfl
      | some address => exact options_addOption_congr rfl _
  | assign fields => rfl

/-- No change of a call displaces what the same call added before it. -/
theorem pairwise_changes
    (message : Message)
    (edit : Edit) :
    (message.changes edit).Pairwise fun earlier later =>
      ∀ option ∈ earlier.option?, ¬ later.Displaces option.number := by
  cases edit with
  | addOption option => exact List.pairwise_singleton _ _
  | removeOption number => exact List.pairwise_singleton _ _
  | setPath path =>
      refine List.pairwise_cons.mpr
        ⟨?_, List.pairwise_map.mpr (List.pairwise_of_forall ?_)⟩
      · intro later _ option isNew
        cases isNew
      · intro first second option isNew displaced
        cases isNew
        exact Bool.noConfusion displaced.2
  | setProxy proxy =>
      unfold Message.changes
      cases message.address with
      | none => exact List.Pairwise.nil
      | some address => exact List.pairwise_singleton _ _
  | assign fields => exact List.Pairwise.nil

/--
A call keeps the options that it does not displace, in their order
before the new ones.
-/
theorem options_edit
    (message : Message)
    (edit : Edit) :
    (message.edit edit).options =
      (message.options.filter fun option =>
          ∀ change ∈ message.changes edit, ¬ change.Displaces option.number) ++
        (message.changes edit).filterMap Change.option? := by
  rw [options_edit_eq, options_performAll message (message.pairwise_changes edit)]

theorem Reflects.edit
    (reflects : message.Reflects past)
    (edit : Edit) :
    (message.edit edit).Reflects (past ++ message.changes edit) := by
  intro number
  rw [options_edit_eq]
  exact reflects.performAll (message.changes edit) number

theorem Reflects.editAll
    (reflects : message.Reflects past)
    (edits : List Edit) :
    (message.editAll edits).Reflects (past ++ message.history edits) := by
  induction edits generalizing message past with
  | nil =>
      rw [history, List.append_nil]
      exact reflects
  | cons edit rest inductionHypothesis =>
      rw [history, ← List.append_assoc]
      exact inductionHypothesis (reflects.edit edit)

/-- A message that started without options carries what is left of its history. -/
theorem reflects_history
    (bare : message.options = [])
    (edits : List Edit) :
    (message.editAll edits).Reflects (message.history edits) :=
  (Reflects.nil bare).editAll edits

theorem carriesOnce_editAll
    (bare : message.options = [])
    (edits : List Edit) :
    (message.editAll edits).CarriesOnce := by
  intro number unique
  rw [reflects_history bare edits number]
  exact Change.length_standing_le unique _

/-! ## Answers -/

/--
Copying the options of some numbers is adding those that are there one by one.
-/
theorem foldl_addOption?_eq
    (source message : Message)
    (numbers : List OptionNumber) :
    numbers.foldl (fun copy number =>
      copy.addOption? (source.option? number)) message =
      (numbers.filterMap source.option?).foldl addOption message := by
  rw [List.foldl_filterMap]
  congr 1
  funext copy number
  cases source.option? number <;> rfl

theorem ackTo_eq_foldl
    (message : Message)
    (peer : Option SocketAddress)
    (code : Code) :
    message.ackTo peer code =
      (ackNumbers.filterMap message.option?).foldl addOption
        { id := message.id
          kind := .acknowledgement
          code := code
          token := message.token
          address := peer } :=
  foldl_addOption?_eq message _ ackNumbers

theorem resetTo_eq_foldl
    (message : Message)
    (peer : Option SocketAddress) :
    message.resetTo peer =
      ([OptionNumber.uriScheme].filterMap message.option?).foldl addOption
        { id := message.id
          kind := .reset
          code := .empty
          token := message.token
          address := peer } :=
  foldl_addOption?_eq message _ [.uriScheme]

theorem carriesOnce_foldl_addOption
    (bare : message.options = [])
    (added : List MessageOption) :
    (added.foldl addOption message).CarriesOnce := by
  have called : message.editAll (added.map .addOption) =
      added.foldl addOption message :=
    List.foldl_map
  rw [← called]
  exact carriesOnce_editAll bare _

/-- Options of different numbers are all kept. -/
theorem options_foldl_addOption
    (bare : message.options = [])
    {added : List MessageOption}
    (distinct : added.Pairwise fun first second => first.number ≠ second.number) :
    (added.foldl addOption message).options = added := by
  have performed :
      (added.map Change.added).foldl perform message =
        added.foldl addOption message :=
    List.foldl_map
  have compatible : (added.map Change.added).Pairwise fun earlier later =>
      ∀ option ∈ earlier.option?, ¬ later.Displaces option.number := by
    refine List.pairwise_map.mpr
      (distinct.imp fun {first second} different option isNew => ?_)
    cases isNew
    exact fun displaced => different displaced.1.symm
  rw [← performed, options_performAll message compatible, bare, List.filterMap_map]
  exact List.filterMap_some

/-- The first options of different numbers have different numbers. -/
theorem distinct_filterMap_option?
    (message : Message)
    {numbers : List OptionNumber}
    (distinct : numbers.Nodup) :
    (numbers.filterMap message.option?).Pairwise fun first second =>
      first.number ≠ second.number := by
  refine List.Pairwise.filterMap _ (fun first second different => ?_) distinct
  intro option isFirst other isSecond
  rw [number_of_option? isFirst, number_of_option? isSecond]
  exact different

/-- An acknowledgement carries the first option of each number that it copies. -/
theorem options_ackTo
    (message : Message)
    (peer : Option SocketAddress)
    (code : Code) :
    (message.ackTo peer code).options = ackNumbers.filterMap message.option? := by
  rw [ackTo_eq_foldl]
  exact options_foldl_addOption rfl (message.distinct_filterMap_option? (by decide))

/-- A reset carries the first option that names the scheme. -/
theorem options_resetTo
    (message : Message)
    (peer : Option SocketAddress) :
    (message.resetTo peer).options =
      [OptionNumber.uriScheme].filterMap message.option? := by
  rw [resetTo_eq_foldl]
  exact options_foldl_addOption rfl (message.distinct_filterMap_option? (by decide))

theorem carriesOnce_ackTo
    (message : Message)
    (peer : Option SocketAddress)
    (code : Code) :
    (message.ackTo peer code).CarriesOnce := by
  rw [ackTo_eq_foldl]
  exact carriesOnce_foldl_addOption rfl _

theorem carriesOnce_resetTo
    (message : Message)
    (peer : Option SocketAddress) :
    (message.resetTo peer).CarriesOnce := by
  rw [resetTo_eq_foldl]
  exact carriesOnce_foldl_addOption rfl _

/--
The options of a message that was put together by calls, starting without any, are
what was added last. An option that is not repeatable is there once at most, with
the value that was added last since its latest removal, and one that is repeatable
is there with all values added since then, in order. A call on any message leaves
the options that it does not displace in their order and puts the new ones behind
them. An acknowledgement and a reset carry no option twice that is not repeatable,
even if the message that they answer does: they take the first one of each number
that they copy.
-/
theorem options_hold_latest_values
    (message : Message)
    (bare : message.options = [])
    (edits : List Edit) :
    let built := message.editAll edits
    let past := message.history edits
    built.CarriesOnce ∧
    (∀ number : OptionNumber, number.isRepeatable = false →
      valuesFor number built.options =
        (Change.addedSince number past).getLast?.toList) ∧
    (∀ number : OptionNumber, number.isRepeatable = true →
      valuesFor number built.options = Change.addedSince number past) ∧
    ∀ given : Message,
      (∀ edit : Edit,
        (given.edit edit).options =
          (given.options.filter fun option =>
              ∀ change ∈ given.changes edit, ¬ change.Displaces option.number) ++
            (given.changes edit).filterMap Change.option?) ∧
      (∀ peer code,
        (given.ackTo peer code).CarriesOnce ∧
        (given.ackTo peer code).options =
          [OptionNumber.uriScheme, .observe,
            .proxySecurityId].filterMap given.option?) ∧
      ∀ peer,
        (given.resetTo peer).CarriesOnce ∧
        (given.resetTo peer).options =
          [OptionNumber.uriScheme].filterMap given.option? := by
  intro built past
  have reflects : built.Reflects past := reflects_history bare edits
  refine ⟨carriesOnce_editAll bare edits, ?_, ?_,
    fun given => ⟨given.options_edit, ?_, ?_⟩⟩
  · intro number unique
    rw [reflects number, Change.standing, unique]
    rfl
  · intro number repeatable
    rw [reflects number, Change.standing, if_pos repeatable]
  · intro peer code
    exact ⟨given.carriesOnce_ackTo peer code, given.options_ackTo peer code⟩
  · intro peer
    exact ⟨given.carriesOnce_resetTo peer, given.options_resetTo peer⟩

/--
A block that is replaced, a path that is set again, a destination and a tag that is
removed and added twice: each stands where it was added last.
-/
theorem options_hold_latest_values_set_again :
    let message : Message :=
      { id := 7
        kind := .confirmable
        code := .get
        address := some (SocketAddress.v4 10 0 0 1 5683) }
    let edits : List Edit :=
      [.addOption (MessageOption.uint .block1 1), .setPath "/old",
        .addOption ⟨.eTag, .bytes [1]⟩, .addOption (MessageOption.uint .block1 2),
        .setPath "/a//b", .removeOption .eTag, .setProxy (SocketAddress.v4 10 0 0 2
          5683), .addOption ⟨.eTag, .bytes [2]⟩, .addOption ⟨.eTag, .bytes [3]⟩]
    let past := message.history edits
    message.options = [] ∧
    (message.editAll edits).options =
      [MessageOption.uint .block1 2, MessageOption.text .uriPath "a",
        MessageOption.text .uriPath "b", MessageOption.text .proxyUri
          "coap://10.0.0.1:5683", ⟨.eTag, .bytes [2]⟩, ⟨.eTag, .bytes [3]⟩] ∧
    (Change.addedSince .block1 past).getLast? = some (.uint 2) ∧
    (Change.addedSince .proxyUri past).getLast? =
      some (.text "coap://10.0.0.1:5683") ∧
    Change.addedSince .uriPath past = [.text "a", .text "b"] ∧
    Change.addedSince .eTag past = [.bytes [2], .bytes [3]] := by
  intro message edits past
  obtain ⟨_, single, all, _⟩ := options_hold_latest_values message rfl edits
  have options_eq : (message.editAll edits).options =
      [MessageOption.uint .block1 2, MessageOption.text .uriPath "a",
        MessageOption.text .uriPath "b", MessageOption.text .proxyUri
          "coap://10.0.0.1:5683", ⟨.eTag, .bytes [2]⟩, ⟨.eTag, .bytes [3]⟩] := by
    decide
  rw [options_eq] at single all
  refine ⟨rfl, options_eq, ?_, ?_, ?_, ?_⟩
  · exact Option.toList_eq_singleton_iff.mp (single .block1 rfl).symm
  · exact Option.toList_eq_singleton_iff.mp (single .proxyUri rfl).symm
  · exact (all .uriPath rfl).symm
  · exact (all .eTag rfl).symm

end Message

end Coap
