import Coap.Message.Path
import Coap.Proofs.Wire.RoundTrip

namespace Coap.Wire

/-!
# Looking up options of a message that was read

The first option with a number in a message that was read from a datagram is the
first one with that number in the message that was written, read again in the format
of the number.
-/

/-- The first option of a message with a number on the wire. -/
def firstOnWire?
    (options : List MessageOption)
    (number : UInt16) :
    Option MessageOption :=
  options.find? fun option => option.number.toUInt16 == number

/-- Sorting keeps the first option with a number. -/
theorem firstOnWire?_sortByNumber
    (options : List MessageOption)
    (number : UInt16) :
    firstOnWire? (sortByNumber options) number = firstOnWire? options number := by
  have same := (isStableSort_sortByNumber options).stable number.toNat
  have decides (option : MessageOption) :
      (option.number.toUInt16 == number) =
        decide (wireNumber option = number.toNat) := by
    rw [Bool.eq_iff_iff, beq_iff_eq, decide_eq_true_iff]
    exact UInt16.toNat_inj.symm
  unfold firstOnWire?
  simp only [decides]
  rw [← List.head?_filter, same, List.head?_filter]

/-- What is read has the number that its wire number means. -/
theorem number_of_rereadOption
    {option read : MessageOption}
    (success : rereadOption option = .ok read) :
    read.number = OptionNumber.ofUInt16 option.number.toUInt16 := by
  unfold rereadOption at success
  dsimp only at success
  cases value : decodeValue (OptionNumber.ofUInt16 option.number.toUInt16).format
      (encodeValue option.value) with
  | error cause =>
      rw [value] at success
      cases success
  | ok decoded =>
      rw [value] at success
      cases success
      rfl

/--
Options are found under canonical numbers exactly where they stand on the wire.
-/
theorem number_beq_of_rereadOption
    {option read : MessageOption}
    (success : rereadOption option = .ok read)
    {number : OptionNumber}
    (canonical : number.IsCanonical) :
    (read.number == number) = (option.number.toUInt16 == number.toUInt16) := by
  rw [number_of_rereadOption success, Bool.eq_iff_iff, beq_iff_eq, beq_iff_eq]
  constructor
  · rintro rfl
    rw [OptionNumber.toUInt16_ofUInt16]
  · intro same
    rw [same]
    exact canonical

theorem find?_of_rereadOption
    {options read : List MessageOption}
    (pairs : List.Forall₂
      (fun option result => rereadOption option = .ok result) options read)
    {number : OptionNumber}
    (canonical : number.IsCanonical) :
    (read.find? fun option => option.number == number) =
      (firstOnWire? options number.toUInt16).bind fun option =>
        (rereadOption option).toOption := by
  induction pairs with
  | nil => rfl
  | @cons option first options others reread rest inductionHypothesis =>
      unfold firstOnWire? at inductionHypothesis ⊢
      rw [List.find?_cons, List.find?_cons,
        number_beq_of_rereadOption reread canonical]
      split
      · rw [Option.bind_some, reread]
        rfl
      · exact inductionHypothesis

/--
A look-up in a message that was read leads back to the message that was written.
-/
theorem option?_of_decode
    {message received : Message}
    {bytes : List UInt8}
    (written : encode message = .ok bytes)
    (reading : decode bytes = .ok received)
    {number : OptionNumber}
    (canonical : number.IsCanonical) :
    received.option? number =
      (firstOnWire? message.options number.toUInt16).bind fun option =>
        (rereadOption option).toOption := by
  rw [decode_of_encode written] at reading
  rw [← firstOnWire?_sortByNumber]
  cases success : (sortByNumber message.options).mapM rereadOption with
  | error cause =>
      rw [success] at reading
      cases reading
  | ok read =>
      rw [success] at reading
      cases reading
      exact find?_of_rereadOption (mapM_eq_ok_iff.mp success) canonical

theorem exists_uint_of_isTyped
    {option : MessageOption}
    (typed : IsTyped option)
    (isUint : option.number.format = .uint) :
    ∃ value, option.value = .uint value := by
  unfold IsTyped at typed
  rw [isUint] at typed
  cases stored : option.value with
  | uint value => exact ⟨value, rfl⟩
  | empty => simp [stored] at typed
  | text value => simp [stored] at typed
  | bytes value => simp [stored] at typed

/-- An integer that stands first under its number is read as that integer. -/
theorem uint?_of_decode
    {message received : Message}
    {bytes : List UInt8}
    (written : encode message = .ok bytes)
    (reading : decode bytes = .ok received)
    {number : OptionNumber}
    (canonical : number.IsCanonical)
    (isUint : number.format = .uint)
    {value : UInt64}
    (first :
      firstOnWire? message.options number.toUInt16 =
        some (MessageOption.uint number value)) :
    received.uint? number = some value := by
  have typed : IsTyped (MessageOption.uint number value) := by
    unfold IsTyped MessageOption.uint
    rw [isUint]
    trivial
  unfold Message.uint?
  rw [option?_of_decode written reading canonical, first, Option.bind_some,
    rereadOption_of_isTyped canonical typed]
  rfl

/-- What is read has a canonical number, and an integer where that calls for one. -/
theorem isTyped_of_rereadOption
    {option read : MessageOption}
    (success : rereadOption option = .ok read) :
    read.number.IsCanonical ∧ (read.number.format = .uint → IsTyped read) := by
  have number_eq := number_of_rereadOption success
  constructor
  · rw [number_eq]
    exact OptionNumber.isCanonical_ofUInt16 _
  · intro isUint
    rw [number_eq] at isUint
    unfold rereadOption at success
    dsimp only at success
    rw [isUint] at success
    unfold decodeValue at success
    dsimp only at success
    split at success
    · cases success
    · cases success
      unfold IsTyped
      dsimp only
      rw [isUint]
      trivial

/-- Apart from its options, a message is read as it is carried. -/
theorem eq_carried_of_decode
    {message received : Message}
    {bytes : List UInt8}
    (written : encode message = .ok bytes)
    (reading : decode bytes = .ok received) :
    received = carried message received.options := by
  rw [decode_of_encode written] at reading
  cases success : (sortByNumber message.options).mapM rereadOption with
  | error cause =>
      rw [success] at reading
      cases reading
  | ok read =>
      rw [success] at reading
      cases reading
      rfl

/--
The options of a message as they are read: in ascending order, and
each in its format.
-/
def rereadOptions (options : List MessageOption) : List MessageOption :=
  (sortByNumber options).filterMap fun option => (rereadOption option).toOption

/--
Nothing in the message is too long to be written, and no option is
too long to be read.
-/
structure IsReadable (message : Message) : Prop where
  tokenShort : (message.token.elim [] Token.bytes).length ≤ Token.maxLength
  options : ∀ option ∈ message.options,
    (encodeValue option.value).length ≤ maxExtended ∧ ¬ IsOverlong option

theorem eq_filterMap_of_mapM
    {options read : List MessageOption}
    (success : options.mapM rereadOption = .ok read) :
    read = options.filterMap fun option => (rereadOption option).toOption := by
  have pairs := mapM_eq_ok_iff.mp success
  clear success
  induction pairs with
  | nil => rfl
  | cons reread _ inductionHypothesis =>
      rw [List.filterMap_cons, reread, inductionHypothesis]
      rfl

/-- Such a message is written, and read with its options in ascending order. -/
theorem IsReadable.exists_bytes
    {message : Message}
    (readable : IsReadable message) :
    ∃ bytes, encode message = .ok bytes ∧
      decode bytes = .ok (carried message (rereadOptions message.options)) := by
  obtain ⟨bytes, written⟩ := (encode_eq_ok_iff message).mpr
    ⟨readable.tokenShort, fun option member => (readable.options option member).1⟩
  obtain ⟨read, success⟩ :=
    (mapM_rereadOption_eq_ok_iff (sortByNumber message.options)).mpr
      fun option member => (readable.options option (mem_sortByNumber.mp member)).2
  refine ⟨bytes, written, ?_⟩
  rw [decode_of_encode written, success, eq_filterMap_of_mapM success]
  rfl

/-- A datagram that was written and can be read was written from such a message. -/
theorem isReadable_of_decode
    {message received : Message}
    {bytes : List UInt8}
    (written : encode message = .ok bytes)
    (reading : decode bytes = .ok received) :
    IsReadable message := by
  obtain ⟨tokenShort, short⟩ := (encode_eq_ok_iff message).mp ⟨bytes, written⟩
  rw [decode_of_encode written] at reading
  cases success : (sortByNumber message.options).mapM rereadOption with
  | error cause =>
      rw [success] at reading
      cases reading
  | ok read =>
      have fine := (mapM_rereadOption_eq_ok_iff _).mp ⟨read, success⟩
      exact ⟨tokenShort, fun option member =>
        ⟨short option member, fine option (mem_sortByNumber.mpr member)⟩⟩

/-- What is written can be read if it has no options but those of a path. -/
theorem exists_decode_of_pathOnly
    {message : Message}
    {bytes : List UInt8}
    (written : encode message = .ok bytes)
    (pathOnly : ∀ option ∈ message.options,
      option.number.toUInt16 = OptionNumber.uriPath.toUInt16) :
    ∃ received, decode bytes = .ok received := by
  obtain ⟨tokenShort, short⟩ := (encode_eq_ok_iff message).mp ⟨bytes, written⟩
  have readable : IsReadable message := by
    refine ⟨tokenShort,
      fun option member => ⟨short option member, fun overlong => ?_⟩⟩
    have isUint := overlong.1
    rw [pathOnly option member] at isUint
    exact absurd isUint (by decide)
  obtain ⟨others, othersWritten, reading⟩ := readable.exists_bytes
  rw [written] at othersWritten
  cases othersWritten
  exact ⟨_, reading⟩

/-- An option of the kind that its number calls for is not too long to be read. -/
theorem not_isOverlong_of_isTyped
    {option : MessageOption}
    (canonical : option.number.IsCanonical)
    (typed : IsTyped option) :
    ¬ IsOverlong option := by
  intro overlong
  have refused := rereadOption_eq_error_iff.mpr ⟨overlong, rfl⟩
  rw [rereadOption_of_isTyped canonical typed] at refused
  cases refused

/-- What is read under a number is what was written under it, in its format. -/
theorem filter_rereadOptions
    (options : List MessageOption)
    {number : OptionNumber}
    (canonical : number.IsCanonical) :
    ((rereadOptions options).filter fun option => option.number == number) =
      (options.filter fun option =>
        option.number.toUInt16 == number.toUInt16).filterMap
        fun option => (rereadOption option).toOption := by
  have stable := (isStableSort_sortByNumber options).stable number.toUInt16.toNat
  have decides (option : MessageOption) :
      (option.number.toUInt16 == number.toUInt16) =
        decide (wireNumber option = number.toUInt16.toNat) := by
    rw [Bool.eq_iff_iff, beq_iff_eq, decide_eq_true_iff]
    exact UInt16.toNat_inj.symm
  simp only [decides]
  rw [← stable]
  unfold rereadOptions
  rw [List.filter_filterMap, List.filterMap_filter]
  refine List.filterMap_congr fun option _ => ?_
  rw [← decides]
  cases reread : rereadOption option with
  | error cause => simp [Except.toOption]
  | ok read =>
      simp [Except.toOption, Option.filter_some,
        number_beq_of_rereadOption reread canonical]

/-- The message has a token with bytes in it. -/
def IsTokened (message : Message) : Prop :=
  ∃ token, message.token = some token ∧ token.bytes ≠ []

namespace IsTokened

variable {message : Message}

theorem isSome (tokened : IsTokened message) :
    message.token.isSome := by
  obtain ⟨token, token_eq, _⟩ := tokened
  rw [token_eq]
  rfl

/-- A datagram carries such a token. -/
theorem filter_eq (tokened : IsTokened message) :
    (message.token.filter fun token => token.bytes ≠ []) = message.token := by
  obtain ⟨token, token_eq, nonempty⟩ := tokened
  rw [token_eq, Option.filter_some, if_pos (by simpa using nonempty)]

end IsTokened

/-- Options with one number keep their order. -/
theorem filter_sortByNumber
    (options : List MessageOption)
    (number : OptionNumber) :
    ((sortByNumber options).filter fun option => option.number == number) =
      options.filter fun option => option.number == number := by
  have stable := (isStableSort_sortByNumber options).stable number.toUInt16.toNat
  have narrowed (list : List MessageOption) :
      (list.filter fun option => option.number == number) =
        ((list.filter fun option =>
          wireNumber option = number.toUInt16.toNat).filter
          fun option => option.number == number) := by
    rw [List.filter_filter]
    refine List.filter_congr fun option _ => ?_
    cases same : option.number == number with
    | false => rfl
    | true =>
        rw [beq_iff_eq] at same
        simp [wireNumber, same]
  rw [narrowed, stable, ← narrowed]

/-- The path of a message as it is read. -/
def readPath (message : Message) : String :=
  (carried message (rereadOptions message.options)).path

theorem readPath_eq
    (message : Message) :
    readPath message =
      String.ofList (Path.join ((((message.options.filter fun option =>
        option.number.toUInt16 ==
          OptionNumber.uriPath.toUInt16).filterMap fun option =>
          (rereadOption option).toOption).filterMap fun option =>
            option.value.asText?).map String.toList)) := by
  unfold readPath Message.path Message.pathSegments carried
  rw [filter_rereadOptions message.options
    (by decide : OptionNumber.uriPath.IsCanonical)]

/-- Only what stands under Uri-Path on the wire is part of the path. -/
theorem readPath_congr
    {first second : Message}
    (same :
      (first.options.filter fun option =>
        option.number.toUInt16 == OptionNumber.uriPath.toUInt16) =
      second.options.filter fun option =>
        option.number.toUInt16 == OptionNumber.uriPath.toUInt16) :
    readPath first = readPath second := by
  rw [readPath_eq, readPath_eq, same]

/-- The path of the message is made of texts, on the wire too. -/
def HasTextPath (message : Message) : Prop :=
  ∀ option ∈ message.options,
    option.number.toUInt16 = OptionNumber.uriPath.toUInt16 →
      ∃ segment, option = MessageOption.text .uriPath segment

/-- Such a message is read with its path. -/
theorem HasTextPath.readPath_eq
    {message : Message}
    (texts : HasTextPath message) :
    readPath message = message.path := by
  have rereads (option : MessageOption)
      (member : option ∈ message.options.filter fun option =>
        option.number.toUInt16 == OptionNumber.uriPath.toUInt16) :
      (rereadOption option).toOption = some option := by
    obtain ⟨isOption, isPath⟩ := List.mem_filter.mp member
    obtain ⟨segment, rfl⟩ := texts option isOption (beq_iff_eq.mp isPath)
    have itself : rereadOption (MessageOption.text .uriPath segment) =
        .ok (MessageOption.text .uriPath segment) :=
      rereadOption_of_isTyped (by decide : OptionNumber.uriPath.IsCanonical) trivial
    rw [itself]
    rfl
  have same :
      (message.options.filter fun option =>
        option.number.toUInt16 == OptionNumber.uriPath.toUInt16) =
      message.options.filter fun option =>
        option.number == OptionNumber.uriPath := by
    refine List.filter_congr fun option member => ?_
    rw [Bool.eq_iff_iff, beq_iff_eq, beq_iff_eq]
    refine ⟨fun isPath => ?_, congrArg OptionNumber.toUInt16⟩
    obtain ⟨segment, rfl⟩ := texts option member isPath
    rfl
  rw [Wire.readPath_eq, List.filterMap_congr rereads, List.filterMap_some, same]
  rfl

/-- Every option of a message that was read was read as one. -/
theorem isTyped_of_decode
    {message received : Message}
    {bytes : List UInt8}
    (written : encode message = .ok bytes)
    (reading : decode bytes = .ok received)
    {option : MessageOption}
    (member : option ∈ received.options) :
    option.number.IsCanonical ∧
      (option.number.format = .uint → IsTyped option) := by
  rw [decode_of_encode written] at reading
  cases success : (sortByNumber message.options).mapM rereadOption with
  | error cause =>
      rw [success] at reading
      cases reading
  | ok read =>
      rw [success] at reading
      cases reading
      have pairs := mapM_eq_ok_iff.mp success
      obtain ⟨index, bound, rfl⟩ := List.getElem_of_mem member
      exact isTyped_of_rereadOption (pairs.get (pairs.length_eq ▸ bound) bound)

end Coap.Wire
