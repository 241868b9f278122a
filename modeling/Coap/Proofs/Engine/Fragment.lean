import Mathlib.Tactic.Common
import Coap.Engine.BlockwiseReceive
import Coap.Engine.BlockwiseSend
import Coap.Proofs.Block
import Coap.Proofs.Message.Options
import Coap.Proofs.Wire.Lookup

namespace Coap

/-!
# Fragments and their acknowledgements on the wire

A fragment that was written and read is taken for the block that it was cut from,
and its acknowledgement for one of that block. Both rest on the whole message having
no option of its own that the transfer uses.
-/

namespace Message

/-- The options through which a transfer is conducted. -/
def transferNumbers : List OptionNumber :=
  [.block1, .block2, .windowSize]

/-- The message has no option that its transfer would use, on the wire either. -/
def IsPlain (message : Message) : Prop :=
  ∀ option ∈ message.options, ∀ number ∈ transferNumbers,
    option.number.toUInt16 ≠ number.toUInt16

namespace IsPlain

variable {message : Message} {number : OptionNumber}

theorem ne
    (plain : message.IsPlain)
    (isTransferNumber : number ∈ transferNumbers) :
    ∀ option ∈ message.options, option.number ≠ number :=
  fun option member same =>
    plain option member number isTransferNumber
      (congrArg OptionNumber.toUInt16 same)

theorem hasOption_eq_false
    (plain : message.IsPlain)
    (isTransferNumber : number ∈ transferNumbers) :
    message.hasOption number = false :=
  hasOption_eq_false_iff.mpr (plain.ne isTransferNumber)

theorem firstOnWire?_eq_none
    (plain : message.IsPlain)
    (isTransferNumber : number ∈ transferNumbers) :
    Wire.firstOnWire? message.options number.toUInt16 = none := by
  refine List.find?_eq_none.mpr fun option member => ?_
  simpa using plain option member number isTransferNumber

/-- Such a message is read without a window option. -/
theorem windowless_of_decode
    {received : Message}
    {bytes : List UInt8}
    (plain : message.IsPlain)
    (written : Wire.encode message = .ok bytes)
    (reading : Wire.decode bytes = .ok received) :
    received.uint? .windowSize = none := by
  unfold uint?
  rw [Wire.option?_of_decode written reading (by decide),
    plain.firstOnWire?_eq_none
      (by decide : OptionNumber.windowSize ∈ transferNumbers)]
  rfl

end IsPlain

/-- An acknowledgement copies no such option. -/
theorem isPlain_ackTo
    (message : Message)
    (cell : Option SocketAddress)
    (code : Code) :
    (message.ackTo cell code).IsPlain := by
  have apart : ∀ copied ∈ ackNumbers, ∀ used ∈ transferNumbers,
      copied.toUInt16 ≠ used.toUInt16 := by
    decide
  exact fun option member => apart _ (mem_options_ackTo member).2

end Message

namespace Engine

theorem blockOptionOf_eq (message : Message) :
    blockOptionOf message = .block1 ∨ blockOptionOf message = .block2 := by
  unfold blockOptionOf
  split
  · exact .inl rfl
  · exact .inr rfl

theorem blockOptionOf_mem (message : Message) :
    blockOptionOf message ∈ Message.transferNumbers := by
  rcases blockOptionOf_eq message with isBlock1 | isBlock2
  · rw [isBlock1]
    decide
  · rw [isBlock2]
    decide

theorem blockOptionOf_ne_windowSize (message : Message) :
    blockOptionOf message ≠ .windowSize := by
  rcases blockOptionOf_eq message with isBlock1 | isBlock2
  · rw [isBlock1]
    decide
  · rw [isBlock2]
    decide

/-- A fragment has the header of the whole message, but for its identifier. -/
theorem fragmentOf_frame
    (state : SendState)
    (block : Block)
    (id : MessageId) :
    fragmentOf state block id =
      { state.whole with
        id := id
        payload := some block.data
        longResponse := false
        options := (fragmentOf state block id).options } := by
  unfold fragmentOf Message.addOption
  dsimp only
  split <;> split <;> rfl

theorem id_fragmentOf
    (state : SendState)
    (block : Block)
    (id : MessageId) :
    (fragmentOf state block id).id = id := by
  rw [fragmentOf_frame]

/--
Whatever the whole message carries, a fragment is read as one of its own block.
-/
theorem uint?_fragmentOf
    (state : SendState)
    (block : Block)
    (id : MessageId) :
    (fragmentOf state block id).uint? (blockOptionOf state.whole) =
      some block.toRaw.toUInt64 := by
  have unique : (blockOptionOf state.whole).isRepeatable = false := by
    rcases blockOptionOf_eq state.whole with isBlock1 | isBlock2
    · rw [isBlock1]
      rfl
    · rw [isBlock2]
      rfl
  have isBlock :
      (MessageOption.uint (blockOptionOf state.whole) block.toRaw.toUInt64).number =
      blockOptionOf state.whole := rfl
  unfold Message.uint? fragmentOf
  rw [Message.option?_addOption_of_ne _ (blockOptionOf_ne_windowSize
    state.whole).symm, Message.option?_addOption_self _ isBlock unique]
  rfl

/-- Fragments of different blocks are different messages. -/
theorem number_eq_of_fragmentOf_eq
    {state : SendState}
    {block other : Block}
    {id : MessageId}
    (small : block.number.toNat < 2 ^ 28)
    (otherSmall : other.number.toNat < 2 ^ 28)
    (same : fragmentOf state block id = fragmentOf state other id) :
    block.number = other.number := by
  have raw_eq : block.toRaw.toUInt64 = other.toRaw.toUInt64 := by
    have read := uint?_fragmentOf state block id
    rw [same, uint?_fragmentOf] at read
    exact (Option.some.inj read).symm
  have control_eq : block.toRaw = other.toRaw := UInt32.toUInt64_inj.mp raw_eq
  have read := Block.ofRaw_toRaw small []
  rw [control_eq, Block.ofRaw_toRaw otherSmall] at read
  exact (Block.mk.inj (Except.ok.inj read)).1.symm

/--
A fragment appends its block and the window to the options of the whole message.
-/
theorem fragmentOf_eq
    {state : SendState}
    (plain : state.whole.IsPlain)
    (block : Block)
    (id : MessageId) :
    fragmentOf state block id =
      { state.whole with
        id := id
        payload := some block.data
        longResponse := false
        options :=
          state.whole.options ++
            [MessageOption.uint (blockOptionOf state.whole) block.toRaw.toUInt64,
              MessageOption.uint .windowSize
                (UInt64.ofNat state.windowSize)] } := by
  have isWindow : OptionNumber.windowSize ∈ Message.transferNumbers := by decide
  unfold fragmentOf
  dsimp only
  rw [Message.addOption_of_absent, Message.addOption_of_absent]
  · simp
  · exact plain.ne (blockOptionOf_mem _)
  · rw [Message.addOption_of_absent]
    · intro option member
      rcases List.mem_append.mp member with isPlain | isBlock
      · exact plain.ne isWindow option isPlain
      · rw [List.mem_singleton.mp isBlock]
        exact blockOptionOf_ne_windowSize state.whole
    · exact plain.ne (blockOptionOf_mem _)

/--
What a transfer looks up in a fragment stands behind the options
of the whole message.
-/
theorem firstOnWire?_fragmentOf
    {state : SendState}
    (plain : state.whole.IsPlain)
    (block : Block)
    (id : MessageId)
    {number : OptionNumber}
    (isTransferNumber : number ∈ Message.transferNumbers) :
    Wire.firstOnWire? (fragmentOf state block id).options number.toUInt16 =
      Wire.firstOnWire?
        [MessageOption.uint (blockOptionOf state.whole) block.toRaw.toUInt64,
          MessageOption.uint .windowSize (UInt64.ofNat state.windowSize)]
        number.toUInt16 := by
  have absent := plain.firstOnWire?_eq_none isTransferNumber
  unfold Wire.firstOnWire? at absent ⊢
  rw [fragmentOf_eq plain, List.find?_append, absent, Option.none_or]

/--
A control value that fits its option is the one of the block, with
the payload as data.
-/
theorem blockOf_of_uint?
    {message : Message}
    {option : OptionNumber}
    {block : Block}
    (small : block.number.toNat < 2 ^ 28)
    (found : message.uint? option = some block.toRaw.toUInt64) :
    blockOf message option = .ok { block with data := message.body } := by
  have bound := block.toRaw.toNat_lt
  have raw_eq : block.toRaw.toUInt64.toNat = block.toRaw.toNat :=
    UInt32.toNat_toUInt64 _
  unfold blockOf
  dsimp only
  rw [found, Option.getD_some, raw_eq, if_neg (by omega), UInt32.ofNat_toNat,
    Block.ofRaw_toRaw small]

/-- The message names the block of a transfer and its window. -/
structure Conducts
    (message : Message)
    (option : OptionNumber)
    (block : Block)
    (window : UInt64) :
    Prop where
  windowed : message.uint? .windowSize = some window
  raw : message.uint? option = some block.toRaw.toUInt64
  option_eq : blockOption? message = some option

/-- What a transfer adds to a message is read from its datagram. -/
theorem conducts_of_decode
    {sent received : Message}
    {bytes : List UInt8}
    (written : Wire.encode sent = .ok bytes)
    (reading : Wire.decode bytes = .ok received)
    {option : OptionNumber}
    (isBlockOption : option = .block1 ∨ option = .block2)
    {block : Block}
    {window : UInt64}
    (added : ∀ number ∈ Message.transferNumbers,
      Wire.firstOnWire? sent.options number.toUInt16 =
        Wire.firstOnWire?
          [MessageOption.uint option block.toRaw.toUInt64,
            MessageOption.uint .windowSize window]
          number.toUInt16) :
    Conducts received option block window := by
  have raw : received.uint? option = some block.toRaw.toUInt64 := by
    rcases isBlockOption with rfl | rfl
    · exact Wire.uint?_of_decode written reading (by decide) rfl
        (added _ (by decide))
    · exact Wire.uint?_of_decode written reading (by decide) rfl
        (added _ (by decide))
  have present := Message.hasOption_of_uint? raw
  constructor
  case windowed =>
    refine Wire.uint?_of_decode written reading (by decide) rfl ?_
    rw [added _ (by decide)]
    rcases isBlockOption with rfl | rfl <;> rfl
  case raw => exact raw
  case option_eq =>
    unfold blockOption?
    rcases isBlockOption with rfl | rfl
    · rw [if_pos present]
    · have absent : received.hasOption .block1 = false := by
        unfold Message.hasOption
        rw [Wire.option?_of_decode written reading (by decide), added _ (by decide)]
        rfl
      rw [if_neg (by rw [absent]; decide), if_pos present]

/-- The message is read as the fragment of `whole` that carries `block`. -/
structure CarriesBlock
    (message whole : Message)
    (block : Block) :
    Prop where
  kind_eq : message.kind = whole.kind
  code_eq : message.code = whole.code
  token_eq : message.token = whole.token
  payload_eq : message.payload = some block.data
  windowed : ∃ window, message.uint? .windowSize = some window
  option_eq : blockOption? message = some (blockOptionOf whole)
  block_eq : blockOf message (blockOptionOf whole) = .ok block

theorem CarriesBlock.addressed
    {message whole : Message}
    {block : Block}
    (carries : CarriesBlock message whole block)
    (source : SocketAddress) :
    CarriesBlock { message with address := some source } whole block where
  kind_eq := carries.kind_eq
  code_eq := carries.code_eq
  token_eq := carries.token_eq
  payload_eq := carries.payload_eq
  windowed := carries.windowed
  option_eq := carries.option_eq
  block_eq := carries.block_eq

/-- A fragment is read as one. -/
theorem carriesBlock_of_decode
    {state : SendState}
    {block : Block}
    {id : MessageId}
    {received : Message}
    {bytes : List UInt8}
    (written : Wire.encode (fragmentOf state block id) = .ok bytes)
    (reading : Wire.decode bytes = .ok received)
    (plain : state.whole.IsPlain)
    (tokened : Wire.IsTokened state.whole)
    (small : block.number.toNat < 2 ^ 28)
    (nonempty : block.data ≠ []) :
    CarriesBlock received state.whole block := by
  have received_eq := Wire.eq_carried_of_decode written reading
  rw [fragmentOf_eq plain] at received_eq
  have payload_eq : received.payload = some block.data := by
    rw [received_eq]
    simp only [Wire.carried]
    rw [Option.filter_some, if_pos (by simpa using nonempty)]
  have conducts : Conducts received (blockOptionOf state.whole) block
      (UInt64.ofNat state.windowSize) :=
    conducts_of_decode written reading (blockOptionOf_eq _)
      fun _ isTransferNumber =>
      firstOnWire?_fragmentOf plain block id isTransferNumber
  constructor
  case kind_eq => rw [received_eq]; rfl
  case code_eq => rw [received_eq]; rfl
  case token_eq => rw [received_eq]; exact tokened.filter_eq
  case payload_eq => exact payload_eq
  case windowed => exact ⟨_, conducts.windowed⟩
  case option_eq => exact conducts.option_eq
  case block_eq =>
    have body_eq : received.body = block.data := by
      unfold Message.body
      rw [payload_eq]
      rfl
    rw [blockOf_of_uint? small conducts.raw, body_eq]

/--
The acknowledgement of a fragment appends the block and the window
to what it copies.
-/
theorem fragmentAck_eq
    (message : Message)
    (cell : Option SocketAddress)
    {option : OptionNumber}
    (isBlockOption : option = .block1 ∨ option = .block2)
    (block : Block)
    (window : UInt64) :
    fragmentAck message cell option block window none =
      { id := message.id
        kind := .acknowledgement
        code := .empty
        token := message.token
        address := cell
        options :=
          (message.ackTo cell .empty).options ++
            [MessageOption.uint option block.toRaw.toUInt64,
              MessageOption.uint .windowSize window] } := by
  have absent {number : OptionNumber} (notCopied : number ∉ Message.ackNumbers) :
      ∀ other ∈ (message.ackTo cell .empty).options, other.number ≠ number := by
    rintro other member rfl
    exact notCopied (Message.mem_options_ackTo member).2
  have notCopied : option ∉ Message.ackNumbers := by
    rcases isBlockOption with rfl | rfl <;> decide
  have notWindow : option ≠ .windowSize := by
    rcases isBlockOption with rfl | rfl <;> decide
  have windowNotCopied : OptionNumber.windowSize ∉ Message.ackNumbers := by decide
  unfold fragmentAck
  dsimp only [Option.elim_none]
  rw [Message.addOption_of_absent, Message.addOption_of_absent (absent notCopied)]
  · rw [Message.ackTo_eq]
    simp
  · rw [Message.addOption_of_absent (absent notCopied)]
    intro other member
    rcases List.mem_append.mp member with isCopied | isBlock
    · exact absent windowNotCopied other isCopied
    · rw [List.mem_singleton.mp isBlock]
      exact notWindow

/-- The message is read as an acknowledgement of a block that carries no answer. -/
structure AcksBlock
    (message : Message)
    (number : UInt32) :
    Prop where
  kind_eq : message.kind = .acknowledgement
  isPlain : isPlainAck message = true
  windowed : ∃ window, message.uint? .windowSize = some window
  blocked : ∃ option block,
    blockOption? message = some option ∧ blockOf message option = .ok block ∧
      block.number = number

theorem AcksBlock.addressed
    {message : Message}
    {number : UInt32}
    (acks : AcksBlock message number)
    (source : SocketAddress) :
    AcksBlock { message with address := some source } number where
  kind_eq := acks.kind_eq
  isPlain := acks.isPlain
  windowed := acks.windowed
  blocked := acks.blocked

/--
What a transfer looks up in an acknowledgement stands behind what that copies.
-/
theorem firstOnWire?_ackTo
    (message : Message)
    (cell : Option SocketAddress)
    (added : List MessageOption)
    {number : OptionNumber}
    (isTransferNumber : number ∈ Message.transferNumbers) :
    Wire.firstOnWire?
      ((message.ackTo cell .empty).options ++ added) number.toUInt16 =
      Wire.firstOnWire? added number.toUInt16 := by
  have absent :=
    (message.isPlain_ackTo cell .empty).firstOnWire?_eq_none isTransferNumber
  unfold Wire.firstOnWire? at absent ⊢
  rw [List.find?_append, absent, Option.none_or]

/-- An integer under a number that calls for one can be written and read. -/
theorem isReadable_uint
    {number : OptionNumber}
    (canonical : number.IsCanonical)
    (isUint : number.format = .uint)
    (value : UInt64) :
    (Wire.encodeValue (MessageOption.uint number value).value).length ≤
      Wire.maxExtended ∧
      ¬ Wire.IsOverlong (MessageOption.uint number value) := by
  have typed : Wire.IsTyped (MessageOption.uint number value) := by
    unfold Wire.IsTyped MessageOption.uint
    rw [isUint]
    trivial
  exact ⟨Nat.le_trans (Wire.length_shortBigEndian_le value) (by decide),
    Wire.not_isOverlong_of_isTyped canonical typed⟩

/-- A fragment of a message that can be written and read can be, too. -/
theorem isReadable_fragmentOf
    {state : SendState}
    (readable : Wire.IsReadable state.whole)
    (plain : state.whole.IsPlain)
    (block : Block)
    (id : MessageId) :
    Wire.IsReadable (fragmentOf state block id) := by
  rw [fragmentOf_eq plain]
  refine ⟨readable.tokenShort, fun option member => ?_⟩
  rcases List.mem_append.mp member with isPlain | isAdded
  · exact readable.options option isPlain
  · rcases List.mem_pair.mp isAdded with rfl | rfl
    · rcases blockOptionOf_eq state.whole with isBlock | isBlock
      · exact isBlock ▸ isReadable_uint (by decide) rfl _
      · exact isBlock ▸ isReadable_uint (by decide) rfl _
    · exact isReadable_uint (by decide) rfl _

/--
What an acknowledgement copies from a message that was read can be written and read.
-/
theorem isReadable_of_mem_ackTo
    {sent received : Message}
    {bytes : List UInt8}
    (written : Wire.encode sent = .ok bytes)
    (reading : Wire.decode bytes = .ok received)
    {cell : Option SocketAddress}
    {code : Code}
    {option : MessageOption}
    (isCopied : option ∈ (received.ackTo cell code).options) :
    (Wire.encodeValue option.value).length ≤ Wire.maxExtended ∧
      ¬ Wire.IsOverlong option := by
  obtain ⟨isOption, isAckNumber⟩ := Message.mem_options_ackTo isCopied
  have formats : ∀ number ∈ Message.ackNumbers, number.format = .uint := by decide
  obtain ⟨canonical, typed⟩ := Wire.isTyped_of_decode written reading isOption
  have isTyped := typed (formats _ isAckNumber)
  obtain ⟨value, value_eq⟩ :=
    Wire.exists_uint_of_isTyped isTyped (formats _ isAckNumber)
  refine ⟨?_, Wire.not_isOverlong_of_isTyped canonical isTyped⟩
  rw [value_eq]
  exact Nat.le_trans (Wire.length_shortBigEndian_le value) (by decide)

/-- A datagram was written with a token that is short enough for any other one. -/
theorem tokenShort_of_decode
    {sent received : Message}
    {bytes : List UInt8}
    (written : Wire.encode sent = .ok bytes)
    (reading : Wire.decode bytes = .ok received) :
    (received.token.elim [] Token.bytes).length ≤ Token.maxLength := by
  have tokenShort := ((Wire.encode_eq_ok_iff sent).mp ⟨bytes, written⟩).1
  rw [Wire.eq_carried_of_decode written reading]
  simp only [Wire.carried]
  cases token : sent.token with
  | none => decide
  | some bytes =>
      rw [token] at tokenShort
      rw [Option.filter_some]
      split
      · exact tokenShort
      · exact Nat.zero_le _

/--
The message acknowledges a fragment that was read, and goes to where that came from.
-/
structure AnswersFragment
    (ack received : Message)
    (source : SocketAddress)
    (option : OptionNumber)
    (block : Block)
    (window : UInt64) :
    Prop where
  id_eq : ack.id = received.id
  kind_eq : ack.kind = .acknowledgement
  token_eq : ack.token = received.token
  target_eq : ack.target? = some source
  options : ∀ option ∈ ack.options,
    (Wire.encodeValue option.value).length ≤ Wire.maxExtended ∧
      ¬ Wire.IsOverlong option
  added : ∀ number ∈ Message.transferNumbers,
    Wire.firstOnWire? ack.options number.toUInt16 =
      Wire.firstOnWire?
        [MessageOption.uint option block.toRaw.toUInt64,
          MessageOption.uint .windowSize window]
        number.toUInt16

/-- So does the acknowledgement of that fragment. -/
theorem answersFragment_fragmentAck
    {sent received : Message}
    {bytes : List UInt8}
    (written : Wire.encode sent = .ok bytes)
    (reading : Wire.decode bytes = .ok received)
    (source : SocketAddress)
    {option : OptionNumber}
    (isBlockOption : option = .block1 ∨ option = .block2)
    (block : Block)
    (window : UInt64) :
    AnswersFragment
      (fragmentAck { received with address := some source }
        (some source) option block window none)
      received source option block window := by
  rw [fragmentAck_eq _ _ isBlockOption]
  refine ⟨rfl, rfl, rfl, rfl, fun other member => ?_,
    fun number isTransferNumber => ?_⟩
  · rcases List.mem_append.mp member with isCopied | isAdded
    · exact isReadable_of_mem_ackTo written reading
        (isCopied : other ∈ (received.ackTo (some source) .empty).options)
    · rcases List.mem_pair.mp isAdded with rfl | rfl
      · rcases isBlockOption with rfl | rfl
        · exact isReadable_uint (by decide) rfl _
        · exact isReadable_uint (by decide) rfl _
      · exact isReadable_uint (by decide) rfl _
  · exact firstOnWire?_ackTo _ _ _ isTransferNumber

/-! ## Acknowledgements that go through a proxy -/

/--
What answers the message goes to `peer`, also where it goes through
the proxy of the message.
-/
structure RoutesTo
    (message : Message)
    (peer : SocketAddress) :
    Prop where
  proxy : ∀ proxy, message.proxy = some proxy → proxy = peer
  short : ∀ option, message.option? .proxyUri = some option →
    (Wire.encodeValue option.value).length ≤ Wire.maxExtended

/-- Adding an option leaves alone what stands under other numbers on the wire. -/
theorem firstOnWire?_addOption_of_ne
    (message : Message)
    {added : MessageOption}
    {number : UInt16}
    (different : added.number.toUInt16 ≠ number) :
    Wire.firstOnWire? (message.addOption added).options number =
      Wire.firstOnWire? message.options number := by
  have absent : [added].find? (fun option => option.number.toUInt16 == number) =
      none := by
    simpa using different
  unfold Wire.firstOnWire? Message.addOption
  dsimp only
  rw [List.find?_append, absent, Option.or_none]
  split
  · rfl
  · unfold Message.removeOption
    rw [List.find?_filter]
    congr 1
    funext other
    by_cases same : other.number = added.number
    · simp [same, different]
    · simp [same, Bool.beq_eq_decide_eq]

variable {ack received : Message} {source : SocketAddress} {option : OptionNumber}
variable {block : Block}
variable {window : UInt64}

/--
An acknowledgement remains one when it gets an option that transfers do not use.
-/
theorem AnswersFragment.addOption?
    (answers : AnswersFragment ack received source option block window)
    {added : Option MessageOption}
    (apart : ∀ new, added = some new → ∀ number ∈ Message.transferNumbers,
      new.number.toUInt16 ≠ number.toUInt16)
    (readable : ∀ new, added = some new →
      (Wire.encodeValue new.value).length ≤ Wire.maxExtended ∧
        ¬ Wire.IsOverlong new) :
    AnswersFragment (ack.addOption? added) received source option block window := by
  have target_eq : (ack.addOption? added).target? = ack.target? := by
    rw [Message.addOption?_eq]
    rfl
  refine ⟨?_, ?_, ?_, target_eq.trans answers.target_eq, fun other member => ?_,
    fun number isTransferNumber => ?_⟩
  · rw [Message.addOption?_eq]
    exact answers.id_eq
  · rw [Message.addOption?_eq]
    exact answers.kind_eq
  · rw [Message.addOption?_eq]
    exact answers.token_eq
  · rcases Message.mem_options_addOption? member with kept | isNew
    · exact answers.options other kept
    · exact readable other isNew
  · cases added with
    | none => exact answers.added number isTransferNumber
    | some new =>
        rw [← answers.added number isTransferNumber]
        exact firstOnWire?_addOption_of_ne ack
          (apart new rfl number isTransferNumber)

/-- It remains one when it takes the way of a queued message. -/
theorem AnswersFragment.withProxyOf
    (answers : AnswersFragment ack received source option block window)
    {queued : Message}
    (routes : RoutesTo queued source) :
    AnswersFragment (withProxyOf ack queued) received source option block
      window := by
  have apart : ∀ number ∈ Message.transferNumbers,
      OptionNumber.proxyUri.toUInt16 ≠ number.toUInt16 := by
    decide
  have routed : AnswersFragment
      (ack.addOption? (queued.option? .proxyUri)) received source option
      block window := by
    refine answers.addOption? (fun new found => ?_) fun new found => ?_
    · rw [Message.number_of_option? found]
      exact apart
    · refine ⟨routes.short new found, fun overlong => ?_⟩
      have isUint := overlong.1
      rw [Message.number_of_option? found] at isUint
      cases isUint
  unfold Engine.withProxyOf
  dsimp only
  split
  · exact routed
  · next proxy isProxy =>
      have through : AnswersFragment
          { ack.addOption? (queued.option? .proxyUri) with
            proxy := some proxy } received source
          option block window :=
        { routed with
          target_eq := by
            rw [routes.proxy proxy isProxy]
            rfl }
      refine through.addOption? (fun new found => ?_) fun new found => ?_
      · obtain ⟨value, _, rfl⟩ := Option.map_eq_some_iff.mp found
        exact (by decide : ∀ number ∈ Message.transferNumbers,
          OptionNumber.proxySecurityId.toUInt16 ≠ number.toUInt16)
      · obtain ⟨value, _, rfl⟩ := Option.map_eq_some_iff.mp found
        exact isReadable_uint (by decide) rfl value

/-! ## Acknowledgements on the wire -/

/-- The acknowledgement of a fragment can be written. -/
theorem AnswersFragment.isReadable
    {sent : Message}
    {bytes : List UInt8}
    (answers : AnswersFragment ack received source option block window)
    (written : Wire.encode sent = .ok bytes)
    (reading : Wire.decode bytes = .ok received)
    (code : Code) :
    Wire.IsReadable { ack with code := code } where
  tokenShort := by
    have token_eq := answers.token_eq
    dsimp only
    rw [token_eq]
    exact tokenShort_of_decode written reading
  options := answers.options

/-- It is read as one. -/
theorem AnswersFragment.acksBlock_of_decode
    (answers : AnswersFragment ack received source option block window)
    (isBlockOption : option = .block1 ∨ option = .block2)
    (small : block.number.toNat < 2 ^ 28)
    {code : Code}
    (isAckCode : code = .empty ∨ code = .continued)
    {ackBytes : List UInt8}
    (written : Wire.encode { ack with code := code } = .ok ackBytes)
    {message : Message}
    (reading : Wire.decode ackBytes = .ok message) :
    AcksBlock message block.number := by
  have message_eq := Wire.eq_carried_of_decode written reading
  have conducts : Conducts message option block window :=
    conducts_of_decode written reading isBlockOption answers.added
  have kind_eq : message.kind = .acknowledgement := by
    rw [message_eq]
    exact answers.kind_eq
  constructor
  case kind_eq => exact kind_eq
  case isPlain =>
    have code_eq : message.code = code := by
      rw [message_eq]
      rfl
    unfold isPlainAck
    rw [kind_eq, code_eq]
    rcases isAckCode with rfl | rfl <;> rfl
  case windowed => exact ⟨window, conducts.windowed⟩
  case blocked =>
    exact ⟨option, _, conducts.option_eq, blockOf_of_uint? small conducts.raw, rfl⟩

/--
A side can write the acknowledgement of a fragment that it read, and the other side
reads it, whatever message waits in the queue for an answer from there.
-/
theorem CarriesBlock.exists_ack
    {sent received whole : Message}
    {bytes : List UInt8}
    {block : Block}
    (carries : CarriesBlock received whole block)
    (written : Wire.encode sent = .ok bytes)
    (reading : Wire.decode bytes = .ok received)
    (tokened : Wire.IsTokened whole)
    (small : block.number.toNat < 2 ^ 28)
    (source : SocketAddress)
    (window : UInt64)
    {queued : Option Message}
    (routes : ∀ message, queued = some message → RoutesTo message source)
    {code : Code}
    (isAckCode : code = .empty ∨ code = .continued) :
    let ack := { fragmentAck { received with address := some source } (some source)
      (blockOptionOf whole) block window queued with code := code }
    ack.target? = some source ∧
      ∃ ackBytes message,
        Wire.encode ack = .ok ackBytes ∧ Wire.decode ackBytes = .ok message ∧
          message.id = received.id ∧ message.token = whole.token ∧
          AcksBlock message block.number := by
  have isBlockOption := blockOptionOf_eq whole
  have direct :=
    answersFragment_fragmentAck written reading source isBlockOption block window
  have answers : AnswersFragment
      (fragmentAck { received with address := some source } (some source)
        (blockOptionOf whole) block window queued)
      received source (blockOptionOf whole) block window := by
    cases queued with
    | none => exact direct
    | some message => exact direct.withProxyOf (routes message rfl)
  obtain ⟨ackBytes, ackWritten, ackReading⟩ :=
    (answers.isReadable written reading code).exists_bytes
  refine ⟨answers.target_eq, ackBytes, _, ackWritten, ackReading, answers.id_eq, ?_,
    answers.acksBlock_of_decode isBlockOption small isAckCode ackWritten ackReading⟩
  simp only [Wire.carried]
  rw [answers.token_eq, carries.token_eq]
  exact tokened.filter_eq

end Engine

end Coap
