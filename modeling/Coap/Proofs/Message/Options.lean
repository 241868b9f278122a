import Mathlib.Tactic.Common
import Coap.Message.Reply

namespace Coap.Message

/-!
# Options of messages that are put together

An option that a message does not carry yet is appended to the others. What an
acknowledgement copies are options of the message that it answers.
-/

/-- What is found under a number has that number. -/
theorem number_of_option?
    {message : Message}
    {number : OptionNumber}
    {option : MessageOption}
    (found : message.option? number = some option) :
    option.number = number := by
  simpa using List.find?_some found

/-- A message without an option carries no option of that number. -/
theorem hasOption_eq_false_iff
    {message : Message}
    {number : OptionNumber} :
    message.hasOption number = false ↔
      ∀ option ∈ message.options, option.number ≠ number := by
  unfold hasOption option?
  rw [Option.isSome_eq_false_iff, Option.isNone_iff_eq_none, List.find?_eq_none]
  simp only [beq_iff_eq, ne_eq]

theorem hasOption_of_mem
    {message : Message}
    {option : MessageOption}
    (member : option ∈ message.options) :
    message.hasOption option.number = true := by
  by_contra missing
  rw [Bool.not_eq_true, hasOption_eq_false_iff] at missing
  exact missing option member rfl

theorem hasOption_of_uint?
    {message : Message}
    {number : OptionNumber}
    {value : UInt64}
    (found : message.uint? number = some value) :
    message.hasOption number = true := by
  unfold uint? at found
  obtain ⟨option, isOption, _⟩ := Option.bind_eq_some_iff.mp found
  unfold hasOption
  rw [isOption]
  rfl

/-- A new option is appended. -/
theorem addOption_of_absent
    {message : Message}
    {option : MessageOption}
    (absent : ∀ other ∈ message.options, other.number ≠ option.number) :
    message.addOption option =
      { message with options := message.options ++ [option] } := by
  have kept : message.removeOption option.number = message := by
    have unchanged :
        (message.options.filter fun other => other.number ≠ option.number) =
          message.options := by
      refine List.filter_eq_self.mpr fun other member => ?_
      simpa using absent other member
    unfold removeOption
    rw [unchanged]
  unfold addOption
  rw [kept, ite_self]

theorem mem_options_addOption?
    {message : Message}
    {added : Option MessageOption}
    {option : MessageOption}
    (member : option ∈ (message.addOption? added).options) :
    option ∈ message.options ∨ added = some option := by
  cases added with
  | none => exact .inl member
  | some new =>
      have appended : option ∈ (message.addOption new).options := member
      unfold addOption at appended
      dsimp only at appended
      rcases List.mem_append.mp appended with kept | isNew
      · left
        split at kept
        · exact kept
        · exact (List.mem_filter.mp kept).1
      · right
        rw [List.mem_singleton.mp isNew]

/-- Adding an option changes the options only. -/
theorem addOption_eq
    (message : Message)
    (option : MessageOption) :
    message.addOption option =
      { message with options := (message.addOption option).options } := by
  unfold addOption
  dsimp only
  split <;> rfl

theorem addOption?_eq
    (message : Message)
    (added : Option MessageOption) :
    message.addOption? added =
      { message with options := (message.addOption? added).options } := by
  cases added with
  | none => rfl
  | some option => exact message.addOption_eq option

/-- An added option is there. -/
theorem mem_options_addOption_self
    (message : Message)
    (option : MessageOption) :
    option ∈ (message.addOption option).options :=
  List.mem_append_right _ List.mem_cons_self

/-- An option that is not repeatable replaces its predecessors. -/
theorem option?_addOption_self
    (message : Message)
    {option : MessageOption}
    {number : OptionNumber}
    (isNumber : option.number = number)
    (unique : number.isRepeatable = false) :
    (message.addOption option).option? number = some option := by
  subst isNumber
  have cleared : (message.removeOption option.number).option? option.number =
      none := by
    refine List.find?_eq_none.mpr fun other member => ?_
    simpa using (List.mem_filter.mp member).2
  unfold option? at cleared ⊢
  unfold addOption
  simp only [unique, Bool.false_eq_true, ↓reduceIte]
  rw [List.find?_append, cleared]
  simp

/-- Adding an option leaves the look-up of other numbers alone. -/
theorem option?_addOption_of_ne
    (message : Message)
    {added : MessageOption}
    {number : OptionNumber}
    (different : added.number ≠ number) :
    (message.addOption added).option? number = message.option? number := by
  have absent : [added].find? (fun option => option.number == number) = none := by
    simpa using different
  unfold option? addOption
  dsimp only
  rw [List.find?_append, absent, Option.or_none]
  split
  · rfl
  · unfold removeOption
    rw [List.find?_filter]
    congr 1
    funext other
    by_cases same : other.number = number
    · simp [same, different.symm]
    · simp [same]

/-- Adding an option keeps the options of other numbers. -/
theorem mem_options_addOption_of_ne
    {message : Message}
    {option added : MessageOption}
    (member : option ∈ message.options)
    (different : option.number ≠ added.number) :
    option ∈ (message.addOption added).options := by
  refine List.mem_append_left _ ?_
  split
  · exact member
  · exact List.mem_filter.mpr ⟨member, by simpa using different⟩

/--
Apart from what it copies, an acknowledgement has the identifier and the token only.
-/
theorem ackTo_eq
    (message : Message)
    (peer : Option SocketAddress)
    (code : Code) :
    message.ackTo peer code =
      { id := message.id
        kind := .acknowledgement
        code := code
        token := message.token
        address := peer
        options := (message.ackTo peer code).options } := by
  unfold ackTo
  simp only [List.foldl_cons, List.foldl_nil]
  rw [addOption?_eq, addOption?_eq, addOption?_eq]

/-- The options that an acknowledgement copies. -/
def ackNumbers : List OptionNumber :=
  [.uriScheme, .observe, .proxySecurityId]

/-- An acknowledgement has only options of the message it answers. -/
theorem mem_options_ackTo
    {message : Message}
    {peer : Option SocketAddress}
    {code : Code}
    {option : MessageOption}
    (member : option ∈ (message.ackTo peer code).options) :
    option ∈ message.options ∧ option.number ∈ ackNumbers := by
  have copied {number : OptionNumber}
      (found : message.option? number = some option) :
      option ∈ message.options ∧ option.number = number :=
    ⟨List.mem_of_find?_eq_some found, number_of_option? found⟩
  rcases mem_options_addOption? member with inSecond | found
  · rcases mem_options_addOption? inSecond with inFirst | found
    · rcases mem_options_addOption? inFirst with inBare | found
      · cases inBare
      · obtain ⟨isOption, number_eq⟩ := copied found
        exact ⟨isOption, by simp [ackNumbers, number_eq]⟩
    · obtain ⟨isOption, number_eq⟩ := copied found
      exact ⟨isOption, by simp [ackNumbers, number_eq]⟩
  · obtain ⟨isOption, number_eq⟩ := copied found
    exact ⟨isOption, by simp [ackNumbers, number_eq]⟩

end Coap.Message
