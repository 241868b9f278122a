import Mathlib.Tactic.Common
import Coap.Message.Path
import Coap.Proofs.Wire.Lookup

namespace Coap

/-!
# Paths are kept

A path that is set is read back without its empty parts, and setting what was read
changes nothing any more: segments have no slash in them, so joining them by slashes
loses nothing. The path is text throughout, so a datagram carries it, whatever other
options there are.
-/

namespace Path

/-- The parts of a text are what is left of it between slashes. -/
theorem parts_eq_splitOn (text : List Char) :
    parts text = text.splitOn '/' := by
  induction text with
  | nil => rfl
  | cons char rest inductionHypothesis =>
      obtain ⟨first, others, split⟩ :=
        List.exists_cons_of_ne_nil (List.splitOn_ne_nil '/' rest)
      rw [parts, List.splitOn_cons_eq_if_modifyHead, inductionHypothesis, split]
      by_cases slash : char = '/'
      · simp [slash]
      · simp [slash]

theorem slash_notMem_of_mem_parts
    {text part : List Char}
    (member : part ∈ parts text) :
    '/' ∉ part := by
  induction text generalizing part with
  | nil =>
      rw [List.mem_singleton.mp member]
      exact List.not_mem_nil
  | cons char rest inductionHypothesis =>
      rw [parts] at member
      split at member
      · rcases List.mem_cons.mp member with isEmpty | inRest
        · rw [isEmpty]
          exact List.not_mem_nil
        · exact inductionHypothesis inRest
      · next noSlash =>
          obtain ⟨first, others, split⟩ : ∃ first others,
              parts rest = first :: others := by
            rw [parts_eq_splitOn]
            exact List.exists_cons_of_ne_nil (List.splitOn_ne_nil '/' rest)
          rw [split] at member inductionHypothesis
          rcases List.mem_cons.mp member with isFirst | inOthers
          · rw [isFirst, List.mem_cons, not_or]
            exact ⟨Ne.symm noSlash, inductionHypothesis List.mem_cons_self⟩
          · exact inductionHypothesis (List.mem_cons_of_mem _ inOthers)

/-- A segment is not empty and has no slash in it. -/
theorem of_mem_segments
    {text segment : List Char}
    (member : segment ∈ segments text) :
    segment ≠ [] ∧ '/' ∉ segment := by
  obtain ⟨isPart, nonempty⟩ := List.mem_filter.mp member
  exact ⟨by simpa using nonempty, slash_notMem_of_mem_parts isPart⟩

/-- Segments that are joined are found again. -/
theorem segments_join
    {list : List (List Char)}
    (proper : ∀ segment ∈ list, segment ≠ [] ∧ '/' ∉ segment) :
    segments (join list) = list := by
  have leading : segments (join list) = segments (['/'].intercalate list) := by
    unfold segments join
    rw [parts, if_pos rfl, List.filter_cons_of_neg (by simp)]
  rw [leading]
  by_cases missing : list = []
  · rw [missing]
    rfl
  · unfold segments
    rw [parts_eq_splitOn,
      List.splitOn_intercalate '/'
        (fun segment member => (proper segment member).2) missing]
    exact List.filter_eq_self.mpr fun segment member => by
      simpa using (proper segment member).1

/-- The segments of a text as texts. -/
theorem map_ofList_segments (text : String) :
    (segments text.toList).map String.ofList =
      ((text.split '/').toList.map String.Slice.copy).filter fun part =>
        part ≠ "" := by
  rw [String.toList_split_char, List.filter_map]
  unfold segments
  rw [parts_eq_splitOn]
  refine congrArg (List.map String.ofList) (List.filter_congr fun part _ => ?_)
  simp only [Function.comp, ne_eq, String.ofList_eq_empty_iff]

theorem number_of_mem_segmentOptions
    {list : List (List Char)}
    {option : MessageOption}
    (member : option ∈ list.map segmentOption) :
    option.number = .uriPath := by
  obtain ⟨segment, _, rfl⟩ := List.mem_map.mp member
  rfl

/-- Texts are made of the characters they were made from. -/
theorem map_toList_map_ofList (list : List (List Char)) :
    (list.map String.ofList).map String.toList = list := by
  rw [List.map_map]
  exact (List.map_congr_left fun _ _ => String.toList_ofList).trans
    (List.map_id list)

/-- Segments that are joined, as texts. -/
theorem ofList_join (list : List (List Char)) :
    String.ofList (join list) =
      "/" ++ "/".intercalate (list.map String.ofList) := by
  apply String.toList_inj.mp
  rw [String.toList_ofList, String.toList_append, String.toList_intercalate,
    map_toList_map_ofList]
  rfl

end Path

namespace Message

/-- Repeatable options are appended in their order. -/
theorem foldl_addOption
    (message : Message)
    {added : List MessageOption}
    (repeatable : ∀ option ∈ added, option.number.isRepeatable = true) :
    added.foldl addOption message =
      { message with options := message.options ++ added } := by
  induction added generalizing message with
  | nil => rw [List.foldl_nil, List.append_nil]
  | cons option rest inductionHypothesis =>
      obtain ⟨first, others⟩ := List.forall_mem_cons.mp repeatable
      have appended : message.addOption option =
          { message with options := message.options ++ [option] } := by
        unfold addOption
        rw [if_pos first]
      rw [List.foldl_cons, inductionHypothesis _ others, appended,
        List.append_assoc, List.singleton_append]

/-- A new path stands behind the options that are not of the old one. -/
theorem setPath_eq
    (message : Message)
    (path : String) :
    message.setPath path =
      { message with
        options :=
          (message.options.filter fun option => option.number ≠ .uriPath) ++
            (Path.segments path.toList).map Path.segmentOption } := by
  have repeatable : ∀ option ∈ (Path.segments path.toList).map Path.segmentOption,
      option.number.isRepeatable = true := by
    intro option member
    rw [Path.number_of_mem_segmentOptions member]
    rfl
  unfold setPath
  rw [← List.foldl_map, foldl_addOption _ repeatable]
  rfl

/-- Only options of the path are changed. -/
theorem others_setPath
    (message : Message)
    (path : String) :
    ((message.setPath path).options.filter fun option => option.number ≠ .uriPath) =
      message.options.filter fun option => option.number ≠ .uriPath := by
  have gone : (((Path.segments path.toList).map Path.segmentOption).filter
      fun option => option.number ≠ .uriPath) = [] := by
    refine List.filter_eq_nil_iff.mpr fun option member => ?_
    simpa using Path.number_of_mem_segmentOptions member
  rw [setPath_eq, List.filter_append, List.filter_filter, gone, List.append_nil]
  simp

/-- The options of the path are its segments in order. -/
theorem segments_setPath
    (message : Message)
    (path : String) :
    ((message.setPath path).options.filter fun option =>
      option.number == .uriPath) =
      (Path.segments path.toList).map Path.segmentOption := by
  have gone :
      ((message.options.filter fun option => option.number ≠ .uriPath).filter
      fun option => option.number == .uriPath) = [] := by
    refine List.filter_eq_nil_iff.mpr fun option member => ?_
    simpa using (List.mem_filter.mp member).2
  have kept : (((Path.segments path.toList).map Path.segmentOption).filter
      fun option => option.number == .uriPath) =
        (Path.segments path.toList).map Path.segmentOption := by
    refine List.filter_eq_self.mpr fun option member => ?_
    simpa using Path.number_of_mem_segmentOptions member
  rw [setPath_eq, List.filter_append, gone, kept, List.nil_append]

theorem pathSegments_setPath
    (message : Message)
    (path : String) :
    (message.setPath path).pathSegments =
      (Path.segments path.toList).map String.ofList := by
  have isText : (fun option : MessageOption => option.value.asText?) ∘
      Path.segmentOption =
      some ∘ String.ofList :=
    rfl
  unfold pathSegments
  rw [segments_setPath, List.filterMap_map, isText, List.filterMap_eq_map]

/-- The path that is read consists of the segments that were set. -/
theorem path_setPath
    (message : Message)
    (path : String) :
    (message.setPath path).path =
      String.ofList (Path.join (Path.segments path.toList)) := by
  unfold Message.path
  rw [pathSegments_setPath, Path.map_toList_map_ofList]

/-- The path that was set last counts. -/
theorem setPath_setPath
    (message : Message)
    (first second : String) :
    (message.setPath first).setPath second = message.setPath second := by
  rw [setPath_eq, others_setPath, setPath_eq, setPath_eq]

/-- Setting the path that is read changes nothing. -/
theorem setPath_path_setPath
    (message : Message)
    (path : String) :
    (message.setPath path).setPath (message.setPath path).path =
      message.setPath path := by
  have found : Path.segments (message.setPath path).path.toList =
      Path.segments path.toList := by
    rw [path_setPath, String.toList_ofList]
    exact Path.segments_join fun segment member => Path.of_mem_segments member
  rw [setPath_setPath, setPath_eq, found, ← setPath_eq]

end Message

namespace Wire

/--
The options of a number that are read as they were are the options of that number.
-/
theorem filter_of_rereadOption
    {options read : List MessageOption}
    (pairs : List.Forall₂
      (fun option result => rereadOption option = .ok result) options read)
    {number : OptionNumber}
    (canonical : ∀ option ∈ options, option.number.IsCanonical)
    (kept : ∀ option ∈ options, option.number = number →
      rereadOption option = .ok option) :
    (read.filter fun option => option.number == number) =
      options.filter fun option => option.number == number := by
  induction pairs with
  | nil => rfl
  | @cons option first options rest reread others inductionHypothesis =>
      obtain ⟨isCanonical, canonicalRest⟩ := List.forall_mem_cons.mp canonical
      obtain ⟨isKept, keptRest⟩ := List.forall_mem_cons.mp kept
      have number_eq : first.number = option.number :=
        (number_of_rereadOption reread).trans isCanonical
      rw [List.filter_cons, List.filter_cons, number_eq,
        inductionHypothesis canonicalRest keptRest]
      by_cases isNumber : option.number = number
      · have same : first = option :=
          Except.ok.inj (reread.symm.trans (isKept isNumber))
        rw [same]
      · rw [beq_false_of_ne isNumber]
        rfl

/-- A path of text is read as it was written. -/
theorem path_of_decode
    {message received : Message}
    {bytes : List UInt8}
    (written : encode message = .ok bytes)
    (reading : decode bytes = .ok received)
    (canonical : ∀ option ∈ message.options, option.number.IsCanonical)
    (textual : ∀ option ∈ message.options, option.number = .uriPath →
      IsTyped option) :
    received.path = message.path := by
  rw [decode_of_encode written] at reading
  cases success : (sortByNumber message.options).mapM rereadOption with
  | error cause =>
      rw [success] at reading
      cases reading
  | ok read =>
      rw [success] at reading
      cases reading
      have kept : (read.filter fun option => option.number == .uriPath) =
          message.options.filter fun option => option.number == .uriPath := by
        rw [← filter_sortByNumber message.options]
        refine filter_of_rereadOption (mapM_eq_ok_iff.mp success) ?_ ?_
        · exact fun option member => canonical option (mem_sortByNumber.mp member)
        · intro option member isPath
          have isOption := mem_sortByNumber.mp member
          exact rereadOption_of_isTyped (canonical option isOption)
            (textual option isOption isPath)
      unfold Message.path Message.pathSegments carried
      rw [kept]

end Wire

namespace Message

/-- A path that was set has options of canonical numbers if the others have. -/
theorem isCanonical_of_mem_setPath
    {message : Message}
    (canonical : ∀ option ∈ message.options, option.number.IsCanonical)
    {path : String}
    {option : MessageOption}
    (member : option ∈ (message.setPath path).options) :
    option.number.IsCanonical := by
  rw [setPath_eq] at member
  rcases List.mem_append.mp member with isOther | isSegment
  · exact canonical option (List.mem_filter.mp isOther).1
  · rw [Path.number_of_mem_segmentOptions isSegment]
    decide

/-- A path that was set is text. -/
theorem isTyped_of_mem_setPath
    {message : Message}
    {path : String}
    {option : MessageOption}
    (member : option ∈ (message.setPath path).options)
    (isPath : option.number = .uriPath) :
    Wire.IsTyped option := by
  have isSegment : option ∈ (Path.segments path.toList).map Path.segmentOption := by
    rw [← segments_setPath message path]
    exact List.mem_filter.mpr ⟨member, by simpa using isPath⟩
  obtain ⟨segment, _, rfl⟩ := List.mem_map.mp isSegment
  trivial

/--
A path that is set is read as its non-empty parts between slashes, joined by slashes
after a leading one. All other options stay as they are and in their order, setting
the path that is read changes nothing any more, and a datagram carries the path.
-/
theorem path_kept_once_set
    (message : Message)
    (canonical : ∀ option ∈ message.options, option.number.IsCanonical)
    (path : String) :
    let named := message.setPath path
    named.path =
      "/" ++ "/".intercalate
        (((path.split '/').toList.map String.Slice.copy).filter
          fun part => part ≠ "") ∧
    (named.options.filter fun option => option.number ≠ .uriPath) =
      (message.options.filter fun option => option.number ≠ .uriPath) ∧
    named.setPath named.path = named ∧
    ∀ bytes received,
      Wire.encode named = .ok bytes → Wire.decode bytes = .ok received →
        received.path = named.path := by
  intro named
  refine ⟨?_, message.others_setPath path, message.setPath_path_setPath path, ?_⟩
  · rw [path_setPath, Path.ofList_join, Path.map_ofList_segments]
  · intro bytes received written reading
    exact Wire.path_of_decode written reading
      (fun option member => isCanonical_of_mem_setPath canonical member)
      (fun option member => isTyped_of_mem_setPath member)

/--
Doubled slashes and the old path are gone, the other options are
kept, also in a datagram.
-/
theorem path_kept_once_set_two_segments :
    let message : Message :=
      { id := 7
        kind := .confirmable
        code := .get
        options :=
          [MessageOption.text .uriPath "old", MessageOption.uint .maxAge 0,
            MessageOption.text .uriHost "h"] }
    let named := message.setPath "//a//b/"
    (∀ option ∈ message.options, option.number.IsCanonical) ∧ named.path = "/a/b" ∧
      (named.options.filter fun option => option.number ≠ .uriPath) =
        [MessageOption.uint .maxAge 0, MessageOption.text .uriHost "h"] ∧
      named.setPath "/a/b" = named ∧
      ∃ bytes received,
        Wire.encode named = .ok bytes ∧ Wire.decode bytes = .ok received ∧
          received.path = "/a/b" := by
  intro message named
  have canonical : ∀ option ∈ message.options,
      option.number.IsCanonical := by decide
  obtain ⟨shown, others, again, carried⟩ :=
    path_kept_once_set message canonical "//a//b/"
  have parts : ((("//a//b/".split '/').toList.map String.Slice.copy).filter
    fun part => part ≠ "") =
      ["a", "b"] := by
    rw [← Path.map_ofList_segments]
    decide
  have isPath : named.path = "/a/b" := by
    rw [parts] at shown
    exact shown
  have options_eq : named.options =
      [MessageOption.uint .maxAge 0, MessageOption.text .uriHost "h",
        MessageOption.text .uriPath "a", MessageOption.text .uriPath "b"] := by
    decide
  have readable : Wire.IsReadable named := by
    refine ⟨by decide, ?_⟩
    rw [options_eq]
    intro option member
    simp only [List.mem_cons, List.not_mem_nil, or_false] at member
    rcases member with rfl | rfl | rfl | rfl <;>
      exact ⟨by decide, Wire.not_isOverlong_of_isTyped (by decide) trivial⟩
  obtain ⟨bytes, written, reading⟩ := readable.exists_bytes
  refine ⟨canonical, isPath, others, ?_, bytes, _, written, reading, ?_⟩
  · rw [← isPath]
    exact again
  · rw [← isPath]
    exact carried bytes _ written reading

end Message

end Coap
