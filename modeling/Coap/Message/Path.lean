import Coap.Message.Basic

namespace Coap

/-!
# Resource paths

A path is written with slashes. On a message it is a sequence of Uri-Path
options, one for each segment between slashes that is not empty.
-/

namespace Path

/-- The parts of a text between slashes, empty ones included. -/
def parts : List Char → List (List Char)
  | [] => [[]]
  | char :: rest =>
      if char = '/' then [] :: parts rest
      else
        match parts rest with
        | [] => [[char]]
        | first :: others => (char :: first) :: others

/-- The parts that are not empty. -/
def segments (text : List Char) : List (List Char) :=
  (parts text).filter fun part => part ≠ []

/-- Segments joined by slashes, after a leading slash. -/
def join (segments : List (List Char)) : List Char :=
  '/' :: ['/'].intercalate segments

/-- The option that holds one segment. -/
def segmentOption (segment : List Char) : MessageOption :=
  MessageOption.text .uriPath (String.ofList segment)

end Path

namespace Message

/-- Replace the path by the segments of `path`. -/
def setPath
    (message : Message)
    (path : String) :
    Message :=
  (Path.segments path.toList).foldl
    (fun message segment => message.addOption (Path.segmentOption segment))
    (message.removeOption .uriPath)

/-- The texts of the Uri-Path options in order. -/
def pathSegments (message : Message) : List String :=
  (message.options.filter fun option => option.number == .uriPath).filterMap
    fun option => option.value.asText?

/-- The path of a message. -/
def path (message : Message) : String :=
  String.ofList (Path.join (message.pathSegments.map String.toList))

end Message

end Coap
