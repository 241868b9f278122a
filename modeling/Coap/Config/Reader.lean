import Coap.Config.Basic
import Coap.Toml.Parser

namespace Coap.Config

/-!
# Reading settings

Each setting is looked up by its path. Paths without a meaning are ignored, and
so is a section's absence; a value of the wrong type or out of range is refused.
-/

open Toml in
/-- The value at a path, unless a table stands there. -/
def scalarAt
    (document : Document)
    (path : Path) :
    Except ConfigError (Option Scalar) :=
  match document.node? path with
  | none => .ok none
  | some (.value scalar) => .ok (some scalar)
  | some (.table _) => .error (.wrongType path)

open Toml in
/-- Whether a section is present; a value in its place is refused. -/
def hasSection
    (document : Document)
    (name : String) :
    Except ConfigError Bool :=
  match document.node? [name] with
  | none => .ok false
  | some (.table _) => .ok true
  | some (.value _) => .error (.wrongType [name])

open Toml in
/-- A whole number below a bound. -/
def naturalAt
    (document : Document)
    (path : Path)
    (bound default : Nat) :
    Except ConfigError Nat := do
  match ← scalarAt document path with
  | none => .ok default
  | some (.integer value) =>
      if 0 ≤ value ∧ value < bound then .ok value.toNat
      else .error (.outOfRange path)
  | some _ => .error (.wrongType path)

open Toml in
/-- A truth value. -/
def booleanAt
    (document : Document)
    (path : Path)
    (default : Bool) :
    Except ConfigError Bool := do
  match ← scalarAt document path with
  | none => .ok default
  | some (.boolean value) => .ok value
  | some _ => .error (.wrongType path)

open Toml in
/-- A text, if there is one. -/
def textAt
    (document : Document)
    (path : Path) :
    Except ConfigError (Option String) := do
  match ← scalarAt document path with
  | none => .ok none
  | some (.text value) => .ok (some value)
  | some _ => .error (.wrongType path)

open Toml in
/-- A socket address, if there is one. -/
def addressAt
    (document : Document)
    (path : Path) :
    Except ConfigError (Option SocketAddress) := do
  match ← textAt document path with
  | none => .ok none
  | some text =>
      match SocketAddress.ofText? text with
      | some address => .ok (some address)
      | none => .error (.badAddress path)

/-- The method with a name. -/
def methodNamed (name : String) : Except ConfigError Method :=
  match Method.ofName? name with
  | some method => .ok method
  | none => .error (.unknownMethod name)

open Toml in
/-- A request method: its name as text, or as the one empty table in a table. -/
def methodAt
    (document : Document)
    (path : Path)
    (default : Method) :
    Except ConfigError Method :=
  match document.node? path with
  | none => .ok default
  | some (.value (.text name)) => methodNamed name
  | some (.value _) => .error (.wrongType path)
  | some (.table _) =>
      match document.children path with
      | [name] =>
          match document.node? (path ++ [name]),
            document.children (path ++ [name]) with
          | some (.table _), [] => methodNamed name
          | _, _ => .error (.wrongType (path ++ [name]))
      | _ => .error (.wrongType path)

/-- The bound of numbers of 32 bits. -/
def bound32 : Nat :=
  4294967296

/-- The bound of numbers of 64 bits. -/
def bound64 : Nat :=
  18446744073709551616

open Toml in
/-- The settings of the endpoint. -/
def endpointOf (document : Document) : Except ConfigError EndpointSettings := do
  let _ ← hasSection document "endpoint"
  let default : EndpointSettings := {}
  let bind ← addressAt document ["endpoint", "bind"]
  return {
    bind := bind.getD default.bind
    broadcast := ← booleanAt document ["endpoint", "broadcast"] default.broadcast
    maxAttempts :=
      ← naturalAt document ["endpoint", "max_attempts"] bound32 default.maxAttempts
    resendMillis :=
      ← naturalAt document ["endpoint", "resend_ms"] bound64 default.resendMillis
    expirationSecs :=
      ← naturalAt document
        ["endpoint", "expiration_secs"] bound64 default.expirationSecs
    garbageSecs :=
      ← naturalAt document ["endpoint", "garbage_secs"] bound64 default.garbageSecs
    poolCapacity := ← naturalAt document
      ["endpoint", "pool_capacity"] bound64 default.poolCapacity
    windowSize :=
      ← naturalAt document ["endpoint", "window_size"] bound64 default.windowSize }

open Toml in
/-- The settings for sending, if there is such a section. -/
def sendOf (document : Document) : Except ConfigError (Option SendSettings) := do
  if ← hasSection document "send" then
    match ← addressAt document ["send", "peer"] with
    | none => .error (.missing ["send", "peer"])
    | some peer =>
        let default : SendSettings := { peer := peer }
        let path ← textAt document ["send", "path"]
        let input ← textAt document ["send", "input"]
        return some {
          peer := peer
          path := path.getD default.path
          method := ← methodAt document ["send", "method"] default.method
          input := input.getD default.input
          proxy := ← addressAt document ["send", "proxy"]
          timeoutSecs :=
            ← naturalAt document
              ["send", "timeout_secs"] bound64 default.timeoutSecs }
  else return none

open Toml in
/-- The settings for listening, if there is such a section. -/
def listenOf
    (document : Document) :
    Except ConfigError (Option ListenSettings) := do
  if ← hasSection document "listen" then
    let default : ListenSettings := {}
    let reply ← textAt document ["listen", "reply"]
    return some {
      outputDir := ← textAt document ["listen", "output_dir"]
      reply := reply.getD default.reply }
  else return none

/-- The settings that a text holds, checked. -/
def ofText (text : String) : Except ConfigError Config := do
  match Toml.Document.ofText? text with
  | none => .error .malformed
  | some document =>
      let config : Config :=
        { endpoint := ← endpointOf document
          send := ← sendOf document
          listen := ← listenOf document }
      config.endpoint.validate
      return config

end Coap.Config
