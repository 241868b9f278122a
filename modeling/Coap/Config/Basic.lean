import Coap.Endpoint

namespace Coap

/-!
# Settings of the tools

The settings have a section for the endpoint and optional ones for sending and
listening. Every value but the peer to send to has a default. Settings are valid
if the window, the number of attempts and the capacity of the pool are positive.
-/

/-- Settings of the endpoint, in the units in which they are written. -/
structure EndpointSettings where
  bind : SocketAddress := SocketAddress.v4 0 0 0 0 5683
  broadcast : Bool := false
  maxAttempts : Nat := 6
  resendMillis : Nat := 750
  expirationSecs : Nat := 60
  garbageSecs : Nat := 25
  poolCapacity : Nat := 500
  windowSize : Nat := 70
deriving DecidableEq, Repr

/-- A request method. -/
inductive Method where
  | get
  | post
  | put
  | delete
deriving DecidableEq, Repr

namespace Method

/-- Every method. -/
def all : List Method :=
  [.get, .post, .put, .delete]

/-- The name of a method as it is written in settings. -/
def name : Method → String
  | .get => "get"
  | .post => "post"
  | .put => "put"
  | .delete => "delete"

/-- The method with a name. -/
def ofName? (name : String) : Option Method :=
  all.find? fun method => method.name == name

/-- The code of a method. -/
def code : Method → Code
  | .get => .get
  | .post => .post
  | .put => .put
  | .delete => .delete

end Method

/-- Settings for sending. -/
structure SendSettings where
  peer : SocketAddress
  path : String := "/upload"
  method : Method := .post
  /-- Where the payload comes from. -/
  input : String := "-"
  proxy : Option SocketAddress := none
  /-- How long to wait for the response, in seconds. -/
  timeoutSecs : Nat := 90
deriving DecidableEq, Repr

/-- Settings for listening. -/
structure ListenSettings where
  /-- Where received payloads are written. -/
  outputDir : Option String := none
  /-- The payload of every reply. -/
  reply : String := "ok"
deriving DecidableEq, Repr

/-- All settings. -/
structure Config where
  endpoint : EndpointSettings := {}
  send : Option SendSettings := none
  listen : Option ListenSettings := none
deriving DecidableEq, Repr

/-- Why settings are not usable. -/
inductive ConfigError where
  /-- The text is not a document. -/
  | malformed
  /--
  A value has the wrong type, or a table stands where a value
  should, or the reverse.
  -/
  | wrongType (path : List String)
  | outOfRange (path : List String)
  | badAddress (path : List String)
  | unknownMethod (name : String)
  | missing (path : List String)
  /-- A setting that must be positive is zero. -/
  | notPositive (name : String)
deriving DecidableEq, Repr

/--
The text of an invalid setting; errors of the document itself have no fixed text.
-/
def ConfigError.message? : ConfigError → Option String
  | .notPositive name =>
      some ("Invalid configuration: " ++ name ++ " must be positive")
  | _ => none

/-- The configuration of an endpoint with these settings. -/
def EndpointSettings.toConfig (settings : EndpointSettings) : EndpointConfig :=
  { bind := settings.bind
    broadcast := settings.broadcast
    pool :=
      { maxAttempts := settings.maxAttempts
        resendPeriod := Nanos.ofMillis settings.resendMillis
        expirationPeriod := Nanos.ofSecs settings.expirationSecs
        garbagePeriod := Nanos.ofSecs settings.garbageSecs
        capacity := settings.poolCapacity }
    arq := { windowSize := settings.windowSize } }

/-- Check the settings that must be positive, in order. -/
def EndpointSettings.validate
    (settings : EndpointSettings) :
    Except ConfigError Unit :=
  if settings.windowSize = 0 then .error (.notPositive "window_size")
  else if settings.maxAttempts = 0 then .error (.notPositive "max_attempts")
  else if settings.poolCapacity = 0 then .error (.notPositive "pool_capacity")
  else .ok ()

/-- Settings with every section filled in. -/
def Config.sample : Config :=
  { send := some { peer := SocketAddress.v4 192 168 1 10 5683 }
    listen := some { outputDir := some "received" } }

end Coap
