import Coap.Address.Printer
import Coap.Config.Basic
import Coap.Toml.Text

namespace Coap

/-!
# Writing settings

Each section is written under its header, one setting a line, with an empty line
between sections. Settings without a value are left out.
-/

namespace Config

/-- One line of a section. -/
def line (key value : String) : String :=
  key ++ " = " ++ value ++ "\n"

/-- A line for a text that may be missing. -/
def textLine?
    (key : String)
    (value : Option String) :
    String :=
  value.elim "" fun text => line key (Toml.quote text)

/-- A section: its header and its lines. -/
def sectionText
    (name : String)
    (lines : List String) :
    String :=
  "[" ++ name ++ "]\n" ++ String.join lines

end Config

open Config

/-- The section of the endpoint. -/
def EndpointSettings.text (settings : EndpointSettings) : String :=
  sectionText "endpoint"
    [line "bind" (Toml.quote settings.bind.text),
      line "broadcast" (toString settings.broadcast),
      line "max_attempts" (toString settings.maxAttempts),
      line "resend_ms" (toString settings.resendMillis),
      line "expiration_secs" (toString settings.expirationSecs),
      line "garbage_secs" (toString settings.garbageSecs),
      line "pool_capacity" (toString settings.poolCapacity),
      line "window_size" (toString settings.windowSize)]

/-- The section for sending. -/
def SendSettings.text (settings : SendSettings) : String :=
  sectionText "send"
    [line "peer" (Toml.quote settings.peer.text),
      line "path" (Toml.quote settings.path),
      line "method" (Toml.quote settings.method.name),
      line "input" (Toml.quote settings.input),
      textLine? "proxy" (settings.proxy.map SocketAddress.text),
      line "timeout_secs" (toString settings.timeoutSecs)]

/-- The section for listening. -/
def ListenSettings.text (settings : ListenSettings) : String :=
  sectionText "listen"
    [textLine? "output_dir" settings.outputDir,
      line "reply" (Toml.quote settings.reply)]

/-- The text of all settings. -/
def Config.text (config : Config) : String :=
  "\n".intercalate
    ([config.endpoint.text] ++ (config.send.map SendSettings.text).toList ++
      (config.listen.map ListenSettings.text).toList)

end Coap
