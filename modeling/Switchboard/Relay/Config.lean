import Switchboard.Frame
import Switchboard.Json.Printer
import Switchboard.Relay.Settings

/-!
# Configuration of a relay

A configuration starts from the defaults. The settings in a file, if the environment names one, come
over them, and the settings in the environment over those. A relay cannot run with a zero where it
needs at least one.
-/

namespace Switchboard

/-- The configuration of a relay. -/
structure Config where
  /-- Where the relay listens. -/
  bindAddress : SocketAddress := .v4 .loopback defaultPort
  /-- After how many seconds without traffic a session ends; zero means never. -/
  idleTimeoutSecs : UInt64 := 0
  /-- How many sessions there may be at a time. -/
  maxConnections : UInt64 := 1000
  /-- How many milliseconds lie between two searches for expired routes. -/
  sweepIntervalMs : UInt64 := 1000
  /-- How many messages may wait for one session. -/
  outboundQueue : UInt64 := 1024
deriving DecidableEq, Repr

/-- A setting that must not be zero. -/
inductive PositiveSetting where
  | maxConnections
  | sweepInterval
  | outboundQueue
deriving DecidableEq, Repr

/-- The name of the setting. -/
def PositiveSetting.name : PositiveSetting → String
  | maxConnections => "max_connections"
  | sweepInterval => "sweep_interval_ms"
  | outboundQueue => "outbound_queue"

/-- Why a file could not be read. -/
inductive FileFault where
  | notFound
  | notText
deriving DecidableEq, Repr

/-- The text that reports the fault. -/
def FileFault.message : FileFault → String
  | notFound => "no such file"
  | notText => "not valid text"

/-- Why there is no configuration. -/
inductive ConfigError where
  /-- The file could not be read. -/
  | unreadable (path : String) (fault : FileFault)
  /-- The file does not have the form of settings. -/
  | malformed (path : String)
  /-- A setting is zero. -/
  | zero (setting : PositiveSetting)
deriving DecidableEq, Repr

/-- The text that reports the error. -/
def ConfigError.message : ConfigError → String
  | unreadable path fault => s!"failed to read config file '{path}': " ++ fault.message
  | malformed path => s!"failed to parse config file '{path}': not a settings file"
  | zero setting => "configuration validation failed: " ++ setting.name ++ " must be at least 1"

/-- What a configuration is loaded from: the environment, and the content of each file there is. -/
structure ConfigSource where
  environment : Settings.Environment
  content? : String → Option ByteArray

namespace Config

/-- The configuration with each given setting in its place. -/
def override (config : Config) (settings : Settings) : Config where
  bindAddress := settings.bindAddress.getD config.bindAddress
  idleTimeoutSecs := settings.idleTimeoutSecs.getD config.idleTimeoutSecs
  maxConnections := settings.maxConnections.getD config.maxConnections
  sweepIntervalMs := settings.sweepIntervalMs.getD config.sweepIntervalMs
  outboundQueue := settings.outboundQueue.getD config.outboundQueue

/-- The first setting that is zero but must not be. -/
def zeroSetting? (config : Config) : Option PositiveSetting :=
  if config.maxConnections = 0 then some .maxConnections
  else if config.sweepIntervalMs = 0 then some .sweepInterval
  else if config.outboundQueue = 0 then some .outboundQueue
  else none

/-- Accepts a configuration that a relay can run with. -/
def validate (config : Config) : Except ConfigError Unit :=
  match config.zeroSetting? with
  | some setting => .error (.zero setting)
  | none => .ok ()

/-- The settings in a file. -/
def readFile (source : ConfigSource) (path : String) : Except ConfigError Settings :=
  match source.content? path with
  | none => .error (.unreadable path .notFound)
  | some content =>
      match String.fromUTF8? content with
      | none => .error (.unreadable path .notText)
      | some text =>
          match Settings.ofText? text with
          | none => .error (.malformed path)
          | some settings => .ok settings

/-- The configuration that a file gives. It need not be one that a relay can run with. -/
def ofFile (source : ConfigSource) (path : String) : Except ConfigError Config :=
  (readFile source path).map ({} : Config).override

/-- The variable that names the file. -/
def fileVariable : String := "IRIS_CONFIG"

/-- The configuration of a relay: defaults, file, environment. -/
def load (source : ConfigSource) : Except ConfigError Config := do
  let base ← match source.environment.text? fileVariable with
    | some path => ofFile source path
    | none => .ok {}
  let config := base.override (.ofEnvironment source.environment)
  config.validate
  return config

/-- The configuration as a JSON value. -/
def toJson (config : Config) : Json :=
  let number (n : UInt64) : Json := .number (.ofNat n.toNat)
  .object
    [("network", .object
      [("bind_addr", .string config.bindAddress.render),
        ("idle_timeout_secs", number config.idleTimeoutSecs),
        ("max_connections", number config.maxConnections)]),
      ("routing", .object
        [("sweep_interval_ms", number config.sweepIntervalMs),
          ("outbound_queue", number config.outboundQueue)])]

end Config

end Switchboard
