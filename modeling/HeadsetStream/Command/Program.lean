import HeadsetStream.Command.Arguments
import HeadsetStream.Command.Names
import HeadsetStream.Command.Playback
import HeadsetStream.Settings.Reading

/-!
# The program

What the program does with its command line: it loads the settings, changes them as the arguments
say, plays the test stream and reports. All that is said here without touching the world; the file
that the settings are loaded from is handed in.
-/

namespace HeadsetStream.Command
open Settings

/-- Why the program does not play. -/
inductive StartError where
  | arguments (error : ArgumentError)
  | load (error : LoadError)
  | name (error : NameError)
  | invalid (error : SettingsError)
  deriving DecidableEq, Repr

/-- What the program reports at the end. -/
structure Summary where
  received : Nat
  decoded : Nat
  rendered : Nat
  images : Nat
  averageDecode : Float
  keyframeRequests : Nat
  trackingSent : Nat
  polls : Nat
  deriving Repr

/-- What is reported of a playback. -/
def Summary.of (playback : Playback) : Summary where
  received := playback.bench.client.latency.stats.received
  decoded := playback.bench.client.latency.stats.decoded
  rendered := playback.bench.client.latency.stats.rendered
  images := playback.bench.headset.images
  averageDecode := playback.bench.client.latency.stats.averageDecode.getD 0
  keyframeRequests := playback.journal.keyframeRequests
  trackingSent := playback.journal.trackingSent
  polls := playback.bench.headset.polls

namespace Program

/-- The settings to start from: those of the file that the arguments name, or the standard ones. -/
def loaded (args : Arguments) (file : String → Option ByteArray) :
    Except StartError ClientSettings :=
  match args.config with
  | some path => (ClientSettings.ofFile (file path)).mapError .load
  | none => .ok {}

/-- The settings changed as the arguments say. -/
def adjusted (args : Arguments) (settings : ClientSettings) : Except NameError ClientSettings := do
  let codec ← match args.codec with
    | some name => codecNamed name
    | none => pure settings.codec
  let backend ← match args.backend with
    | some name => backendNamed name
    | none => pure settings.backend
  return { settings with
    codec
    backend
    foveation.enabled := settings.foveation.enabled || args.foveation
    verbose := settings.verbose || args.verbose }

/-- The settings that the program plays with, checked once more after the change. -/
def settings (args : Arguments) (file : String → Option ByteArray) :
    Except StartError ClientSettings := do
  let settings ← (adjusted args (← loaded args file)).mapError .name
  settings.check.mapError .invalid
  return settings

/-- The arguments and the settings of a command line. -/
def start (arguments : List String) (env : Environment) (file : String → Option ByteArray) :
    Except StartError (Arguments × ClientSettings) := do
  let args ← (Arguments.ofList arguments env).mapError .arguments
  return (args, ← settings args file)

/-- Plays the test stream, if there is a time between its frames. -/
def play (args : Arguments) (settings : ClientSettings) : Option Playback :=
  Playback.run settings args.duration args.dropInterval

end Program

end HeadsetStream.Command
