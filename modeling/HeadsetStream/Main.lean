import HeadsetStream.Command.Program

/-!
# The command line program

Reads the arguments, the environment and the settings file, plays the test stream, and prints what
was played. What all that means is said elsewhere; here is only what touches the world.
-/

open HeadsetStream Command Settings

namespace HeadsetStream.Command

/-- The content of a file, if it can be read. -/
def content? (path : String) : IO (Option ByteArray) := do
  try
    return some (← IO.FS.readBinFile path)
  catch _ =>
    return none

/-- What the environment gives for options that are not given. -/
def environment : IO Environment := do
  return ⟨← IO.getEnv "WAVRY_XR_CONFIG", ← IO.getEnv "WAVRY_XR_BACKEND"⟩

/-- The lines of a summary. -/
def Summary.lines (summary : Summary) : List String :=
  ["stream finished",
    s!"  frames_received={summary.received}",
    s!"  frames_decoded={summary.decoded}",
    s!"  frames_rendered={summary.rendered}",
    s!"  images={summary.images}",
    s!"  avg_decode_us={summary.averageDecode}",
    s!"  idr_requests={summary.keyframeRequests}",
    s!"  tracking_sent={summary.trackingSent}",
    s!"  action_polls={summary.polls}"]

/-- Why the program does not play, in words; `path` is where the settings file was looked for. -/
def StartError.message (path : String) : StartError → String
  | .arguments error => error.message
  | .load .unreadable => "failed to read config " ++ path
  | .load .malformed => "invalid client config " ++ path
  | .load (.invalid error) => error.message
  | .name error => error.message
  | .invalid error => error.message

/-- Plays with these arguments and settings. -/
def play (args : Arguments) (settings : ClientSettings) : IO UInt32 := do
  IO.println ("wavry-xr-client starting codec=" ++ settings.codec.label ++
    " backend=" ++ settings.backend.label)
  match Program.play args settings with
  | some playback =>
    (Summary.of playback).lines.forM IO.println
    return 0
  | none =>
    IO.eprintln "the refresh rate leaves no time between frames"
    return 1

/-- Runs the program and gives its exit code. -/
def run (arguments : List String) : IO UInt32 := do
  match Arguments.ofList arguments (← environment) with
  | .error .help =>
    Arguments.usage.forM IO.println
    return 0
  | .error error =>
    IO.eprintln ("error: " ++ error.message)
    return 2
  | .ok args =>
    let content ← match args.config with
      | some path => content? path
      | none => pure none
    match Program.settings args fun _ => content with
    | .ok settings => play args settings
    | .error error =>
      IO.eprintln ("Error: " ++ error.message (args.config.getD ""))
      return 1

end HeadsetStream.Command

def main (arguments : List String) : IO UInt32 :=
  HeadsetStream.Command.run arguments
