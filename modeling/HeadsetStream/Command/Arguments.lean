/-!
# The command line

Options have a value, which follows as the next argument or behind an equals sign; flags have none.
Each may be given once. An option's value is checked when the next option or flag is met, or at the
end, so that an argument no one knows is reported before a bad value in front of it.
-/

namespace HeadsetStream.Command

inductive ArgumentError where
  /-- No such option or flag, or a value that no option waits for. -/
  | unknown
  /-- An option without its value. -/
  | missingValue
  /-- A value that is no number of the option's range. -/
  | badValue
  /-- An option or flag given twice. -/
  | repeated
  /-- A flag with a value. -/
  | unwantedValue
  /-- Not an error, but a wish for help. -/
  | help
  deriving DecidableEq, Repr

def ArgumentError.message : ArgumentError → String
  | .unknown => "unexpected argument"
  | .missingValue => "a value is required"
  | .badValue => "invalid value"
  | .repeated => "an argument cannot be used multiple times"
  | .unwantedValue => "unexpected value"
  | .help => "help is printed on its own"

/-- What can be given with a value. -/
inductive ValueOption where
  | config
  | codec
  | backend
  | durationSecs
  | dropEvery
  deriving DecidableEq, Repr

/-- What stands between two dashes and an equals sign. -/
inductive LongName where
  | option (option : ValueOption)
  | foveation
  | verbose
  | help
  deriving DecidableEq, Repr

def LongName.ofName? : String → Option LongName
  | "config" => some (.option .config)
  | "codec" => some (.option .codec)
  | "backend" => some (.option .backend)
  | "duration-secs" => some (.option .durationSecs)
  | "drop-every" => some (.option .dropEvery)
  | "foveation" => some .foveation
  | "verbose" => some .verbose
  | "help" => some .help
  | _ => none

/-- What was given. -/
structure Arguments where
  config : Option String := none
  codec : Option String := none
  backend : Option String := none
  durationSecs : Option Nat := none
  dropEvery : Option Nat := none
  foveation : Bool := false
  verbose : Bool := false
  deriving DecidableEq, Repr, Inhabited

/-- What stands in for options that were not given. -/
structure Environment where
  config : Option String := none
  backend : Option String := none
  deriving DecidableEq, Repr, Inhabited

/-- The number that decimal digits write; there has to be at least one. -/
def digits? (text : List Char) : Option Nat :=
  if text.isEmpty || !text.all Char.isDigit then none
  else some (text.foldl (fun n c => n * 10 + (c.toNat - '0'.toNat)) 0)

/-- A whole number, with a plus sign or none. -/
def unsigned? (text : String) : Option Nat :=
  match text.toList with
  | '+' :: rest => digits? rest
  | rest => digits? rest

/-- A whole number with any sign or none. -/
def signed? (text : String) : Option Int :=
  match text.toList with
  | '-' :: rest => (digits? rest).map fun n => -(n : Int)
  | '+' :: rest => (digits? rest).map Int.ofNat
  | rest => (digits? rest).map Int.ofNat

/-- Seconds are unsigned numbers of 64 bits. -/
def seconds? (text : String) : Option Nat :=
  (unsigned? text).filter (· < 0x10000000000000000)

/-- A count is a number of 32 bits; as signs are allowed, minus zero is zero. -/
def count? (text : String) : Option Nat :=
  ((signed? text).filter fun i => 0 ≤ i && i < 0x100000000).map Int.toNat

namespace Arguments

/-- A path, which may not be empty. -/
def path (text : String) : Except ArgumentError String :=
  if text.isEmpty then .error .missingValue else .ok text

def number (n : Option Nat) : Except ArgumentError Nat :=
  n.elim (.error .badValue) .ok

/-- A value for what has none yet. -/
def once {α : Type} (before : Option α) (value : Except ArgumentError α) :
    Except ArgumentError (Option α) :=
  if before.isSome then .error .repeated else value.map some

/-- The arguments with an option's value. -/
def give (args : Arguments) (option : ValueOption) (text : String) :
    Except ArgumentError Arguments :=
  match option with
  | .config => do return { args with config := ← once args.config (path text) }
  | .codec => do return { args with codec := ← once args.codec (.ok text) }
  | .backend => do return { args with backend := ← once args.backend (.ok text) }
  | .durationSecs => do
    return { args with durationSecs := ← once args.durationSecs (number (seconds? text)) }
  | .dropEvery => do return { args with dropEvery := ← once args.dropEvery (number (count? text)) }

/-- An option that was met, and its value once there is one. -/
structure Open where
  option : ValueOption
  value : Option String
  deriving DecidableEq, Repr

/-- The arguments once an open option is done. -/
def close (args : Arguments) : Option Open → Except ArgumentError Arguments
  | none => .ok args
  | some ⟨_, none⟩ => .error .missingValue
  | some ⟨option, some text⟩ => args.give option text

/-- Two dashes, a name, and the value behind an equals sign, if there is one. -/
def splitLong (text : List Char) : String × Option String :=
  match text.dropWhile (· ≠ '=') with
  | _ :: value => (String.ofList (text.takeWhile (· ≠ '=')), some (String.ofList value))
  | [] => (String.ofList text, none)

/-- The arguments after an argument with two dashes, and the option that it opens. -/
def long (args : Arguments) (opened : Option Open) (text : List Char) :
    Except ArgumentError (Arguments × Option Open) :=
  let (name, value) := splitLong text
  match LongName.ofName? name, value with
  | none, _ => .error .unknown
  | some (.option option), some value => do
    return (← (← args.close opened).give option value, none)
  | some (.option option), none => do return (← args.close opened, some ⟨option, none⟩)
  | some _, some _ => .error .unwantedValue
  | some .foveation, none => do
    let args ← args.close opened
    if args.foveation then .error .repeated else return ({ args with foveation := true }, none)
  | some .verbose, none => do
    let args ← args.close opened
    if args.verbose then .error .repeated else return ({ args with verbose := true }, none)
  | some .help, none => do
    let _ ← args.close opened
    .error .help

/-- The arguments after one argument, and the option that is open then. -/
def step (args : Arguments) (opened : Option Open) (text : String) :
    Except ArgumentError (Arguments × Option Open) :=
  match text.toList with
  | '-' :: '-' :: rest => args.long opened rest
  | '-' :: 'h' :: _ => do
    let _ ← args.close opened
    .error .help
  | '-' :: _ :: _ => .error .unknown
  | _ =>
    match opened with
    | some ⟨option, none⟩ => .ok (args, some ⟨option, some text⟩)
    | _ => .error .unknown

/-- Reads arguments one after the other. Nothing may follow two dashes alone. -/
def read (args : Arguments) (opened : Option Open) : List String → Except ArgumentError Arguments
  | [] => args.close opened
  | "--" :: [] => args.close opened
  | "--" :: _ => .error .unknown
  | text :: rest => do
    let (args, opened) ← args.step opened text
    args.read opened rest

/-- The arguments with what the environment gives for options that were not given. -/
def within (args : Arguments) (env : Environment) : Except ArgumentError Arguments := do
  let config ← match args.config with
    | some config => pure (some config)
    | none => env.config.mapM path
  return { args with config, backend := args.backend.or env.backend }

/-- Reads a command line. -/
def ofList (arguments : List String) (env : Environment) : Except ArgumentError Arguments := do
  (← read {} none arguments).within env

/-- Seconds to play if none are given. -/
def standardDuration : Nat := 5

/-- Seconds to play. -/
def duration (args : Arguments) : Nat := args.durationSecs.getD standardDuration

/-- The lines that help consists of. -/
def usage : List String :=
  ["Usage: wavry-xr-client [OPTIONS]",
    "",
    "Options:",
    "      --config <CONFIG>                JSON client configuration [env: WAVRY_XR_CONFIG=]",
    "      --codec <CODEC>                  Override the configured codec (h264 or hevc)",
    "      --backend <BACKEND>              Decoder backend (loopback or gstreamer) " ++
      "[env: WAVRY_XR_BACKEND=]",
    "      --duration-secs <DURATION_SECS>  Seconds of synthetic stream to play [default: 5]",
    "      --drop-every <DROP_EVERY>        Drop every Nth video packet to exercise IDR " ++
      "recovery (0 disables) [default: 0]",
    "      --foveation                      Enable foveated decode with the configured ratios",
    "      --verbose",
    "  -h, --help                           Print help"]

/-- Of how many packets one is dropped; zero drops none. -/
def dropInterval (args : Arguments) : Nat := args.dropEvery.getD 0

end Arguments

end HeadsetStream.Command
