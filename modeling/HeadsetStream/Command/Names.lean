import HeadsetStream.Settings.Client

/-!
# Names on the command line

Codecs and decoders are named as in the settings, in letters of either case.
-/

namespace HeadsetStream.Command
open Settings

/-- A name that nothing has, as it was given. -/
inductive NameError where
  | codec (name : String)
  | backend (name : String)
  deriving DecidableEq, Repr

def NameError.message : NameError → String
  | .codec name => "unknown codec " ++ name
  | .backend name => "unknown backend " ++ name

/-- The codec of a name. -/
def codecNamed (name : String) : Except NameError Bitstream.Codec :=
  match Bitstream.Codec.ofName? name.toLower with
  | some codec => .ok codec
  | none => .error (.codec name)

/-- The decoder of a name. -/
def backendNamed (name : String) : Except NameError Backend :=
  match Backend.ofName? name.toLower with
  | some backend => .ok backend
  | none => .error (.backend name)

end HeadsetStream.Command
