/-!
# What can go wrong in a decoder
-/

namespace HeadsetStream.Decoder

inductive DecoderError where
  | configuration (reason : String)
  | codec (code : Int) (context : String)
  | surfaceUnavailable
  | sessionStopped
  | unknownBuffer (id : Nat)
  deriving DecidableEq, Repr, Inhabited

def DecoderError.message : DecoderError → String
  | .configuration reason => "invalid decoder configuration: " ++ reason
  | .codec code context => s!"codec error {code}: {context}"
  | .surfaceUnavailable => "display surface unavailable"
  | .sessionStopped => "decoder session stopped"
  | .unknownBuffer id => s!"unknown buffer id {id}"

end HeadsetStream.Decoder
