import HeadsetStream.Foveation.Layout
import HeadsetStream.Number.Decimal
import HeadsetStream.Number.Single

/-!
# Settings for the picture

The size of an eye's picture, how often it is shown, and how it is foveated. `RenderSettings.check`
accepts sizes and rates above zero and foveation with each of its numbers inside an open range.
-/

namespace HeadsetStream.Settings
open Number HeadsetStream.Geometry

/-- The foveation of an eye's picture when none is asked for. -/
def standardFoveation : Foveation.Config Float32 :=
  ⟨⟨0.4, 0.35⟩, ⟨0.4, 0.1⟩, ⟨4, 5⟩⟩

structure RenderSettings where
  eyeWidth : Nat := 1440
  eyeHeight : Nat := 1584
  refreshRate : Float32 := 90
  foveation : Option (Foveation.Config Float32) := none
  deriving DecidableEq, Repr, Inhabited

/-- What is wrong with settings for the picture. -/
inductive RenderError where
  | emptyEye (width height : Nat)
  | refreshRate (rate : Float32)
  | centerSize (size : Vec2 Float32)
  | centerShift (shift : Vec2 Float32)
  | edgeRatio (ratio : Vec2 Float32)
  deriving DecidableEq, Repr

namespace RenderError

/-- A vector as messages write it. -/
def vectorText (v : Vec2 Float32) : String :=
  "[" ++ shortestText v.x ++ ", " ++ shortestText v.y ++ "]"

def cause : RenderError → String
  | .emptyEye width height => s!"eye size {width}x{height} must be non-zero"
  | .refreshRate rate => "refresh rate " ++ shortestText rate ++ " must be positive"
  | .centerSize size => "foveation center size " ++ vectorText size ++ " must be in (0, 1)"
  | .centerShift shift => "foveation center shift " ++ vectorText shift ++ " must be in (-1, 1)"
  | .edgeRatio ratio =>
    "foveation edge ratio " ++ vectorText ratio ++ " must be greater than 1"

def message (error : RenderError) : String := "invalid configuration: " ++ error.cause

end RenderError

/-- Whether a center size is a proper share of the frame. -/
def isCenterSize (size : Float32) : Bool := size.isFinite && 0 < size && size < 1

/-- Whether a center shift stays inside the edges. -/
def isCenterShift (shift : Float32) : Bool := shift.isFinite && shift.abs < 1

/-- Whether an edge ratio squeezes. -/
def isEdgeRatio (ratio : Float32) : Bool := ratio.isFinite && 1 < ratio

/-- Accepts foveation, or names the first of its numbers that is out of range. -/
def checkFoveation (config : Foveation.Config Float32) : Except RenderError Unit :=
  if !config.centerSize.all isCenterSize then .error (.centerSize config.centerSize)
  else if !config.centerShift.all isCenterShift then .error (.centerShift config.centerShift)
  else if !config.edgeRatio.all isEdgeRatio then .error (.edgeRatio config.edgeRatio)
  else .ok ()

/-- Accepts settings, or says what is wrong with them first. -/
def RenderSettings.check (render : RenderSettings) : Except RenderError Unit :=
  if render.eyeWidth = 0 ∨ render.eyeHeight = 0 then
    .error (.emptyEye render.eyeWidth render.eyeHeight)
  else if !(0 < render.refreshRate : Bool) then .error (.refreshRate render.refreshRate)
  else match render.foveation with
    | some config => checkFoveation config
    | none => .ok ()

/-- The pixels of an eye's picture. -/
def RenderSettings.eyeSize (render : RenderSettings) : Vec2 Float32 :=
  ⟨Float32.ofNat render.eyeWidth, Float32.ofNat render.eyeHeight⟩

end HeadsetStream.Settings
