import HeadsetStream.Foveation.Layout

/-!
# Undoing foveation

The renderer asks, for a place on the display, where to look in the squeezed frame. Along each axis
the display is a parabola of the squeezed position left of the center, a straight line inside it and
a parabola right of it. `AxisWarp.of` has the coefficients of the three pieces; the renderer is to
solve the parabolas for the squeezed position:

* left edge: `(-b_left + sqrt(b_left^2 + 4 * a_left * x)) / (2 * a_left)`
* right edge: `(-b_right + sqrt(b_right^2 + 4 * (c_right - a_right * x))) / (2 * a_right)`

So the formulas are given with the coefficients. The second does not solve its parabola, which would
take `b_right^2 - 4 * (c_right - a_right * x)`.
-/

namespace HeadsetStream.Foveation
open Number HeadsetStream.Geometry

/-- Coefficients along one axis. `loBound` and `hiBound` are the edges of the center on the
display; inside it the display is `c1 + c2 * y / edgeRatio`. -/
structure AxisWarp (α : Type) where
  c1 : α
  c2 : α
  loBound : α
  hiBound : α
  aLeft : α
  bLeft : α
  aRight : α
  bRight : α
  cRight : α
  deriving DecidableEq, Repr, Inhabited

/-- The coefficients for an aligned center and an edge ratio. -/
def AxisWarp.of {α : Type} [Scalar α] (centerSize centerShift edgeRatio : α) : AxisWarp α :=
  let er := edgeRatio
  let c0 := (1 - centerSize) / 2
  let c1 := (er - 1) * c0 * (centerShift + 1) / er
  let c2 := (er - 1) * centerSize + 1
  let loSqueezed := c0 * (centerShift + 1) / c2
  let hiSqueezed := c0 * (centerShift - 1) / c2 + 1
  let hiRest := 1 - hiSqueezed
  { c1
    c2
    loBound := c0 * (centerShift + 1)
    hiBound := c0 * (centerShift - 1) + 1
    aLeft := c2 * (1 - er) / (er * loSqueezed)
    bLeft := (c1 + c2 * loSqueezed) / loSqueezed
    aRight := c2 * (er - 1) / (er * hiRest)
    bRight := (c2 - er * c1 - 2 * er * c2 + c2 * er * hiRest + er) / (er * hiRest)
    cRight := (c2 * er - c2) * (c1 - hiSqueezed + c2 * hiSqueezed) / (er * hiRest * hiRest) }

/-- What the renderer needs to undo foveation along both axes. -/
structure DecodeParams (α : Type) where
  sizeRatio : Vec2 α
  edgeRatio : Vec2 α
  x : AxisWarp α
  y : AxisWarp α
  deriving DecidableEq, Repr, Inhabited

namespace DecodeParams

def ofLayout {α : Type} [Scalar α] (layout : Layout α) : DecodeParams α where
  sizeRatio := layout.sizeRatio
  edgeRatio := layout.edgeRatio
  x := .of layout.centerSize.x layout.centerShift.x layout.edgeRatio.x
  y := .of layout.centerSize.y layout.centerShift.y layout.edgeRatio.y

/-- The parameters for a frame of `target` pixels. -/
def of {α β : Type} [Precise α β] (target : Vec2 α) (config : Config α) : DecodeParams α :=
  ofLayout (.of target config)

/-- One coefficient along both axes. -/
def both {α : Type} (params : DecodeParams α) (coefficient : AxisWarp α → α) : Vec2 α :=
  ⟨coefficient params.x, coefficient params.y⟩

end DecodeParams

end HeadsetStream.Foveation
