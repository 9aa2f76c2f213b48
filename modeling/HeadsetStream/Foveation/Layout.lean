import HeadsetStream.Geometry.Vector

/-!
# Layout of a foveated frame

A foveated frame keeps its center at full resolution and squeezes its edges by the edge ratio. Along
each axis the edges are widened until they are a whole number of steps, two pixels of the squeezed
edge each, the center's shift likewise, and the squeezed size is rounded up to whole blocks of the
encoder. The alignment is worked out in the wide scalar so that it agrees with the encoder's.
-/

namespace HeadsetStream.Foveation
open Number HeadsetStream.Geometry

/-- What is asked for: the center's share of the frame, its shift as a share of the edges, and how
much the edges are squeezed. -/
structure Config (α : Type) where
  centerSize : Vec2 α
  centerShift : Vec2 α
  edgeRatio : Vec2 α
  deriving DecidableEq, Repr, Inhabited

/-- The encoder's block size in pixels. -/
def blockSize : Nat := 32

/-- The layout along one axis: the aligned center size and shift, the encoded size in pixels, and
the share of it that carries the picture. -/
structure AxisLayout (α : Type) where
  sizeRatio : α
  centerSize : α
  centerShift : α
  encodedSize : Nat
  deriving DecidableEq, Repr, Inhabited

section

variable {α β : Type} [Precise α β]

/-- The least multiple of `step` not below `x`. -/
def alignUp (step : β) (x : α) : β :=
  Precise.ceil α (Precise.widen x / step) * step

/-- The center's share of `target` pixels once the edges are aligned to `step`. -/
def alignedCenter (step : β) (target centerSize : α) : α :=
  let edge : α := target - centerSize * target
  Precise.narrow (1 - alignUp step edge / Precise.widen target)

/-- The center's shift as a share of `edge` pixels, aligned to `step`. -/
def alignedShift (step : β) (edge centerShift : α) : α :=
  Precise.narrow (alignUp step (centerShift * edge) / Precise.widen edge)

/-- The layout along an axis of `target` pixels. The encoded size is counted in full, also where 32
bits would not hold it, which takes more than `2 ^ 32` pixels. -/
def AxisLayout.of (target centerSize centerShift edgeRatio : α) : AxisLayout α :=
  let step : β := Precise.widen edgeRatio * 2
  let center := alignedCenter step target centerSize
  let edge := target - center * target
  let shift := alignedShift step edge centerShift
  let squeezed := (center + (1 - center) / edgeRatio) * target
  let encoded := Precise.ceilNat (squeezed / (blockSize : α)) * blockSize
  ⟨squeezed / (encoded : α), center, shift, encoded⟩

end

/-- The layout of a frame along both axes. -/
structure Layout (α : Type) where
  sizeRatio : Vec2 α
  centerSize : Vec2 α
  centerShift : Vec2 α
  edgeRatio : Vec2 α
  encodedSize : Vec2 Nat
  deriving DecidableEq, Repr, Inhabited

/-- The layout of a frame of `target` pixels. -/
def Layout.of {α β : Type} [Precise α β] (target : Vec2 α) (config : Config α) : Layout α :=
  let x := AxisLayout.of target.x config.centerSize.x config.centerShift.x config.edgeRatio.x
  let y := AxisLayout.of target.y config.centerSize.y config.centerShift.y config.edgeRatio.y
  { sizeRatio := ⟨x.sizeRatio, y.sizeRatio⟩
    centerSize := ⟨x.centerSize, y.centerSize⟩
    centerShift := ⟨x.centerShift, y.centerShift⟩
    edgeRatio := config.edgeRatio
    encodedSize := ⟨x.encodedSize, y.encodedSize⟩ }

end HeadsetStream.Foveation
