import HeadsetStream.Notice
import HeadsetStream.Signal.PoseFilter
import HeadsetStream.Tracking.Schedule

/-!
# Sampling the headset

The sampler reads the headset at a fixed period. As long as a server is connected it sends the
headset's view when that has changed, and a tracking sample each time, with the poses of head and
hands filtered. The controls are read whether or not anyone is connected. Times are in nanoseconds.
-/

namespace HeadsetStream.Tracking
open HeadsetStream.Geometry Signal Number

/-- What the headset has to be read: its view, and a tracking sample with or without prediction. -/
structure Sensors where
  view : Option EyeInfo
  tracking : (prediction : Bool) → Option TrackingInfo

/-- The least change of a view, in meters or radians, that is sent. -/
def viewThreshold : Float32 := 0.01

/-- The shortest time between samples, in seconds, that the filters are told. -/
def leastInterval : Float32 := 1e-4

/-- The filters of all tracked devices, and when they had their last sample. -/
structure DeviceFilters where
  head : PoseFilter := {}
  leftHand : PoseFilter := {}
  rightHand : PoseFilter := {}
  lastSample : Option Nat := none
  deriving Repr, Inhabited

/-- The seconds from one time to a later one. -/
def secondsBetween (earlier later : Nat) : Float32 :=
  let ns := later - earlier
  Float32.ofNat (ns / nanosPerSecond) + Float32.ofNat (ns % nanosPerSecond) / 1e9

/-- The interval that a sample is filtered with. -/
def sampleInterval (last : Option Nat) (now : Nat) : Float32 :=
  match last with
  | some last => Single.atLeast leastInterval (secondsBetween last now)
  | none => leastInterval

/-- A hand's filtered pose. A hand that is not tracked is forgotten, so that it is not drawn towards
where it was once it comes back. -/
def filterHand (params : PoseFilterParams) (dt : Float32) (filter : PoseFilter) :
    Option Pose → Option Pose × PoseFilter
  | some pose =>
    let (pose, filter) := filter.step params dt pose
    (some pose, filter)
  | none => (none, .empty)

/-- A tracking sample with its poses filtered, and the filters after it. -/
def DeviceFilters.step (params : PoseFilterParams) (filters : DeviceFilters) (now : Nat)
    (info : TrackingInfo) : TrackingInfo × DeviceFilters :=
  let dt := sampleInterval filters.lastSample now
  let (head, headFilter) := filters.head.step params dt info.head
  let (leftHand, leftFilter) := filterHand params dt filters.leftHand info.leftHand
  let (rightHand, rightFilter) := filterHand params dt filters.rightHand info.rightHand
  ({ info with head, leftHand, rightHand }, ⟨headFilter, leftFilter, rightFilter, some now⟩)

structure Sampler where
  params : PoseFilterParams := {}
  /-- Microseconds between samples. -/
  period : Nat
  connected : Bool := false
  /-- Whether samples look ahead. -/
  prediction : Bool := false
  /-- The view that was sent last on this connection. -/
  lastView : EyeInfo := .zero
  filters : DeviceFilters := {}
  /-- When the next sample is due; none while the sampler is stopped. -/
  wake : Option Nat := none
  deriving Repr, Inhabited

namespace Sampler

/-- The display rate that is assumed before any is known. -/
def standardRate : Float32 := 90

/-- A sampler that is not started yet. -/
def new (params : PoseFilterParams) : Sampler :=
  { params, period := samplePeriod standardRate }

/-- The sampler with a server connected or not. The view is sent anew; a connection that ends takes
the filters' history with it. -/
def setConnected (sampler : Sampler) (connected : Bool) : Sampler :=
  { sampler with
    connected
    lastView := .zero
    filters := if sampler.connected && !connected then {} else sampler.filters }

def setRate (sampler : Sampler) (rate : Float32) : Sampler :=
  { sampler with period := samplePeriod rate }

def stop (sampler : Sampler) : Sampler := { sampler with connected := false, wake := none }

/-- Starts afresh, with the first sample due now. -/
def start (sampler : Sampler) (now : Nat) : Sampler := { sampler.stop with wake := some now }

/-- Sends the view if it is not the one sent last. -/
def sendView (sampler : Sampler) (view : Option EyeInfo) : Outcome Sampler :=
  match view with
  | some view =>
    if sampler.connected && view.differsFrom sampler.lastView viewThreshold then do
      .say (.view view)
      return { sampler with lastView := view }
    else return sampler
  | none => return sampler

/-- Takes one sample. -/
def sample (sampler : Sampler) (now : Nat) (sensors : Sensors) : Outcome Sampler := do
  let sampler ← sampler.sendView sensors.view
  .say .poll
  if sampler.connected then
    .say (.sample sampler.prediction)
    match sensors.tracking sampler.prediction with
    | some info =>
      let (info, filters) := sampler.filters.step sampler.params now info
      .say (.tracking info)
      return { sampler with filters }
    | none => return sampler
  else return sampler

/-- The sampler once it has slept until its next wake time is set, and how long it will sleep; it
does not sleep while it is stopped. -/
def sleep (sampler : Sampler) (now : Nat) : Option Nat × Sampler :=
  match sampler.wake with
  | some due =>
    let period := sampler.period * 1000
    let wake := nextWake (due + period) now period
    (some (wake - now), { sampler with wake := some wake })
  | none => (none, sampler)

/-- Takes a sample and says how long the sampler sleeps then; nothing if it is stopped. -/
def tick (sampler : Sampler) (now : Nat) (sensors : Sensors) : Outcome (Option Nat × Sampler) :=
  if sampler.wake.isSome then return (← sampler.sample now sensors).sleep now
  else return (none, sampler)

end Sampler

end HeadsetStream.Tracking
