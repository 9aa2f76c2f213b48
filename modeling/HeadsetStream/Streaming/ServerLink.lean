import HeadsetStream.Notice

/-!
# The way to the server

Messages to the server wait in a queue of fixed size until they are fetched. A message that finds
the queue full, or no one left to fetch it, is dropped. Beside the queue stands the mark that a
keyframe is asked for and not yet here.
-/

namespace HeadsetStream.Streaming
open HeadsetStream.Geometry

inductive Message where
  | tracking (info : TrackingInfo)
  | view (eyes : EyeInfo)
  | timeSync (sync : Wire.TimeSync)
  | requestKeyframe
  deriving DecidableEq, Repr

/-- The message that a notice to the server is. -/
def Message.ofNotice? : Notice → Option Message
  | .tracking info => some (.tracking info)
  | .view eyes => some (.view eyes)
  | .timeSync sync => some (.timeSync sync)
  | .requestKeyframe => some .requestKeyframe
  | _ => none

structure ServerLink where
  capacity : Nat
  /-- What is still to be fetched, oldest first. -/
  queue : List Message := []
  closed : Bool := false
  /-- Whether a keyframe is asked for and not yet here. -/
  waiting : Bool := false
  deriving DecidableEq, Repr

namespace ServerLink

/-- The link with one more message in its queue, if there is room. -/
def send (link : ServerLink) (message : Message) : ServerLink :=
  if link.closed || link.capacity ≤ link.queue.length then link
  else { link with queue := link.queue ++ [message] }

/-- The link once a notice was given. -/
def observe (link : ServerLink) : Notice → ServerLink
  | .waiting value => { link with waiting := value }
  | notice =>
    match Message.ofNotice? notice with
    | some message => link.send message
    | none => link

/-- The link once all of these notices were given. -/
def observeAll (link : ServerLink) (notices : List Notice) : ServerLink :=
  notices.foldl observe link

/-- Fetches all messages. -/
def fetch (link : ServerLink) : List Message × ServerLink :=
  (link.queue, { link with queue := [] })

/-- No one will fetch messages any more. -/
def close (link : ServerLink) : ServerLink := { link with queue := [], closed := true }

@[simp] theorem waiting_send (link : ServerLink) (message : Message) :
    (link.send message).waiting = link.waiting := by
  unfold send
  split <;> rfl

end ServerLink

end HeadsetStream.Streaming
