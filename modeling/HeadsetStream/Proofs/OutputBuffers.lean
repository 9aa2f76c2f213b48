import HeadsetStream.Decoder.Simulated
import Mathlib.Data.List.Induction
import Mathlib.Data.List.Nodup

/-!
# The output buffers of a session

A session hands its output buffers out in order and takes each back at most once. So a buffer that
was handed out is either still pending or was released, and never both; what is not pending cannot
be released. In loopback the images that a session presents are those of the buffers that were
released to be shown, each with the timestamp that its buffer was handed out for: that many thousand
nanoseconds. What an image shows for a timestamp of which the nanoseconds do not fit 64 bits is left
open.
-/

namespace HeadsetStream.Decoder
open Video

/-- What is asked of a session. -/
inductive SessionCall where
  | complete (pts : Nat)
  | submit (buffer : Nat) (data : Bytes) (pts : Nat) (flags : BufferFlags)
  | release (buffer : Nat) (render : Bool)
  | stop
  deriving DecidableEq, Repr

/-- The timestamp of the picture that is decoded if the call is taken. -/
def SessionCall.time? (mode : SimulatedMode) : SessionCall → Option Nat
  | .complete pts => some pts
  | .submit _ _ pts flags =>
    if mode = .loopback ∧ flags.configuration = false then some pts else none
  | .release .. | .stop => none

/-- The output buffer that is released if the call is taken, and whether to be shown. -/
def SessionCall.released? : SessionCall → Option (Nat × Bool)
  | .release buffer render => some (buffer, render)
  | .complete _ | .submit .. | .stop => none

/-- What came of a call. -/
structure CallRecord where
  call : SessionCall
  result : Except DecoderError Unit := .ok ()
  /-- The output buffers that were handed out, with their timestamps. -/
  outputs : List (Nat × Nat) := []
  /-- The images that were presented. -/
  images : List SurfaceImage := []

/-- The calls that did not fail. -/
def takenCalls (records : List CallRecord) : List SessionCall :=
  (records.filter (·.result.isOk)).map (·.call)

/-- The timestamps that output buffers were handed out for, oldest first. -/
def outputTimes (mode : SimulatedMode) (records : List CallRecord) : List Nat :=
  (takenCalls records).filterMap (·.time? mode)

/-- The output buffers among reports. -/
def outputsOf (reports : List Callback) : List (Nat × Nat) :=
  reports.filterMap fun
    | .event (.output buffer pts) => some (buffer, pts)
    | _ => none

namespace SimulatedSession

def pendingBuffers (session : SimulatedSession) : List Nat := session.pending.map (·.1)

def releasedBuffers (session : SimulatedSession) : List Nat := session.released.toList.map (·.1)

/-- The buffers that were released to be shown. -/
def shownBuffers (session : SimulatedSession) : List Nat :=
  (session.released.toList.filter (·.2)).map (·.1)

def perform (session : SimulatedSession) (call : SessionCall) : SimulatedSession × CallRecord :=
  match call with
  | .complete pts =>
    let reply := (session.complete pts).2
    (reply.session, { call, result := reply.result, outputs := outputsOf reply.reports })
  | .submit buffer data pts flags =>
    let reply := session.submit buffer data pts flags
    (reply.session, { call, result := reply.result, outputs := outputsOf reply.reports })
  | .release buffer render =>
    let reply := session.release buffer render
    (reply.session, { call, result := reply.result, images := reply.reports })
  | .stop => (Engine.stop SimulatedEngine session, { call })

def run (session : SimulatedSession) (calls : List SessionCall) :
    SimulatedSession × List CallRecord :=
  calls.foldl (fun (session, records) call =>
    let (session, record) := session.perform call
    (session, records ++ [record])) (session, [])

@[simp] theorem run_concat (session : SimulatedSession) (calls : List SessionCall)
    (call : SessionCall) :
    session.run (calls ++ [call]) =
      (((session.run calls).1.perform call).1,
        (session.run calls).2 ++ [((session.run calls).1.perform call).2]) := by
  simp [run]

variable {session later : SimulatedSession} {buffer : Nat}

private theorem shownBuffers_of_push {render : Bool}
    (h : later.released = session.released.push (buffer, render)) :
    later.shownBuffers = session.shownBuffers ++ if render then [buffer] else [] := by
  cases render <;> simp [shownBuffers, h]

/-- The buffer that is answered is the one that is reported. -/
private theorem outputsOf_complete (session : SimulatedSession) (pts : Nat) :
    outputsOf (session.complete pts).2.reports = [((session.complete pts).1, pts)] := by
  cases hformat : session.formatReported <;> simp [complete, outputsOf, hformat]

private theorem submit_of_stopped (h : session.stopped = true) (buffer : Nat) (data : Bytes)
    (pts : Nat) (flags : BufferFlags) :
    session.submit buffer data pts flags = { session, result := .error .sessionStopped } := by
  simp [submit, h]

/-- In loopback each picture that is submitted is decoded at once. -/
private theorem submit_of_live (h : session.stopped = false) (buffer : Nat) (data : Bytes)
    (pts : Nat) (flags : BufferFlags) :
    let kept := { session with submitted := session.submitted.push ⟨buffer, data, pts, flags⟩ }
    let reply := session.submit buffer data pts flags
    reply.result = .ok () ∧
      if session.mode = .loopback ∧ flags.configuration = false then
        reply.session = (kept.complete pts).2.session ∧
          outputsOf reply.reports = [(session.nextOutput, pts)]
      else reply.session = kept ∧ outputsOf reply.reports = [] := by
  cases hmode : session.mode <;> cases hflags : flags.configuration <;>
    cases hformat : session.formatReported <;>
    simp [submit, complete, outputsOf, h, hmode, hflags, hformat]

theorem release_of_stopped (h : session.stopped = true) (buffer : Nat) (render : Bool) :
    session.release buffer render = { session, result := .error .sessionStopped } := by
  simp [release, h]

theorem release_of_not_pending (h : session.stopped = false)
    (hbuffer : buffer ∉ session.pendingBuffers) (render : Bool) :
    session.release buffer render = { session, result := .error (.unknownBuffer buffer) } := by
  have hnone : session.pending.lookup buffer = none := by
    rw [List.lookup_eq_none_iff]
    rintro ⟨other, pts⟩ hmem
    have hne : buffer ≠ other := by
      rintro rfl
      exact hbuffer (List.mem_map_of_mem hmem)
    simpa using hne
  simp [release, h, hnone]

/-- A pending buffer is released, with the timestamp that it is pending with. -/
theorem release_of_pending (h : session.stopped = false)
    (hbuffer : buffer ∈ session.pendingBuffers) (render : Bool) :
    ∃ pts, (buffer, pts) ∈ session.pending ∧
      session.release buffer render =
        { session :=
            { session with
              pending := session.pending.filter (·.1 ≠ buffer)
              released := session.released.push (buffer, render) }
          reports := if session.mode = .loopback && render then [imageAt pts] else [] } := by
  cases hlookup : session.pending.lookup buffer with
  | none =>
    rw [List.lookup_eq_none_iff] at hlookup
    obtain ⟨entry, hmem, rfl⟩ := List.mem_map.mp hbuffer
    exact absurd (hlookup entry hmem) (by simp)
  | some pts =>
    obtain ⟨first, rest, hpending, -⟩ := List.lookup_eq_some_iff.mp hlookup
    refine ⟨pts, by simp [hpending], ?_⟩
    simp [release, h, hlookup]

end SimulatedSession

section

variable {mode : SimulatedMode} {calls : List SessionCall} {records : List CallRecord}
  {session : SimulatedSession} {call : SessionCall} {pts : Nat}

theorem filterMap_takenCalls_concat {α : Type} (f : SessionCall → Option α)
    (records : List CallRecord) (record : CallRecord) :
    (takenCalls (records ++ [record])).filterMap f = (takenCalls records).filterMap f ++
      if record.result.isOk then (f record.call).toList else [] := by
  cases htaken : record.result.isOk <;> cases hf : f record.call <;>
    simp [takenCalls, htaken, hf]

theorem outputTimes_concat (mode : SimulatedMode) (records : List CallRecord)
    (record : CallRecord) :
    outputTimes mode (records ++ [record]) = outputTimes mode records ++
      if record.result.isOk then (record.call.time? mode).toList else [] :=
  filterMap_takenCalls_concat ..

/-- The image has this timestamp, if its nanoseconds fit 64 bits. -/
def StampedAt (pts : Nat) (image : SurfaceImage) : Prop :=
  pts * 1000 < 0x10000000000000000 → image.timestampNs = pts * 1000 ∧ image.pts = pts

private theorem stampedAt_imageAt (pts : Nat) : StampedAt pts (SimulatedSession.imageAt pts) :=
  fun _ => ⟨rfl, Nat.mul_div_cancel pts (by decide)⟩

/-- What is moved from the one list to the other stays among them. -/
private theorem perm_of_moved {pending released all : List Nat} {buffer : Nat}
    (h : (pending ++ released).Perm all) (hall : all.Nodup) (hbuffer : buffer ∈ pending) :
    (pending.filter (· ≠ buffer) ++ (released ++ [buffer])).Perm all := by
  have hnodup : pending.Nodup := (h.nodup_iff.mpr hall).of_append_left
  have herase : pending.filter (· ≠ buffer) = pending.erase buffer := by
    simp [hnodup.erase_eq_filter, bne, beq_eq_decide]
  have hmoved : (pending.erase buffer ++ released ++ [buffer]).Perm
      (buffer :: pending.erase buffer ++ released) := List.perm_append_singleton ..
  have hback : (buffer :: pending.erase buffer ++ released).Perm (pending ++ released) :=
    (List.perm_cons_erase hbuffer).symm.append_right released
  rw [herase, ← List.append_assoc]
  exact (hmoved.trans hback).trans h

/-- The session and the records of these calls account for every output buffer. -/
structure Accounts (mode : SimulatedMode) (calls : List SessionCall) (records : List CallRecord)
    (session : SimulatedSession) : Prop where
  recorded : records.map (·.call) = calls
  mode_eq : session.mode = mode
  stopped_iff : session.stopped = true ↔ .stop ∈ calls
  next : session.nextOutput = (outputTimes mode records).length
  /-- The buffers that were handed out are numbered from zero, one for each picture and with its
  timestamp. -/
  issued : records.flatMap (·.outputs) =
    (List.range (outputTimes mode records).length).zip (outputTimes mode records)
  pending : ∀ entry ∈ session.pending, (outputTimes mode records)[entry.1]? = some entry.2
  /-- The buffers that were handed out are shared out between the two lists, which hold no others.
  -/
  shared : (session.pendingBuffers ++ session.releasedBuffers).Perm
    (List.range session.nextOutput)
  /-- Released is what was asked for and not refused. -/
  released : session.released.toList = (takenCalls records).filterMap SessionCall.released?
  /-- In loopback each buffer that was released to be shown gave one image, with the timestamp that
  the buffer was handed out for. -/
  shown : List.Forall₂
    (fun buffer image => ∃ pts, (outputTimes mode records)[buffer]? = some pts ∧
      StampedAt pts image)
    (if mode = .loopback then session.shownBuffers else []) (records.flatMap (·.images))

namespace Accounts

theorem opened (mode : SimulatedMode) (inputBuffers : Nat) (format : MediaFormat) :
    Accounts mode [] [] { mode, inputBuffers, format } where
  recorded := rfl
  mode_eq := rfl
  stopped_iff := by simp
  next := rfl
  issued := rfl
  pending _ hmem := absurd hmem List.not_mem_nil
  shared := .nil
  released := rfl
  shown := by cases mode <;> exact .nil

/-- A call that hands out no buffer and releases none. -/
theorem keep (h : Accounts mode calls records session) {result : Except DecoderError Unit}
    {stopped : Bool} (submitted : Array Submission)
    (hidle : result.isOk = true → call.time? mode = none ∧ call.released? = none)
    (hstopped : stopped = true ↔ session.stopped = true ∨ call = .stop) :
    Accounts mode (calls ++ [call]) (records ++ [⟨call, result, [], []⟩])
      { session with submitted, stopped } := by
  have htimes : outputTimes mode (records ++ [⟨call, result, [], []⟩]) =
      outputTimes mode records := by
    cases hok : result.isOk <;> simp [outputTimes_concat, hok, hidle]
  refine ⟨?_, h.mode_eq, ?_, ?_, ?_, ?_, h.shared, ?_, ?_⟩
  · simp [h.recorded]
  · simp [hstopped, h.stopped_iff, eq_comm]
  · rw [htimes]
    exact h.next
  · rw [htimes, List.flatMap_append, List.flatMap_singleton, List.append_nil]
    exact h.issued
  · rw [htimes]
    exact h.pending
  · rw [filterMap_takenCalls_concat, ← h.released]
    cases hok : result.isOk <;> simp [hidle, hok]
  · rw [htimes, List.flatMap_append, List.flatMap_singleton, List.append_nil]
    exact h.shown

/-- A call that has a picture decoded. -/
theorem issue (h : Accounts mode calls records session) (htime : call.time? mode = some pts)
    (submitted : Array Submission) (formatReported : Bool) :
    Accounts mode (calls ++ [call])
      (records ++ [⟨call, .ok (), [(session.nextOutput, pts)], []⟩])
      { session with
        submitted, formatReported
        nextOutput := session.nextOutput + 1
        pending := (session.nextOutput, pts) :: session.pending } := by
  have hinert : call.released? = none ∧ call ≠ .stop := by
    cases call <;> simp_all [SessionCall.time?, SessionCall.released?]
  have htimes : outputTimes mode
      (records ++ [⟨call, .ok (), [(session.nextOutput, pts)], []⟩]) =
        outputTimes mode records ++ [pts] := by
    simp [outputTimes_concat, htime, Except.isOk, Except.toBool]
  -- Timestamps are added at the end only, so each buffer keeps the one that it was handed out for.
  have hlater {buffer time : Nat} (hbuffer : (outputTimes mode records)[buffer]? = some time) :
      (outputTimes mode records ++ [pts])[buffer]? = some time := by
    obtain ⟨hlt, -⟩ := List.getElem?_eq_some_iff.mp hbuffer
    rw [List.getElem?_append_left hlt, hbuffer]
  refine ⟨?_, h.mode_eq, ?_, ?_, ?_, ?_, ?_, ?_, ?_⟩
  · simp [h.recorded]
  · simp [h.stopped_iff, hinert.2.symm]
  · rw [htimes, List.length_append, h.next]
    rfl
  · rw [htimes, List.length_append, List.length_singleton, List.range_succ,
      List.zip_append List.length_range, List.flatMap_append, h.issued, h.next]
    rfl
  · rw [htimes]
    intro entry hmem
    rcases List.mem_cons.mp hmem with rfl | hmem
    · simp [h.next]
    · exact hlater (h.pending entry hmem)
  · rw [List.range_succ]
    exact (h.shared.cons session.nextOutput).trans (List.perm_append_singleton ..).symm
  · rw [filterMap_takenCalls_concat, ← h.released]
    simp [hinert.1]
  · rw [htimes, List.flatMap_append, List.flatMap_singleton, List.append_nil]
    exact h.shown.imp fun _ _ ⟨time, hbuffer, himage⟩ => ⟨time, hlater hbuffer, himage⟩

/-- A pending buffer is given back. -/
theorem release (h : Accounts mode calls records session) {buffer : Nat} {render : Bool}
    (hpending : (buffer, pts) ∈ session.pending) :
    Accounts mode (calls ++ [.release buffer render])
      (records ++ [⟨.release buffer render, .ok (), [],
        if session.mode = .loopback && render then [SimulatedSession.imageAt pts] else []⟩])
      { session with
        pending := session.pending.filter (·.1 ≠ buffer)
        released := session.released.push (buffer, render) } := by
  let record : CallRecord := ⟨.release buffer render, .ok (), [],
    if session.mode = .loopback && render then [SimulatedSession.imageAt pts] else []⟩
  have htimes : outputTimes mode (records ++ [record]) = outputTimes mode records := by
    simp [outputTimes_concat, record, SessionCall.time?]
  have hmem : buffer ∈ session.pendingBuffers := List.mem_map_of_mem hpending
  refine ⟨?_, h.mode_eq, ?_, ?_, ?_, ?_, ?_, ?_, ?_⟩
  · simp [h.recorded]
  · simp [h.stopped_iff]
  · exact htimes ▸ h.next
  · rw [htimes, List.flatMap_append, List.flatMap_singleton, List.append_nil]
    exact h.issued
  · rw [htimes]
    exact fun entry hentry => h.pending entry (List.mem_of_mem_filter hentry)
  · have hmoved := perm_of_moved h.shared List.nodup_range hmem
    rw [SimulatedSession.pendingBuffers, List.filter_map] at hmoved
    simpa [SimulatedSession.pendingBuffers, SimulatedSession.releasedBuffers,
      Function.comp_def] using hmoved
  · rw [filterMap_takenCalls_concat, ← h.released, Array.toList_push]
    rfl
  · rw [htimes, List.flatMap_append, List.flatMap_singleton,
      SimulatedSession.shownBuffers_of_push rfl, h.mode_eq]
    have hshown := h.shown
    cases mode with
    | manual => simpa using hshown
    | loopback =>
      cases render with
      | false => simpa using hshown
      | true =>
        exact List.rel_append hshown
          (.cons ⟨pts, h.pending _ hpending, stampedAt_imageAt pts⟩ .nil)

theorem perform (h : Accounts mode calls records session) (call : SessionCall) :
    Accounts mode (calls ++ [call]) (records ++ [(session.perform call).2])
      (session.perform call).1 := by
  cases call with
  | complete pts =>
    rw [SimulatedSession.perform, SimulatedSession.outputsOf_complete]
    exact h.issue rfl session.submitted true
  | submit buffer data pts flags =>
    cases hstopped : session.stopped with
    | true =>
      rw [SimulatedSession.perform, SimulatedSession.submit_of_stopped hstopped]
      exact h.keep session.submitted nofun (by simp)
    | false =>
      obtain ⟨hresult, hreply⟩ :=
        SimulatedSession.submit_of_live hstopped buffer data pts flags
      obtain rfl := h.mode_eq
      split at hreply
      · next hpicture =>
        have htime : (SessionCall.submit buffer data pts flags).time? session.mode = some pts :=
          if_pos hpicture
        rw [SimulatedSession.perform, hresult, hreply.1, hreply.2]
        exact h.issue htime _ true
      · next hquiet =>
        have htime : (SessionCall.submit buffer data pts flags).time? session.mode = none :=
          if_neg hquiet
        rw [SimulatedSession.perform, hresult, hreply.1, hreply.2]
        exact h.keep _ (fun _ => ⟨htime, rfl⟩) (by simp)
  | release buffer render =>
    cases hstopped : session.stopped with
    | true =>
      rw [SimulatedSession.perform, SimulatedSession.release_of_stopped hstopped]
      exact h.keep session.submitted nofun (by simp)
    | false =>
      by_cases hbuffer : buffer ∈ session.pendingBuffers
      · obtain ⟨pts, hpending, hrelease⟩ :=
          SimulatedSession.release_of_pending hstopped hbuffer render
        rw [SimulatedSession.perform, hrelease]
        exact h.release hpending
      · rw [SimulatedSession.perform,
          SimulatedSession.release_of_not_pending hstopped hbuffer]
        exact h.keep session.submitted nofun (by simp)
  | stop => exact h.keep session.submitted (fun _ => ⟨rfl, rfl⟩) (by simp)

/-- Every call keeps the accounts, so they are right after any number of calls. -/
theorem run (mode : SimulatedMode) (inputBuffers : Nat) (format : MediaFormat)
    (calls : List SessionCall) :
    let done := ({ mode, inputBuffers, format } : SimulatedSession).run calls
    Accounts mode calls done.2 done.1 := by
  induction calls using List.reverseRecOn with
  | nil => exact .opened mode inputBuffers format
  | append_singleton calls call ih =>
    rw [SimulatedSession.run_concat]
    exact ih.perform call

end Accounts

/-- What can be relied on once these calls were made: every output buffer is accounted for, and what
is pending can be released, but nothing else. -/
structure Conserved (mode : SimulatedMode) (calls : List SessionCall) (records : List CallRecord)
    (session : SimulatedSession) : Prop where
  accounts : Accounts mode calls records session
  /-- No buffer is in both lists, nor twice in one of them. -/
  once : (session.pendingBuffers ++ session.releasedBuffers).Nodup
  stopped : .stop ∈ calls → ∀ buffer render,
    session.release buffer render = { session, result := .error .sessionStopped }
  unknown : .stop ∉ calls → ∀ buffer render, buffer ∉ session.pendingBuffers →
    session.release buffer render = { session, result := .error (.unknownBuffer buffer) }
  taken : .stop ∉ calls → ∀ buffer render, buffer ∈ session.pendingBuffers →
    (session.release buffer render).result = .ok ()

/-- Whatever is asked of a session from its opening on, in loopback or by hand, its output buffers
are conserved. Only of an image's timestamp is it required that it fits 64 bits in nanoseconds. -/
theorem outputs_conserved (mode : SimulatedMode) (inputBuffers : Nat) (format : MediaFormat)
    (calls : List SessionCall) :
    let done := ({ mode, inputBuffers, format } : SimulatedSession).run calls
    Conserved mode calls done.2 done.1 := by
  have haccounts := Accounts.run mode inputBuffers format calls
  have hlive (hcalls : .stop ∉ calls) :=
    Bool.eq_false_iff.mpr (haccounts.stopped_iff.not.mpr hcalls)
  refine ⟨haccounts, haccounts.shared.nodup_iff.mpr List.nodup_range, ?_, ?_, ?_⟩
  · intro hcalls
    exact SimulatedSession.release_of_stopped (haccounts.stopped_iff.mpr hcalls)
  · intro hcalls buffer render hbuffer
    exact SimulatedSession.release_of_not_pending (hlive hcalls) hbuffer render
  · intro hcalls buffer render hbuffer
    obtain ⟨pts, -, hrelease⟩ :=
      SimulatedSession.release_of_pending (hlive hcalls) hbuffer render
    rw [hrelease]

/-- A session that is given one picture and told to decode another one. The second buffer is
released twice, and a third one is handed out after the stop. -/
def releaseTwice : List SessionCall :=
  [.submit 0 [1] 5 {}, .complete 9, .release 1 true, .release 1 true, .release 0 false, .stop,
    .complete 7, .release 2 true]

/-- A buffer is taken back once, and none after the stop. The one that is shown has its image. -/
theorem releaseTwice_conserved :
    let done := ({ mode := .loopback, inputBuffers := 1, format := .empty } : SimulatedSession).run
      releaseTwice
    done.1.pending = [(2, 7)] ∧ done.1.released = #[(1, true), (0, false)] ∧
      (∃ image, done.2.flatMap (·.images) = [image] ∧ image.timestampNs = 9000 ∧ image.pts = 9) ∧
      done.1.release 2 true = { session := done.1, result := .error .sessionStopped } := by
  intro done
  have hconserved := outputs_conserved .loopback 1 .empty releaseTwice
  have htimes : outputTimes .loopback done.2 = [5, 9, 7] := rfl
  have hshown : List.Forall₂ _ [1] (done.2.flatMap (·.images)) := hconserved.accounts.shown
  rw [htimes, List.forall₂_cons_left_iff] at hshown
  obtain ⟨image, rest, ⟨pts, htime, hstamped⟩, hrest, himages⟩ := hshown
  obtain rfl := List.forall₂_nil_left_iff.mp hrest
  obtain rfl : 9 = pts := Option.some.inj htime
  exact ⟨rfl, rfl, ⟨image, himages, hstamped (by decide)⟩,
    hconserved.stopped (by decide) 2 true⟩

end


end HeadsetStream.Decoder
