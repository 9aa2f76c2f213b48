import HeadsetStream.Decoder.Engine

/-!
# An engine that follows a script

An engine for trials of failure: a script says for each session which input buffers it offers, how
large they are, whether it faults while it starts, and which of its calls fail with what error.
-/

namespace HeadsetStream.Decoder
open Video

/-- What one session does. A call fails if it has an error here. -/
structure Script where
  inputs : List Nat := []
  size : Nat := 0
  /-- Whether the session reports a fault while it starts. -/
  faults : Bool := false
  create : Option DecoderError := none
  start : Option DecoderError := none
  capacity : Option DecoderError := none
  submit : Option DecoderError := none
  release : Option DecoderError := none
  deriving DecidableEq, Repr, Inhabited

/-- The scripts of the sessions in order; the last one is used again and again. -/
structure ScriptedEngine where
  scripts : List Script
  /-- How many sessions were asked for. -/
  asked : Nat := 0
  deriving DecidableEq, Repr, Inhabited

structure ScriptedSession where
  script : Script
  format : MediaFormat
  stopped : Bool := false
  deriving DecidableEq, Repr, Inhabited

/-- The end of a call that has this error, if any. -/
def resultOf {α : Type} (value : α) : Option DecoderError → Except DecoderError α
  | some error => .error error
  | none => .ok value

namespace ScriptedEngine

/-- The script of the next session. -/
def script (engine : ScriptedEngine) : Script :=
  (engine.scripts[engine.asked]?).getD (engine.scripts.getLastD {})

/-- Offers the script's input buffers, and faults if it says so. -/
def startReports (script : Script) : List Callback :=
  script.inputs.map .inputFree ++ if script.faults then [.event .fault] else []

instance : Engine ScriptedEngine ScriptedSession where
  name _ := "script"
  create engine format :=
    ({ engine with asked := engine.asked + 1 },
      resultOf { script := engine.script, format } engine.script.create)
  start session :=
    { session
      reports := startReports session.script
      result := resultOf () session.script.start }
  capacity session _ := resultOf session.script.size session.script.capacity
  submit session _ _ _ _ := { session, result := resultOf () session.script.submit }
  release session _ _ := { session, result := resultOf () session.script.release }
  stop session := { session with stopped := true }

end ScriptedEngine

end HeadsetStream.Decoder
