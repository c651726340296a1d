import SemanticDiagnostics.Kind
import SemanticDiagnostics.Position

/-!
Events: what the library tells a log about its work, and values that come with events. Emitting a report
tells how it is emitted.
-/

namespace SemanticDiagnostics

/-! ## How a report is to be emitted -/

/-- The two looks of an emitted report. -/
inductive EmitStyle where
  /-- One line per record. -/
  | plain
  /-- A piece of the source per record, with carets under the place. -/
  | rich
  deriving DecidableEq, Repr

def EmitStyle.name : EmitStyle → String
  | .plain => "Plain"
  | .rich => "Rich"

/-- Whether standard error gets colors. -/
inductive ColorChoice where
  | never
  | always
  /-- Colors as escape sequences, whatever the terminal is. -/
  | alwaysAnsi
  deriving DecidableEq, Repr

def ColorChoice.name : ColorChoice → String
  | .never => "Never"
  | .always => "Always"
  | .alwaysAnsi => "AlwaysAnsi"

/-- The look of an emitted report, and the colors for standard error. -/
structure EmitConfig where
  style : EmitStyle := .plain
  color : ColorChoice := .never
  deriving DecidableEq, Repr

namespace EmitConfig

def inspect (c : EmitConfig) : String :=
  "EmitConfig \x7b style: " ++ c.style.name ++ ", color: " ++ c.color.name ++ " \x7d"

end EmitConfig

/-! ## Events -/

/-- Something worth telling a log. -/
inductive Event where
  /-- An error was collected. -/
  | recorded (code : String) (position : Position)
  /-- Records are about to be printed on standard error. -/
  | printing (count : Nat)
  /-- A sink was frozen into a report. -/
  | finished (count : Nat)
  /-- A report is about to be emitted. -/
  | emitting (count : Nat) (style : EmitStyle)
  deriving DecidableEq

namespace Event

/-- How much an event matters. -/
inductive Level where
  | trace
  | debug
  | info
  deriving DecidableEq, Repr

def Level.name : Level → String
  | .trace => "TRACE"
  | .debug => "DEBUG"
  | .info => "INFO"

/-- A stretch of work during which events are sent. -/
structure Scope where
  name : String
  level : Level
  target : String
  fields : List (String × Datum)
  deriving DecidableEq, Repr

/-- The part of the library that collects errors. -/
def sinkTarget : String := "asl_semerrors::sink"

/-- The part of the library that emits reports. -/
def emitTarget : String := "asl_semerrors::emit"

/-- Collected errors are many and matter least. -/
def level : Event → Level
  | recorded _ _ => .trace
  | printing _ | finished _ | emitting _ _ => .debug

/-- The part of the library that sends the event. -/
def target : Event → String
  | recorded _ _ | printing _ | finished _ => sinkTarget
  | emitting _ _ => emitTarget

def message : Event → String
  | recorded _ _ => "semantic error recorded"
  | printing _ => "printing semantic errors"
  | finished _ => "semantic analysis finished"
  | emitting _ _ => "emitting semantic errors"

/-- The data of the event. The count of a finished sink belongs to the scope, not to the event. -/
def fields : Event → List (String × Datum)
  | recorded code p => [("code", .text code), ("line", .number p.line), ("column", .number p.column)]
  | printing count => [("count", .number count)]
  | finished _ => []
  | emitting count style => [("count", .number count), ("style", .text style.name)]

/-- The scopes that the event is sent in. Only finishing has one. -/
def scopes : Event → List Scope
  | finished count => [⟨"finish", .info, sinkTarget, [("count", .number count)]⟩]
  | recorded _ _ | printing _ | emitting _ _ => []

end Event

/-- A value, and the events that were sent on the way to it. -/
structure Logged (α : Type) where
  value : α
  events : List Event

end SemanticDiagnostics
