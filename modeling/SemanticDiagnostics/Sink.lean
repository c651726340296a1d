import SemanticDiagnostics.Event
import SemanticDiagnostics.Node
import SemanticDiagnostics.Output
import SemanticDiagnostics.Record

/-!
The sink collects the errors of one compilation unit. Records stay in the order in which they were
reported and are never removed, merged or changed; what is shown or written is sorted by place, with
errors at the same place in the order in which they were reported. A report is what a sink is frozen
into when the analysis is finished: its errors in the order of the text. It no longer grows.
-/

namespace SemanticDiagnostics

/-! ## Reports -/

/-- Records ordered by place. -/
@[ext]
structure Report where
  records : List Record
  ordered : records.Pairwise (fun a b => a.le b = true)
  deriving DecidableEq

/-- What stands for a report that is not empty where success was hoped for. -/
structure SemanticErrors where
  report : Report
  deriving DecidableEq

namespace Report

def ofRecords (rs : List Record) : Report :=
  { records := Record.sort rs, ordered := Record.pairwise_sort rs }

def length (r : Report) : Nat := r.records.length

def isEmpty (r : Report) : Bool := r.records.isEmpty

/-- The lines of the report from the last record to the first. -/
def linesBackwards (r : Report) : List String := r.records.reverse.map Record.render

def write (r : Report) (limit : Option Nat) : Output.Written :=
  Output.write limit (Record.plainChunks r.records)

/-- The lines of the report, for standard error. -/
def print (r : Report) : Logged String :=
  { value := String.join (Record.plainChunks r.records), events := [.printing r.length] }

def inspect (r : Report) : String :=
  "Report \x7b records: " ++ Record.inspectList r.records ++ " \x7d"

/-- Success if no error was found. -/
def toResult (r : Report) : Except SemanticErrors Unit :=
  if r.isEmpty then .ok () else .error { report := r }

theorem toResult_eq_ok_iff {r : Report} : r.toResult = .ok () ↔ r.records = [] := by
  unfold toResult isEmpty
  cases r.records <;> simp

theorem eq_of_toResult_eq_error {r : Report} {e : SemanticErrors} (h : r.toResult = .error e) :
    e = ⟨r⟩ := by
  unfold toResult at h
  split at h
  · cases h
  · exact (Except.error.inj h).symm

end Report

namespace SemanticErrors

def message (e : SemanticErrors) : String :=
  if e.report.length = 1 then "1 semantic error found"
  else toString e.report.length ++ " semantic errors found"

def inspect (e : SemanticErrors) : String :=
  "SemanticErrors \x7b report: " ++ e.report.inspect ++ " \x7d"

end SemanticErrors

/-! ## Sinks -/

/-- The records reported so far, the earliest first. -/
@[ext]
structure Sink where
  records : List Record
  deriving DecidableEq

namespace Sink

def empty : Sink := ⟨[]⟩

def append (s : Sink) (r : Record) : Logged Sink :=
  { value := ⟨s.records ++ [r]⟩, events := [.recorded r.code r.position] }

/-- Reports an error at a node. Fails, and changes nothing, if the node starts nowhere. -/
def report (s : Sink) (kind : Kind) (anchor : Node) : Except Fault (Logged Sink) :=
  anchor.position.map fun position => s.append (.ofKind kind position)

theorem report_eq (s : Sink) (kind : Kind) (node : Node) :
    s.report kind node = (node.position.map (.ofKind kind)).map s.append := by
  rw [report]
  cases node.position <;> rfl

def count (s : Sink) : Nat := s.records.length

def last? (s : Sink) : Option Record := s.records.getLast?

def sorted (s : Sink) : List Record := Record.sort s.records

/-- Writes a line for every record, by place. -/
def write (s : Sink) (limit : Option Nat) : Output.Written :=
  Output.write limit (Record.plainChunks s.sorted)

/-- The lines of the records by place, for standard error. -/
def print (s : Sink) : Logged String :=
  { value := String.join (Record.plainChunks s.sorted), events := [.printing s.count] }

/-- Freezes the sink into a report. -/
def finish (s : Sink) : Logged Report :=
  { value := .ofRecords s.records, events := [.finished s.count] }

/-- The form in which an inspected value shows a sink, in the order of reporting. -/
def inspect (s : Sink) : String :=
  "DiagnosticSink \x7b records: " ++ Record.inspectList s.records ++ " \x7d"

end Sink

end SemanticDiagnostics
