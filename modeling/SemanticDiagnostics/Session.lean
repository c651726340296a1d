import SemanticDiagnostics.Emission
import SemanticDiagnostics.Sink.Operation

/-!
Sessions: one sink that errors are reported to, the reports that were made of it and its
predecessors, and the events that nobody has fetched yet. A step appends to the sink, changes what
the sink is, or only reads. A step that breaks a precondition changes nothing.
-/

namespace SemanticDiagnostics.Session

open Output

structure State where
  sink : Sink
  /-- The reports in the order in which they were finished. -/
  reports : List Report
  /-- The events since they were last fetched, the earliest first. -/
  pending : List Event
  deriving DecidableEq

def State.initial : State := { sink := .empty, reports := [], pending := [] }

inductive SinkReading where
  | count
  | records
  | sorted
  | write (limit : Option Nat)
  | print
  | inspect
  deriving DecidableEq

inductive ReportReading where
  | length
  | records
  | linesBackwards
  | write (limit : Option Nat)
  | print
  | inspect
  | result
  | emit (file : SourceFile) (config : EmitConfig) (medium : Medium) (limit : Option Nat)
  | emitToStandardError (file : SourceFile) (config : EmitConfig)

inductive Step where
  | append (operation : Sink.Operation)
  | readSink (reading : SinkReading)
  | readReport (index : Nat) (reading : ReportReading)
  | compareReports (first second : Nat)
  | discard
  /-- Freezes the sink into a report and starts an empty one. -/
  | finish
  | fetchEvents

inductive Answer where
  | fault (f : Fault)
  | noReport (index : Nat)
  | appended (count : Nat) (last : Option Record)
  | count (n : Nat)
  | records (rs : List Record)
  /-- The records of a report, to be shown in all their forms. -/
  | entries (rs : List Record)
  | lines (texts : List String)
  | written (w : Written)
  | standardError (text : String)
  | inspected (text : String)
  | size (length : Nat) (isEmpty : Bool)
  /-- The result, and whether errors carry the very report they were asked of. -/
  | result (r : Except SemanticErrors Unit) (sameReport : Bool)
  | equal (b : Bool)
  | finished (index length : Nat)
  | events (es : List Event)

/-- The answer to a reading of the sink, and the events that come with it. -/
def SinkReading.answer (s : Sink) : SinkReading → Logged Answer
  | count => ⟨.count s.count, []⟩
  | records => ⟨.records s.records, []⟩
  | sorted => ⟨.records s.sorted, []⟩
  | write limit => ⟨.written (s.write limit), []⟩
  | print => ⟨.standardError s.print.value, s.print.events⟩
  | inspect => ⟨.inspected s.inspect, []⟩

/-- Whether an unsuccessful result carries the report; there is nothing to compare in a success. -/
def carries (r : Report) : Except SemanticErrors Unit → Bool
  | .ok _ => true
  | .error e => e.report = r

/-- An unsuccessful result always carries its report. -/
theorem carries_toResult (r : Report) : carries r r.toResult = true := by
  cases h : r.toResult with
  | ok u => rfl
  | error e =>
    rw [Report.eq_of_toResult_eq_error h]
    exact decide_eq_true rfl

/-- The answer to a reading of a report, and the events that come with it. -/
def ReportReading.answer (r : Report) : ReportReading → Logged Answer
  | length => ⟨.size r.length r.isEmpty, []⟩
  | records => ⟨.entries r.records, []⟩
  | linesBackwards => ⟨.lines r.linesBackwards, []⟩
  | write limit => ⟨.written (r.write limit), []⟩
  | print => ⟨.standardError r.print.value, r.print.events⟩
  | inspect => ⟨.inspected r.inspect, []⟩
  | result => ⟨.result r.toResult (carries r r.toResult), []⟩
  | emit file config medium limit =>
    let emitted := r.emit file config medium limit
    ⟨.written emitted.value, emitted.events⟩
  | emitToStandardError file config =>
    let emitted := r.emitToStandardError file config
    ⟨.standardError emitted.value, emitted.events⟩

namespace State

def log (s : State) (events : List Event) : State := { s with pending := s.pending ++ events }

/-- Appends to the sink, unless the operation breaks a precondition. -/
def append (s : State) (operation : Sink.Operation) : Answer × State :=
  match operation.run s.sink with
  | .error f => (.fault f, s)
  | .ok appended =>
    (.appended appended.value.count appended.value.last?,
      { s with sink := appended.value }.log appended.events)

/-- A fault changes nothing. -/
theorem append_of_error {s : State} {operation : Sink.Operation} {f : Fault}
    (h : operation.run s.sink = .error f) : s.append operation = (.fault f, s) := by
  simp [append, h]

theorem append_of_ok {s : State} {operation : Sink.Operation} {l : Logged Sink}
    (h : operation.run s.sink = .ok l) :
    s.append operation =
      (.appended l.value.count l.value.last?, { s with sink := l.value }.log l.events) := by
  simp [append, h]

def readSink (s : State) (reading : SinkReading) : Answer × State :=
  ((reading.answer s.sink).value, s.log (reading.answer s.sink).events)

def readReport (s : State) (index : Nat) (reading : ReportReading) : Answer × State :=
  match s.reports[index]? with
  | none => (.noReport index, s)
  | some r => ((reading.answer r).value, s.log (reading.answer r).events)

def compareReports (s : State) (first second : Nat) : Answer × State :=
  match s.reports[first]?, s.reports[second]? with
  | some a, some b => (.equal (a = b), s)
  | none, _ => (.noReport first, s)
  | _, none => (.noReport second, s)

def finish (s : State) : Answer × State :=
  let finished := s.sink.finish
  (.finished s.reports.length finished.value.length,
    { s with sink := .empty, reports := s.reports ++ [finished.value] }.log finished.events)

def step (s : State) : Step → Answer × State
  | .append operation => s.append operation
  | .readSink reading => s.readSink reading
  | .readReport index reading => s.readReport index reading
  | .compareReports first second => s.compareReports first second
  | .discard => (.count 0, { s with sink := .empty })
  | .finish => s.finish
  | .fetchEvents => (.events s.pending, { s with pending := [] })

/-- Carries out steps one after the other: their answers, and where the session stands then. -/
def run (s : State) : List Step → List Answer × State
  | [] => ([], s)
  | x :: xs =>
    let (answer, next) := s.step x
    let (answers, last) := next.run xs
    (answer :: answers, last)

/-- A session may be interrupted between any two steps. -/
theorem run_append (s : State) (xs ys : List Step) :
    s.run (xs ++ ys) =
      ((s.run xs).1 ++ ((s.run xs).2.run ys).1, ((s.run xs).2.run ys).2) := by
  induction xs generalizing s with
  | nil => rfl
  | cons x xs ih => simp [run, ih]

end State

def answers (steps : List Step) : List Answer := (State.initial.run steps).1

end SemanticDiagnostics.Session
