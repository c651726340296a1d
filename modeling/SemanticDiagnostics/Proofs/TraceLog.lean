import SemanticDiagnostics.Proofs.Conservation
import SemanticDiagnostics.Proofs.Interference

/-! # What the log is told

A step tells the log of one thing at most: of a record that it appended, of records that it prints,
of a sink that it finishes or of a report that it emits. Events wait until somebody asks for them.
However often this happens, the events that were handed out and after them those that still wait are
the events of the steps, in order. -/
namespace SemanticDiagnostics
open Session

/-! ## Entries -/

/-- What a log shows of an event. -/
structure LogEntry where
  level : Event.Level
  target : String
  message : String
  fields : List (String × Datum)
  scopes : List Event.Scope
  deriving DecidableEq

def Event.entry (e : Event) : LogEntry :=
  { level := e.level
    target := e.target
    message := e.message
    fields := e.fields
    scopes := e.scopes }

namespace LogEntry

def recorded (r : Record) : LogEntry :=
  { level := .trace
    target := "asl_semerrors::sink"
    message := "semantic error recorded"
    fields :=
      [("code", .text r.code), ("line", .number r.position.line),
        ("column", .number r.position.column)]
    scopes := [] }

def printing (count : Nat) : LogEntry :=
  { level := .debug
    target := "asl_semerrors::sink"
    message := "printing semantic errors"
    fields := [("count", .number count)]
    scopes := [] }

def finished (count : Nat) : LogEntry :=
  { level := .debug
    target := "asl_semerrors::sink"
    message := "semantic analysis finished"
    fields := []
    scopes := [⟨"finish", .info, "asl_semerrors::sink", [("count", .number count)]⟩] }

def emitting (count : Nat) (style : EmitStyle) : LogEntry :=
  { level := .debug
    target := "asl_semerrors::emit"
    message := "emitting semantic errors"
    fields := [("count", .number count), ("style", .text style.name)]
    scopes := [] }

end LogEntry

namespace Session

/-! ## The entries of a step -/

def SinkReading.entries (s : Sink) : SinkReading → List LogEntry
  | .print => [.printing s.records.length]
  | _ => []

def ReportReading.entries (r : Report) : ReportReading → List LogEntry
  | .print => [.printing r.records.length]
  | .emit _ config _ _ | .emitToStandardError _ config =>
    [.emitting r.records.length config.style]
  | _ => []

/-- Whether the log is told of steps of this sort. -/
def Step.tells : Step → Bool
  | .append _ | .readSink .print | .readReport _ .print | .readReport _ (.emit _ _ _ _)
  | .readReport _ (.emitToStandardError _ _) | .finish => true
  | _ => false

/-- What the log is to be told of a step. -/
def State.entries (s : State) (x : Step) : List LogEntry :=
  match x with
  | .append _ => x.record?.toList.map .recorded
  | .readSink reading => reading.entries s.sink
  | .readReport index reading => s.reports[index]?.toList.flatMap reading.entries
  | .finish => [.finished s.sink.records.length]
  | .compareReports _ _ | .discard | .fetchEvents => []

def State.entriesAlong (s : State) : List Step → List LogEntry
  | [] => []
  | x :: xs => s.entries x ++ (s.step x).2.entriesAlong xs

/-- The events that an answer hands out. -/
def Answer.fetched : Answer → List Event
  | .events es => es
  | _ => []

/-- The entries of the events that were handed out, and after them of those that still wait. -/
def told (ran : List Answer × State) : List LogEntry :=
  (ran.1.flatMap Answer.fetched ++ ran.2.pending).map Event.entry

namespace State

/-- Only asking for events hands them out. -/
theorem fetched_step (s : State) (x : Step) :
    (s.step x).1.fetched = if x.fetches then s.pending else [] := by
  cases x with
  | append operation =>
    cases h : operation.record with
    | error f => simp [step_append_of_error h, Answer.fetched, Step.fetches]
    | ok r => simp [step_append_of_ok h, Answer.fetched, Step.fetches]
  | readSink reading => cases reading <;> rfl
  | readReport index reading =>
    rw [step, readReport]
    cases s.reports[index]? with
    | none => rfl
    | some r => cases reading <;> rfl
  | compareReports first second =>
    rw [step, compareReports]
    cases s.reports[first]? <;> cases s.reports[second]? <;> rfl
  | discard | finish | fetchEvents => rfl

theorem entries_events_readSink (s : Sink) (reading : SinkReading) :
    (reading.answer s).events.map Event.entry = reading.entries s := by
  cases reading <;> rfl

theorem entries_events_readReport (r : Report) (reading : ReportReading) :
    (reading.answer r).events.map Event.entry = reading.entries r := by
  cases reading <;> rfl

/-- The events of a step wait behind the earlier ones. -/
theorem pending_step (s : State) (x : Step) :
    (s.step x).2.pending.map Event.entry =
      (if x.fetches then [] else s.pending.map Event.entry) ++ s.entries x := by
  cases x with
  | append operation =>
    cases h : operation.record with
    | error f =>
      simp [step_append_of_error h, Step.fetches, entries, Step.record?, h, Except.toOption]
    | ok r =>
      rw [step_append_of_ok h, List.map_append]
      simp only [entries, Step.record?, h, Except.toOption]
      rfl
  | readSink reading =>
    rw [entries, ← entries_events_readSink]
    exact List.map_append
  | readReport index reading =>
    rw [step, readReport, entries]
    cases s.reports[index]? with
    | none => exact (List.append_nil _).symm
    | some r =>
      rw [Option.toList_some, List.flatMap_singleton, ← entries_events_readReport]
      exact List.map_append
  | compareReports first second =>
    have hnext : (s.step (.compareReports first second)).2 = s := by
      rw [step, compareReports]
      cases s.reports[first]? <;> cases s.reports[second]? <;> rfl
    rw [hnext]
    exact (List.append_nil _).symm
  | discard => exact (List.append_nil _).symm
  | fetchEvents => rfl
  | finish => exact List.map_append

/-- What was told and what waits after a run are what waited before it and the entries of its
steps. -/
theorem told_run (s : State) (steps : List Step) :
    told (s.run steps) = s.pending.map Event.entry ++ s.entriesAlong steps := by
  induction steps generalizing s with
  | nil => simp [told, run, entriesAlong]
  | cons x xs ih =>
    have hrest := ih (s.step x).2
    have hstep := s.pending_step x
    have hfetched := s.fetched_step x
    unfold told at hrest ⊢
    rw [List.map_append] at hrest
    show (((s.step x).1.fetched ++ ((s.step x).2.run xs).1.flatMap Answer.fetched) ++
      ((s.step x).2.run xs).2.pending).map Event.entry = _
    rw [List.map_append, List.map_append, List.append_assoc, hrest, hstep, hfetched, entriesAlong]
    cases x.fetches <;> simp

/-! ## Asking or not -/

theorem Agrees.entries {s t : State} (h : s.Agrees t) (x : Step) : s.entries x = t.entries x := by
  cases x <;> simp only [State.entries, h.sink, h.reports]

/-- Where the events are asked for makes no difference to the entries. -/
theorem Agrees.entriesAlong {s t : State} (h : s.Agrees t) (steps : List Step) :
    s.entriesAlong steps = t.entriesAlong (steps.filter fun x => !x.fetches) := by
  induction steps generalizing s t with
  | nil => rfl
  | cons x xs ih =>
    cases hx : x.fetches with
    | true =>
      rw [List.filter_cons_of_neg (by simp [hx])]
      cases x with
      | fetchEvents => exact ih ((s.agrees_step_of_reads rfl).trans h)
      | _ => cases hx
    | false =>
      rw [List.filter_cons_of_pos (by simp [hx]), State.entriesAlong, State.entriesAlong,
        h.entries, ih (h.step x)]

theorem flatMap_fetched_run (s : State) {steps : List Step} (h : ∀ x ∈ steps, x.fetches = false) :
    (s.run steps).1.flatMap Answer.fetched = [] := by
  induction steps generalizing s with
  | nil => rfl
  | cons x xs ih =>
    have hx := s.fetched_step x
    rw [h x List.mem_cons_self] at hx
    show (s.step x).1.fetched ++ ((s.step x).2.run xs).1.flatMap Answer.fetched = []
    rw [hx, ih _ fun y hy => h y (List.mem_cons_of_mem x hy)]
    rfl

/-- Without any question for events, all of them wait. -/
theorem told_eq_pending (s : State) (steps : List Step) :
    told (s.run steps) =
      (s.run (steps.filter fun x => !x.fetches)).2.pending.map Event.entry := by
  have hnone : ∀ x ∈ steps.filter (fun x => !x.fetches), x.fetches = false := by
    intro x hx
    simpa using (List.mem_filter.1 hx).2
  have hsilent := s.told_run (steps.filter fun x => !x.fetches)
  rw [told, flatMap_fetched_run s hnone, List.nil_append] at hsilent
  rw [told_run, (Agrees.refl s).entriesAlong, hsilent]

/-! ## The records of a run -/

theorem filter_entries (s : State) (x : Step) :
    (s.entries x).filter (·.level = .trace) = x.record?.toList.map .recorded := by
  cases x with
  | append operation =>
    rw [entries]
    cases (Step.append operation).record? <;> rfl
  | readSink reading => cases reading <;> rfl
  | readReport index reading =>
    rw [entries]
    cases s.reports[index]? with
    | none => rfl
    | some r => cases reading <;> rfl
  | compareReports | discard | finish | fetchEvents => rfl

/-- The entries of the least level are those of the records that were appended to any sink. -/
theorem filter_entriesAlong (s : State) (steps : List Step) :
    (s.entriesAlong steps).filter (·.level = .trace) = (appended steps).map .recorded := by
  induction steps generalizing s with
  | nil => rfl
  | cons x xs ih =>
    rw [entriesAlong, List.filter_append, filter_entries, ih, appended, appended,
      List.filterMap_cons]
    cases x.record? <;> rfl

end State

/-! ## The log -/

theorem State.entries_of_not_tells (s : State) {x : Step} (h : x.tells = false) :
    s.entries x = [] := by
  cases x with
  | append | finish => cases h
  | readSink reading =>
    cases reading with
    | print => cases h
    | _ => rfl
  | readReport index reading =>
    rw [entries]
    cases s.reports[index]? with
    | none => rfl
    | some r =>
      cases reading with
      | print | emit | emitToStandardError => cases h
      | _ => rfl
  | compareReports | discard | fetchEvents => rfl

theorem State.append_entries (s : State) (operation : Sink.Operation) :
    (∃ f, s.step (.append operation) = (.fault f, s) ∧ s.entries (.append operation) = []) ∨
      ∃ r, (s.step (.append operation)).1 = .appended (s.sink.count + 1) (some r) ∧
        (s.step (.append operation)).2.sink.records = s.sink.records ++ [r] ∧
        s.entries (.append operation) = [.recorded r] := by
  cases h : operation.record with
  | error f =>
    left
    refine ⟨f, step_append_of_error h, ?_⟩
    rw [entries, Step.record?_append, h]
    rfl
  | ok r =>
    right
    rw [step_append_of_ok h, entries, Step.record?_append, h]
    exact ⟨r, rfl, rfl, rfl⟩

/-- **The log is exact.** In every session the events that were handed out, and after them those that
still wait, are those of the steps in order, and would all wait if nobody had asked. An appending step
that fails has none, and any other has one that shows the code, the line and the column of the record
that it appended. A sink or report that is printed has one with the number of its records; a sink that
is finished has one in a scope that shows the length of the new report; a report that is emitted has
one with its length and the style, also if the writer runs full. All other steps have none. So the
entries of the least level are those of all records that were ever appended, in order. -/
theorem log_is_exact (steps : List Step) :
    told (State.initial.run steps) = State.initial.entriesAlong steps ∧
    told (State.initial.run steps) =
      (State.initial.run (steps.filter fun x => !x.fetches)).2.pending.map Event.entry ∧
    (told (State.initial.run steps)).filter (·.level = .trace) =
      (appended steps).map .recorded ∧
    ∀ s : State,
      (∀ x, x.tells = false → s.entries x = []) ∧
      (∀ index reading, s.reports[index]? = none → s.entries (.readReport index reading) = []) ∧
      (∀ operation,
        (∃ f, s.step (.append operation) = (.fault f, s) ∧ s.entries (.append operation) = []) ∨
        ∃ r, (s.step (.append operation)).1 = .appended (s.sink.count + 1) (some r) ∧
          (s.step (.append operation)).2.sink.records = s.sink.records ++ [r] ∧
          s.entries (.append operation) = [.recorded r]) ∧
      s.entries (.readSink .print) = [.printing s.sink.count] ∧
      (∃ report, (s.step .finish).2.reports = s.reports ++ [report] ∧
        (s.step .finish).1 = .finished s.reports.length report.length ∧
        s.entries .finish = [.finished report.length]) ∧
      (∀ index report, s.reports[index]? = some report →
        s.entries (.readReport index .print) = [.printing report.length] ∧
        ∀ file config,
          s.entries (.readReport index (.emitToStandardError file config)) =
            [.emitting report.length config.style] ∧
          ∀ medium limit, ∃ written,
            (s.step (.readReport index (.emit file config medium limit))).1 = .written written ∧
            s.entries (.readReport index (.emit file config medium limit)) =
              [.emitting report.length config.style]) := by
  have htold : told (State.initial.run steps) = State.initial.entriesAlong steps :=
    State.told_run .initial steps
  refine ⟨htold, State.told_eq_pending .initial steps, ?_, ?_⟩
  · rw [htold, State.filter_entriesAlong]
  · intro s
    refine ⟨fun x => s.entries_of_not_tells, ?_, s.append_entries, rfl, ⟨_, rfl, rfl, ?_⟩, ?_⟩
    · intro index reading hnone
      rw [State.entries, hnone]
      rfl
    · have hlength : (Report.ofRecords s.sink.records).length = s.sink.records.length :=
        Record.length_sort s.sink.records
      exact congrArg (fun n => [LogEntry.finished n]) hlength.symm
    · intro index report hreport
      have hentries (reading : ReportReading) :
          s.entries (.readReport index reading) = reading.entries report := by
        rw [State.entries, hreport, Option.toList_some, List.flatMap_singleton]
      refine ⟨hentries .print, fun file config => ⟨hentries _, fun medium limit => ?_⟩⟩
      exact ⟨_, State.step_readReport hreport _, hentries _⟩

end Session
end SemanticDiagnostics
