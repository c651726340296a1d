import SemanticDiagnostics.Proofs.Appending

/-! # Reading does not interfere

Two sessions agree if their sinks and their reports are the same; what they have to tell a log may
differ. Agreeing sessions give the same answers, except to the question for events, and still agree
after a step. A step that only reads leads to a session that agrees with the one before, and so does
a step that fails. So steps of these two sorts can be left out of a session, and nobody who asks for
anything but events will notice. -/
namespace SemanticDiagnostics.Session

/-! ## Steps that only read -/

/-- Whether the step looks at the session without changing its sink or its reports. -/
def Step.reads : Step → Bool
  | .readSink _ | .readReport _ _ | .compareReports _ _ | .fetchEvents => true
  | .append _ | .discard | .finish => false

def Step.fetches : Step → Bool
  | .fetchEvents => true
  | _ => false

/-! ## Agreement -/

/-- The sessions have the same sink and the same reports. -/
structure State.Agrees (s t : State) : Prop where
  sink : s.sink = t.sink
  reports : s.reports = t.reports

namespace State

variable {s t u : State} {x : Step}

theorem Agrees.refl (s : State) : s.Agrees s := ⟨rfl, rfl⟩

theorem Agrees.trans (h : s.Agrees t) (h' : t.Agrees u) : s.Agrees u :=
  ⟨h.sink.trans h'.sink, h.reports.trans h'.reports⟩

/-- Agreeing sessions still agree after a step. -/
theorem Agrees.step (h : s.Agrees t) (x : Step) : (s.step x).2.Agrees (t.step x).2 := by
  constructor
  · apply Sink.ext
    rw [sink_step, sink_step, h.sink]
  · rw [reports_step, reports_step, h.sink, h.reports]

/-- Agreeing sessions answer alike. Only the events are told apart. -/
theorem Agrees.answer (h : s.Agrees t) (hx : x.fetches = false) : (s.step x).1 = (t.step x).1 := by
  cases x with
  | fetchEvents => cases hx
  | append operation =>
    cases hrecord : operation.record with
    | error f => rw [step_append_of_error hrecord, step_append_of_error hrecord]
    | ok r => rw [step_append_of_ok hrecord, step_append_of_ok hrecord, h.sink]
  | readReport index reading =>
    rw [State.step, State.step, readReport, readReport, h.reports]
    cases t.reports[index]? <;> rfl
  | compareReports first second =>
    rw [State.step, State.step, compareReports, compareReports, h.reports]
    cases t.reports[first]? <;> cases t.reports[second]? <;> rfl
  | readSink reading =>
    rw [State.step, State.step, readSink, readSink, h.sink]
  | discard => rfl
  | finish => rw [State.step, State.step, finish, finish, h.sink, h.reports]

/-- A step that only reads changes nothing that others read. -/
theorem agrees_step_of_reads (s : State) (hx : x.reads = true) : (s.step x).2.Agrees s := by
  cases x with
  | append | discard | finish => cases hx
  | readReport index reading =>
    rw [State.step, readReport]
    cases s.reports[index]? <;> exact ⟨rfl, rfl⟩
  | compareReports first second =>
    rw [State.step, compareReports]
    cases s.reports[first]? <;> cases s.reports[second]? <;> exact ⟨rfl, rfl⟩
  | readSink | fetchEvents => exact ⟨rfl, rfl⟩

/-- A step that fails changes nothing at all. -/
theorem step_of_fault {f : Fault} (h : (s.step x).1 = .fault f) : (s.step x).2 = s := by
  cases x with
  | append operation =>
    cases hrecord : operation.record with
    | error g => rw [step_append_of_error hrecord]
    | ok r =>
      rw [step_append_of_ok hrecord] at h
      cases h
  | readSink reading => cases reading <;> cases h
  | readReport index reading =>
    rw [step, readReport] at h
    cases hreport : s.reports[index]? with
    | none =>
      rw [hreport] at h
      cases h
    | some report =>
      rw [hreport] at h
      cases reading <;> cases h
  | compareReports first second =>
    rw [step, compareReports] at h
    split at h <;> cases h
  | discard | finish | fetchEvents => cases h

end State

/-! ## Leaving steps out -/

/-- Whether a step may be left out of a session in which it is answered like this. -/
def Step.IsIdle (x : Step) (answer : Answer) : Prop := x.reads = true ∨ ∃ f, answer = .fault f

theorem State.agrees_step_of_isIdle {s : State} {x : Step} (h : x.IsIdle (s.step x).1) :
    (s.step x).2.Agrees s := by
  rcases h with h | ⟨f, h⟩
  · exact s.agrees_step_of_reads h
  · rw [step_of_fault h]
    exact .refl s

/-- The steps of a session, each with its answer. -/
def State.transcript (s : State) (steps : List Step) : List (Step × Answer) :=
  steps.zip (s.run steps).1

theorem State.transcript_cons (s : State) (x : Step) (xs : List Step) :
    s.transcript (x :: xs) = (x, (s.step x).1) :: (s.step x).2.transcript xs := rfl

/-- What is left of a list of which some elements are marked to stay. -/
def kept {α : Type} (marked : List (α × Bool)) : List α := (marked.filter Prod.snd).map Prod.fst

theorem kept_cons_true {α : Type} (x : α) (marked : List (α × Bool)) :
    kept ((x, true) :: marked) = x :: kept marked := rfl

theorem kept_cons_false {α : Type} (x : α) (marked : List (α × Bool)) :
    kept ((x, false) :: marked) = kept marked := rfl

/-- The transcript of all steps, with the marks of the steps. -/
def State.markedTranscript (s : State) (marked : List (Step × Bool)) :
    List ((Step × Answer) × Bool) :=
  (s.transcript (marked.map Prod.fst)).zip (marked.map Prod.snd)

theorem State.markedTranscript_cons (s : State) (x : Step) (stays : Bool)
    (marked : List (Step × Bool)) :
    s.markedTranscript ((x, stays) :: marked) =
      ((x, (s.step x).1), stays) :: (s.step x).2.markedTranscript marked := rfl

/-- The part of a transcript that does not tell events. -/
def withoutEvents (transcript : List (Step × Answer)) : List (Step × Answer) :=
  transcript.filter fun y => !y.1.fetches

theorem withoutEvents_cons_congr {x : Step} {a b : Answer} {ys zs : List (Step × Answer)}
    (hanswer : x.fetches = false → a = b) (h : withoutEvents ys = withoutEvents zs) :
    withoutEvents ((x, a) :: ys) = withoutEvents ((x, b) :: zs) := by
  unfold withoutEvents at h ⊢
  cases hx : x.fetches with
  | true => rw [List.filter_cons_of_neg (by simp [hx]), List.filter_cons_of_neg (by simp [hx]), h]
  | false =>
    rw [List.filter_cons_of_pos (by simp [hx]), List.filter_cons_of_pos (by simp [hx]), h,
      hanswer hx]

namespace State

/-- The simulation: one session runs all steps, an agreeing one only those that stay. -/
theorem Agrees.run_kept {s t : State} (h : s.Agrees t) {marked : List (Step × Bool)}
    (hidle : ∀ y ∈ s.markedTranscript marked, y.2 = false → y.1.1.IsIdle y.1.2) :
    withoutEvents (kept (s.markedTranscript marked)) =
        withoutEvents (t.transcript (kept marked)) ∧
      (s.run (marked.map Prod.fst)).2.Agrees (t.run (kept marked)).2 := by
  induction marked generalizing s t with
  | nil => exact ⟨rfl, h⟩
  | cons y marked ih =>
    obtain ⟨x, stays⟩ := y
    rw [markedTranscript_cons, List.forall_mem_cons] at hidle
    obtain ⟨hx, hrest⟩ := hidle
    rw [markedTranscript_cons, List.map_cons, run_cons]
    cases stays with
    | true =>
      obtain ⟨htranscript, hstate⟩ := ih (h.step x) hrest
      rw [kept_cons_true, kept_cons_true, transcript_cons, run_cons]
      exact ⟨withoutEvents_cons_congr h.answer htranscript, hstate⟩
    | false =>
      rw [kept_cons_false, kept_cons_false]
      exact ih ((agrees_step_of_isIdle (hx rfl)).trans h) hrest

end State

/-- **Reading never interferes.** In a session some steps are marked to stay, and each of the others
only reads or is one that fails there. If the others are left out, every step that stays gets the
answer it got before, unless it asks for events, and the session ends with the same sink and the same
reports. -/
theorem reading_never_interferes (s : State) {marked : List (Step × Bool)}
    (h : ∀ y ∈ s.markedTranscript marked, y.2 = false → y.1.1.IsIdle y.1.2) :
    let whole := s.run (marked.map Prod.fst)
    let rest := s.run (kept marked)
    withoutEvents (kept (s.markedTranscript marked)) = withoutEvents (s.transcript (kept marked)) ∧
      rest.2.sink = whole.2.sink ∧ rest.2.reports = whole.2.reports := by
  intro whole rest
  obtain ⟨htranscript, hstate⟩ := (State.Agrees.refl s).run_kept h
  exact ⟨htranscript, hstate.sink.symm, hstate.reports.symm⟩

/-- A session in which a write that fails, a report that fails, a question for events and an emission
that fails are not to stay. -/
def sketch : List (Step × Bool) :=
  [(.append (.atNode .booleanRequired (.position 2 1)), true),
    (.readSink (.write (some 3)), false),
    (.append (.atNode (.report .incompatibleReturn) (.bare "x" 0 7)), false),
    (.readSink .count, true),
    (.fetchEvents, false),
    (.finish, true),
    (.readReport 0 (.emit (.ofText "a" "b") { style := .rich } .ansi (some 0)), false),
    (.readReport 0 .length, true)]

theorem reading_never_interferes_in_sketch :
    let whole := State.initial.run (sketch.map Prod.fst)
    (∀ y ∈ State.initial.markedTranscript sketch, y.2 = false → y.1.1.IsIdle y.1.2) ∧
      whole.1[2]? = some (.fault .coordinateBelowOne) ∧
      (State.initial.run (kept sketch)).1[1]? = some (.count 1) ∧
      withoutEvents (kept (State.initial.markedTranscript sketch)) =
        withoutEvents (State.initial.transcript (kept sketch)) ∧
      (State.initial.run (kept sketch)).2.sink = whole.2.sink ∧
      (State.initial.run (kept sketch)).2.reports = whole.2.reports := by
  intro whole
  have h : ∀ y ∈ State.initial.markedTranscript sketch, y.2 = false → y.1.1.IsIdle y.1.2 := by
    refine List.forall_mem_cons.2 ⟨nofun, ?_⟩
    refine List.forall_mem_cons.2 ⟨fun _ => .inl rfl, ?_⟩
    refine List.forall_mem_cons.2 ⟨fun _ => .inr ⟨.coordinateBelowOne, rfl⟩, ?_⟩
    refine List.forall_mem_cons.2 ⟨nofun, ?_⟩
    refine List.forall_mem_cons.2 ⟨fun _ => .inl rfl, ?_⟩
    refine List.forall_mem_cons.2 ⟨nofun, ?_⟩
    refine List.forall_mem_cons.2 ⟨fun _ => .inl rfl, ?_⟩
    exact List.forall_mem_singleton.2 nofun
  exact ⟨h, rfl, rfl, reading_never_interferes .initial h⟩

end SemanticDiagnostics.Session
