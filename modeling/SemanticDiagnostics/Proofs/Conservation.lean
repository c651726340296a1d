import Mathlib.Data.List.Induction
import SemanticDiagnostics.Proofs.Appending

/-! # What a session keeps

The steps since the sink was last replaced are its window: the sink holds their records, in order.
Finishing turns the window into a report, and no later step touches a report. So every record that
was ever appended is in one place, and in no other. -/
namespace SemanticDiagnostics.Session

/-! ## Windows -/

/-- The steps since the sink was last discarded or finished. -/
def window (steps : List Step) : List Step :=
  (steps.reverse.takeWhile fun x => !x.startsSink).reverse

theorem window_concat (steps : List Step) (x : Step) :
    window (steps ++ [x]) = if x.startsSink then [] else window steps ++ [x] := by
  rw [window, List.reverse_append, List.reverse_singleton, List.singleton_append]
  cases hx : x.startsSink with
  | true => simp [hx]
  | false =>
    rw [List.takeWhile_cons_of_pos (by simp [hx]), List.reverse_cons]
    rfl

/-- The records that the steps add to their sinks. -/
def appended (steps : List Step) : List Record := steps.filterMap Step.record?

theorem length_appended (steps : List Step) :
    (appended steps).length = steps.countP fun x => x.record?.isSome := by
  rw [appended, List.length_filterMap_eq_countP]

theorem appended_eq_nil_iff {steps : List Step} :
    appended steps = [] ↔ ∀ x ∈ steps, x.record? = none := List.filterMap_eq_nil_iff

/-- The sink holds the records of its window. -/
theorem State.sink_window (steps : List Step) :
    (State.initial.run steps).2.sink.records = appended (window steps) := by
  induction steps using List.reverseRecOn with
  | nil => rfl
  | append_singleton steps x ih =>
    rw [run_concat, sink_step, window_concat, ih]
    cases hx : x.startsSink with
    | true => rfl
    | false =>
      rw [appended, appended, if_neg Bool.false_ne_true, if_neg Bool.false_ne_true,
        List.filterMap_append]
      cases hr : x.record? <;> simp [hr]

/-! ## Reports -/

namespace State

theorem reports_isPrefix_run (s : State) (xs : List Step) : s.reports <+: (s.run xs).2.reports := by
  induction xs generalizing s with
  | nil => exact List.prefix_rfl
  | cons x xs ih =>
    have hstep : s.reports <+: (s.step x).2.reports := by
      rw [reports_step]
      exact List.prefix_append ..
    exact hstep.trans (ih _)

/-- No later step changes a report. -/
theorem getElem?_reports_run {s : State} {index : Nat} {report : Report}
    (h : s.reports[index]? = some report) (xs : List Step) :
    (s.run xs).2.reports[index]? = some report := by
  obtain ⟨more, hmore⟩ := s.reports_isPrefix_run xs
  obtain ⟨hindex, -⟩ := List.getElem?_eq_some_iff.1 h
  rw [← hmore, List.getElem?_append_left hindex, h]

theorem length_reports (steps : List Step) :
    (State.initial.run steps).2.reports.length = steps.countP Step.isFinish := by
  induction steps using List.reverseRecOn with
  | nil => rfl
  | append_singleton steps x ih =>
    rw [run_concat, reports_step, List.length_append, ih, List.countP_append]
    cases hx : x.isFinish <;> simp [hx]

/-- The report that a finish makes holds the records of the window before it, sorted. -/
theorem getElem?_reports (before after : List Step) :
    (State.initial.run (before ++ .finish :: after)).2.reports[before.countP Step.isFinish]? =
      some (.ofRecords (appended (window before))) := by
  have hfinish : (State.initial.run (before ++ [.finish])).2.reports[before.countP Step.isFinish]? =
      some (.ofRecords (appended (window before))) := by
    rw [run_concat, reports_step, sink_window, ← length_reports]
    exact List.getElem?_concat_length
  rw [List.append_cons, run_append]
  exact getElem?_reports_run hfinish after

end State

theorem Step.eq_finish {x : Step} (h : x.isFinish = true) : x = .finish := by
  cases x with
  | finish => rfl
  | _ => cases h

/-- As many steps finish a sink as the session has reports; each report has its own. -/
theorem exists_finish {steps : List Step} {index : Nat} (h : index < steps.countP Step.isFinish) :
    ∃ before after, steps = before ++ .finish :: after ∧ before.countP Step.isFinish = index := by
  induction steps generalizing index with
  | nil => cases h
  | cons x xs ih =>
    cases hx : x.isFinish with
    | false =>
      rw [List.countP_cons_of_neg (by simp [hx])] at h
      obtain ⟨before, after, rfl, hcount⟩ := ih h
      exact ⟨x :: before, after, rfl, by rw [List.countP_cons_of_neg (by simp [hx]), hcount]⟩
    | true =>
      obtain rfl := Step.eq_finish hx
      cases index with
      | zero => exact ⟨[], xs, rfl, rfl⟩
      | succ index =>
        rw [List.countP_cons_of_pos rfl] at h
        obtain ⟨before, after, rfl, hcount⟩ := ih (Nat.lt_of_succ_lt_succ h)
        exact ⟨.finish :: before, after, rfl, by rw [List.countP_cons_of_pos rfl, hcount]⟩

/-! ## Results -/

/-- A report accounts for some steps: it has exactly their records, it is a success if none of them
appended one, and otherwise the errors carry the report and tell how many did. -/
structure Accounts (steps : List Step) (report : Report) : Prop where
  perm : report.records.Perm (appended steps)
  ok_iff : report.toResult = .ok () ↔ ∀ x ∈ steps, x.record? = none
  error : ∀ e, report.toResult = .error e →
    e.report = report ∧ e.report.length = steps.countP fun x => x.record?.isSome

theorem accounts_ofRecords (steps : List Step) :
    Accounts steps (.ofRecords (appended steps)) := by
  have hperm : (Report.ofRecords (appended steps)).records.Perm (appended steps) :=
    Record.sort_perm _
  refine ⟨hperm, ?_, ?_⟩
  · rw [Report.toResult_eq_ok_iff, ← appended_eq_nil_iff, ← List.length_eq_zero_iff, hperm.length_eq,
      List.length_eq_zero_iff]
  · intro e he
    obtain rfl := Report.eq_of_toResult_eq_error he
    exact ⟨rfl, hperm.length_eq.trans (length_appended steps)⟩

/-! ## Conservation -/

theorem State.record?_eq_none_iff (t : State) (operation : Sink.Operation) :
    (Step.append operation).record? = none ↔
      ∃ f, t.step (.append operation) = (.fault f, t) := by
  rw [Step.record?_append]
  cases h : operation.record with
  | error f => exact iff_of_true rfl ⟨f, step_append_of_error h⟩
  | ok r =>
    rw [step_append_of_ok h]
    refine iff_of_false (Option.some_ne_none r) ?_
    intro ⟨f, hf⟩
    cases hf

theorem State.record?_eq_some_iff (t : State) (operation : Sink.Operation) (r : Record) :
    (Step.append operation).record? = some r ↔
      (t.step (.append operation)).1 = .appended (t.sink.count + 1) (some r) := by
  rw [Step.record?_append]
  cases h : operation.record with
  | error f =>
    rw [step_append_of_error h]
    exact iff_of_false (Option.some_ne_none r).symm nofun
  | ok r' =>
    rw [step_append_of_ok h, Answer.appended.injEq]
    exact (and_iff_right rfl).symm

/-- **Nothing is lost, doubled or moved.** After every session the sink holds the records of its
window in the order of reporting, and their number is the count. There are as many reports as steps
that finished a sink, and the report of such a step accounts for the window before it, now and after
any further steps. An appending step has no record exactly if it fails, whatever the sink holds, and
otherwise its answer shows the record. -/
theorem session_conserves (steps : List Step) :
    let s := (State.initial.run steps).2
    s.sink.records = appended (window steps) ∧
    (s.step (.readSink .count)).1 =
      .count ((window steps).countP fun x => x.record?.isSome) ∧
    (∀ index, (∃ report, s.reports[index]? = some report) ↔
      ∃ before after, steps = before ++ .finish :: after ∧
        before.countP Step.isFinish = index) ∧
    (∀ before after, steps = before ++ .finish :: after →
      ∃ report, Accounts (window before) report ∧
        s.reports[before.countP Step.isFinish]? = some report ∧
        (∀ later, (s.run later).2.reports[before.countP Step.isFinish]? = some report) ∧
        (s.step (.readReport (before.countP Step.isFinish) .result)).1 =
          .result report.toResult true) ∧
    ∀ (t : State) (operation : Sink.Operation),
      ((Step.append operation).record? = none ↔
        ∃ f, t.step (.append operation) = (.fault f, t)) ∧
      ∀ r, (Step.append operation).record? = some r ↔
        (t.step (.append operation)).1 = .appended (t.sink.count + 1) (some r) := by
  intro s
  have hsink : s.sink.records = appended (window steps) := State.sink_window steps
  refine ⟨hsink, ?_, ?_, ?_, ?_⟩
  · show Answer.count s.sink.records.length = _
    rw [hsink, length_appended]
  · intro index
    constructor
    · intro hreport
      obtain ⟨report, hreport⟩ := hreport
      obtain ⟨hindex, -⟩ := List.getElem?_eq_some_iff.1 hreport
      exact exists_finish (State.length_reports steps ▸ hindex)
    · intro hfinish
      obtain ⟨before, after, rfl, rfl⟩ := hfinish
      exact ⟨_, State.getElem?_reports before after⟩
  · intro before after hsteps
    subst hsteps
    have hreport := State.getElem?_reports before after
    refine ⟨_, accounts_ofRecords (window before), hreport,
      State.getElem?_reports_run hreport, ?_⟩
    rw [State.step_readReport hreport, ReportReading.answer, carries_toResult]
  · intro t operation
    exact ⟨t.record?_eq_none_iff operation, t.record?_eq_some_iff operation⟩

end SemanticDiagnostics.Session
