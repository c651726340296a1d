import SemanticDiagnostics.Proofs.Conservation
import SemanticDiagnostics.Proofs.Messages

/-! # What a report remembers

A report forgets in which order errors at different places were found, and remembers all else: two
reports are equal exactly if the same kinds, with their data, were found in the same order at every
place. -/
namespace SemanticDiagnostics
open Session

/-! ## Records by place -/

namespace Record

theorem head_le {a b : Record} {bs : List Record}
    (h : (b :: bs).Pairwise fun a b => a.le b = true) (ha : a ∈ b :: bs) : b.le a = true := by
  rcases List.mem_cons.1 ha with rfl | ha
  · exact Position.le_refl a.position
  · exact List.rel_of_pairwise_cons h ha

theorem mem_of_filter_eq {as bs : List Record} {a : Record}
    (h : as.filter (·.position = a.position) = bs.filter (·.position = a.position))
    (ha : a ∈ as) : a ∈ bs := by
  have hfilter : a ∈ as.filter (·.position = a.position) :=
    List.mem_filter.2 ⟨ha, decide_eq_true rfl⟩
  rw [h] at hfilter
  exact (List.mem_filter.1 hfilter).1

/-- Ordered lists are equal if they agree at every place. -/
theorem eq_of_filter_eq {as bs : List Record} (has : as.Pairwise fun a b => a.le b = true)
    (hbs : bs.Pairwise fun a b => a.le b = true)
    (h : ∀ p, as.filter (·.position = p) = bs.filter (·.position = p)) : as = bs := by
  induction as generalizing bs with
  | nil =>
    cases bs with
    | nil => rfl
    | cons b bs => exact nomatch mem_of_filter_eq (h b.position).symm List.mem_cons_self
  | cons a as ih =>
    cases bs with
    | nil => exact nomatch mem_of_filter_eq (h a.position) List.mem_cons_self
    | cons b bs =>
      -- The heads stand at one place, for each of the lists holds both.
      have hplace : a.position = b.position :=
        Position.le_antisymm
          (head_le has (mem_of_filter_eq (h b.position).symm List.mem_cons_self))
          (head_le hbs (mem_of_filter_eq (h a.position) List.mem_cons_self))
      have hhead := h a.position
      rw [List.filter_cons_of_pos (by simp), List.filter_cons_of_pos (by simp [hplace])] at hhead
      obtain ⟨rfl, -⟩ := List.cons.inj hhead
      rw [ih has.of_cons hbs.of_cons]
      intro p
      have htail := h p
      by_cases ha : a.position = p
      · rw [List.filter_cons_of_pos (by simp [ha]), List.filter_cons_of_pos (by simp [ha])] at htail
        exact (List.cons.inj htail).2
      · rw [List.filter_cons_of_neg (by simp [ha]), List.filter_cons_of_neg (by simp [ha])] at htail
        exact htail

theorem sort_eq_sort_iff {as bs : List Record} :
    sort as = sort bs ↔ ∀ p, as.filter (·.position = p) = bs.filter (·.position = p) := by
  constructor
  · intro h p
    rw [← filter_sort, h, filter_sort]
  · intro h
    refine eq_of_filter_eq (pairwise_sort as) (pairwise_sort bs) ?_
    intro p
    rw [filter_sort, filter_sort, h]

theorem ofKind_injective (p : Position) : Function.Injective fun kind => ofKind kind p := by
  intro a b h
  exact Kind.message_injective (congrArg Record.message h)

end Record

/-! ## Histories -/

namespace Session

/-- The errors that operations find and their places, in order. -/
def findings (operations : List Sink.Operation) : List (Kind × Position) :=
  operations.filterMap fun operation => operation.finding.toOption

/-- The kinds that were found at a place, in order. -/
def kindsAt (p : Position) (found : List (Kind × Position)) : List Kind :=
  (found.filter (·.2 = p)).map Prod.fst

/-- The report of a sink that operations report to. -/
def reportOf (operations : List Sink.Operation) : Report :=
  (State.initial.run (operations.map .append)).2.sink.finish.value

theorem kindsAt_findings_append (p : Position) (xs ys : List Sink.Operation) :
    kindsAt p (findings (xs ++ ys)) = kindsAt p (findings xs) ++ kindsAt p (findings ys) := by
  unfold kindsAt findings
  rw [List.filterMap_append, List.filter_append, List.map_append]

theorem kindsAt_findings_cons {x : Sink.Operation} {kind : Kind} {p : Position}
    (h : x.finding = .ok (kind, p)) (q : Position) (xs : List Sink.Operation) :
    kindsAt q (findings (x :: xs)) =
      if p = q then kind :: kindsAt q (findings xs) else kindsAt q (findings xs) := by
  have hcons : findings (x :: xs) = (kind, p) :: findings xs := by
    rw [findings, List.filterMap_cons, h]
    rfl
  rw [hcons, kindsAt]
  by_cases hp : p = q
  · rw [List.filter_cons_of_pos (by simp [hp]), if_pos hp]
    rfl
  · rw [List.filter_cons_of_neg (by simp [hp]), if_neg hp]
    rfl

theorem reportOf_eq (operations : List Sink.Operation) :
    reportOf operations = .ofRecords ((findings operations).map fun x => .ofKind x.1 x.2) := by
  have hrecord (operation : Sink.Operation) : operation.record.toOption =
      operation.finding.toOption.map fun x => .ofKind x.1 x.2 := by
    unfold Sink.Operation.record
    cases operation.finding <;> rfl
  unfold reportOf Sink.finish findings
  rw [State.sink_run_append, List.map_filterMap]
  simp only [hrecord]
  rfl

/-- The records of a report are those of the kinds and places that were found, by place. -/
theorem records_reportOf (operations : List Sink.Operation) :
    (reportOf operations).records =
      ((findings operations).mergeSort fun x y => x.2.le y.2).map fun x => .ofKind x.1 x.2 := by
  rw [reportOf_eq]
  refine (List.map_mergeSort ?_).symm
  intro x _ y _
  rfl

theorem mem_reportOf_iff {operations : List Sink.Operation} {r : Record} :
    r ∈ (reportOf operations).records ↔ ∃ x ∈ findings operations, r = .ofKind x.1 x.2 := by
  rw [records_reportOf, List.mem_map]
  simp only [List.mem_mergeSort, eq_comm]

theorem filter_map_ofKind (p : Position) (found : List (Kind × Position)) :
    (found.map fun x => Record.ofKind x.1 x.2).filter (·.position = p) =
      (kindsAt p found).map fun kind => .ofKind kind p := by
  unfold kindsAt
  rw [List.filter_map, List.map_map]
  refine List.map_congr_left ?_
  intro x hx
  obtain rfl : x.2 = p := of_decide_eq_true (List.mem_filter.1 hx).2
  rfl

/-- Reports are equal exactly if the same was found at every place. -/
theorem reportOf_eq_iff {xs ys : List Sink.Operation} :
    reportOf xs = reportOf ys ↔ ∀ p, kindsAt p (findings xs) = kindsAt p (findings ys) := by
  rw [reportOf_eq, reportOf_eq, Report.ext_iff, Report.ofRecords, Report.ofRecords,
    Record.sort_eq_sort_iff]
  refine forall_congr' fun p => ?_
  rw [filter_map_ofKind, filter_map_ofKind]
  exact List.map_inj_right fun _ _ h => Record.ofKind_injective p h

/-- What was reported before makes no difference. -/
theorem reportOf_append_eq_iff {xs ys zs : List Sink.Operation} :
    reportOf (xs ++ ys) = reportOf (xs ++ zs) ↔ reportOf ys = reportOf zs := by
  rw [reportOf_eq_iff, reportOf_eq_iff]
  refine forall_congr' fun p => ?_
  rw [kindsAt_findings_append, kindsAt_findings_append, List.append_right_inj]

theorem reports_finish {s : State} (h : s.sink.records = []) (operations : List Sink.Operation) :
    (s.run (operations.map .append ++ [.finish])).2.reports =
      s.reports ++ [reportOf operations] := by
  have hkeeps : ∀ x ∈ operations.map Step.append, x.isFinish = false := fun x hx =>
    Step.isFinish_of_startsSink (State.startsSink_append operations x hx)
  unfold reportOf Sink.finish
  rw [State.run_concat, State.reports_step, State.reports_run s hkeeps, State.sink_run_append,
    State.sink_run_append, h]
  rfl

/-- The operation of an appending step. -/
def Step.operation? : Step → Option Sink.Operation
  | .append operation => some operation
  | _ => none

theorem Step.record?_eq_bind (x : Step) :
    x.record? = x.operation?.bind fun operation => operation.record.toOption := by
  cases x <;> rfl

theorem reportOf_filterMap (steps : List Step) :
    reportOf (steps.filterMap Step.operation?) = .ofRecords (appended steps) := by
  unfold reportOf Sink.finish appended
  rw [State.sink_run_append, List.filterMap_filterMap]
  simp only [← Step.record?_eq_bind]
  rfl

/-- The reports that sessions can have are those of operations that report to a new sink. -/
theorem exists_mem_reports_iff {report : Report} :
    (∃ steps, report ∈ (State.initial.run steps).2.reports) ↔
      ∃ operations, report = reportOf operations := by
  constructor
  · intro ⟨steps, hmem⟩
    obtain ⟨index, hreport⟩ := List.mem_iff_getElem?.1 hmem
    obtain ⟨hindex, -⟩ := List.getElem?_eq_some_iff.1 hreport
    rw [State.length_reports] at hindex
    obtain ⟨before, after, rfl, rfl⟩ := exists_finish hindex
    rw [State.getElem?_reports] at hreport
    exact ⟨_, (Option.some.inj hreport).symm.trans (reportOf_filterMap (window before)).symm⟩
  · intro ⟨operations, h⟩
    refine ⟨operations.map .append ++ [.finish], ?_⟩
    rw [reports_finish rfl]
    exact List.mem_append_right _ (List.mem_singleton.2 h)

/-- The records of a report that a session can have are those of kinds. -/
theorem exists_ofKind_of_mem {steps : List Step} {report : Report} {r : Record}
    (hreport : report ∈ (State.initial.run steps).2.reports) (hr : r ∈ report.records) :
    ∃ kind p, r = .ofKind kind p := by
  obtain ⟨operations, rfl⟩ := exists_mem_reports_iff.1 ⟨steps, hreport⟩
  obtain ⟨x, -, hx⟩ := mem_reportOf_iff.1 hr
  exact ⟨x.1, x.2, hx⟩

/-- The session after operations and a finish, and other operations and a finish. -/
def finishedBoth (xs ys : List Sink.Operation) : State :=
  ((State.initial.run (xs.map .append ++ [.finish])).2.run (ys.map .append ++ [.finish])).2

theorem reports_finishedBoth (xs ys : List Sink.Operation) :
    (finishedBoth xs ys).reports = [reportOf xs, reportOf ys] := by
  have hempty : (State.initial.run (xs.map .append ++ [.finish])).2.sink.records = [] := by
    rw [State.run_concat, State.sink_step]
    rfl
  unfold finishedBoth
  rw [reports_finish hempty, reports_finish rfl]
  rfl

theorem step_compareReports (xs ys : List Sink.Operation) :
    ((finishedBoth xs ys).step (.compareReports 0 1)).1 = .equal (reportOf xs = reportOf ys) := by
  rw [State.step, State.compareReports, reports_finishedBoth]
  rfl

/-- Every list of kinds at places is found by some operations. -/
theorem exists_findings_eq (found : List (Kind × Position)) :
    ∃ operations, findings operations = found := by
  let operation (x : Kind × Position) : Sink.Operation :=
    .atNode (.report x.1) (.position x.2.line x.2.column)
  have hfinding : (fun x => (operation x).finding.toOption) = some := by
    funext x
    have hnode : (Node.Shape.position x.2.line x.2.column).build = .ok (.ofPosition x.2) := by
      rw [Node.Shape.build, Position.ofCoordinates_self]
      rfl
    rw [Sink.Operation.finding_atNode hnode, Node.position_ofPosition]
    rfl
  refine ⟨found.map operation, ?_⟩
  rw [findings, List.filterMap_map]
  exact (congrArg (found.filterMap ·) hfinding).trans List.filterMap_some

/-- **A report is the history of every place.** Some operations report to a sink and others to
another one, and both are finished. The reports are equal exactly if at every place the same kinds
with the same data were found in the same order, and then everything that is written of them is
equal. Neighbors at different places may change their order. A report changes if different kinds at
one place change places, if what is found is another kind, other data or at another place, and if
one operation more or less finds something. Any kinds at any places can be found. -/
theorem report_is_history (xs ys : List Sink.Operation) :
    (((finishedBoth xs ys).step (.compareReports 0 1)).1 = .equal true ↔
      ∀ p, kindsAt p (findings xs) = kindsAt p (findings ys)) ∧
    (reportOf xs = reportOf ys ↔ ∀ p, kindsAt p (findings xs) = kindsAt p (findings ys)) ∧
    ((∀ p, kindsAt p (findings xs) = kindsAt p (findings ys)) →
      ∀ limit, (reportOf xs).write limit = (reportOf ys).write limit ∧
        ∀ file config medium, (reportOf xs).emit file config medium limit =
          (reportOf ys).emit file config medium limit) ∧
    (∀ (x y : Sink.Operation) (kind kind' : Kind) (p q : Position),
      x.finding = .ok (kind, p) → y.finding = .ok (kind', q) →
      (p ≠ q → reportOf (xs ++ x :: y :: ys) = reportOf (xs ++ y :: x :: ys)) ∧
      (p = q → kind ≠ kind' → ∀ zs,
        reportOf (xs ++ x :: (zs ++ y :: ys)) ≠ reportOf (xs ++ y :: (zs ++ x :: ys))) ∧
      ((kind, p) ≠ (kind', q) → reportOf (xs ++ x :: ys) ≠ reportOf (xs ++ y :: ys)) ∧
      reportOf (xs ++ x :: ys) ≠ reportOf (xs ++ ys)) ∧
    ∀ found, ∃ operations, findings operations = found := by
  refine ⟨?_, reportOf_eq_iff, ?_, ?_, exists_findings_eq⟩
  · rw [step_compareReports, Answer.equal.injEq, decide_eq_true_iff, reportOf_eq_iff]
  · intro h limit
    rw [reportOf_eq_iff.2 h]
    exact ⟨rfl, fun _ _ _ => rfl⟩
  · intro x y kind kind' p q hx hy
    refine ⟨?_, ?_, ?_, ?_⟩
    · intro hpq
      rw [reportOf_append_eq_iff, reportOf_eq_iff]
      intro r
      simp only [kindsAt_findings_cons hx, kindsAt_findings_cons hy]
      by_cases hp : p = r
      · have hq : q ≠ r := fun hq => hpq (hp.trans hq.symm)
        simp only [hp, hq, if_true, if_false]
      · simp only [hp, if_false]
    · intro hpq hkind zs h
      subst hpq
      rw [reportOf_append_eq_iff, reportOf_eq_iff] at h
      have hplace := h p
      rw [kindsAt_findings_cons hx, kindsAt_findings_cons hy, if_pos rfl, if_pos rfl] at hplace
      exact hkind (List.cons.inj hplace).1
    · intro hne h
      rw [reportOf_append_eq_iff, reportOf_eq_iff] at h
      have hplace := h p
      rw [kindsAt_findings_cons hx, kindsAt_findings_cons hy, if_pos rfl] at hplace
      by_cases hq : q = p
      · rw [if_pos hq] at hplace
        exact hne (Prod.ext (List.cons.inj hplace).1 hq.symm)
      · rw [if_neg hq] at hplace
        exact List.cons_ne_self _ _ hplace
    · intro h
      rw [reportOf_append_eq_iff, reportOf_eq_iff] at h
      have hplace := h p
      rw [kindsAt_findings_cons hx, if_pos rfl] at hplace
      exact List.cons_ne_self _ _ hplace

end Session
end SemanticDiagnostics
