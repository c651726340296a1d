import Mathlib.Data.List.FinRange
import SemanticDiagnostics.Proofs.History

/-! # The order of errors

A sink that is looked at is sorted by references to its records, a sink that is finished by the records
themselves. Both list the same records in the same order: by place, and those at one place in the order
in which they were reported. -/
namespace SemanticDiagnostics
open Session

/-! ## References -/

namespace Sink

variable (s : Sink)

/-- Whether the record of a reference comes no later in the text than that of another. -/
def refersLe (i j : Fin s.records.length) : Bool := s.records[i].le s.records[j]

/-- References to the records of the sink, sorted by the places of the records. -/
def references : List (Fin s.records.length) :=
  (List.finRange s.records.length).mergeSort s.refersLe

/-- Whether the record of a reference comes before that of another: earlier in the text or, at the same
place, reported earlier. -/
def Precedes (i j : Fin s.records.length) : Prop :=
  s.refersLe i j = true ∧ (s.records[i].position = s.records[j].position → i < j)

theorem refersLe_trans (i j k : Fin s.records.length) (h : s.refersLe i j = true)
    (h' : s.refersLe j k = true) : s.refersLe i k = true := Record.le_trans _ _ _ h h'

theorem refersLe_total (i j : Fin s.records.length) : (s.refersLe i j || s.refersLe j i) = true :=
  Record.le_total ..

/-- Behind the sorted references stand the sorted records. -/
theorem map_references : s.references.map (fun i => s.records[i]) = s.sorted := by
  have hmap : s.references.map (fun i => s.records[i]) =
      ((List.finRange s.records.length).map fun i => s.records[i]).mergeSort Record.le :=
    List.map_mergeSort fun i _ j _ => rfl
  rw [hmap]
  exact congrArg (List.mergeSort · Record.le) (List.map_getElem_finRange s.records)

/-- No record is referred to twice, and none is left out. -/
theorem references_perm : s.references.Perm (List.finRange s.records.length) :=
  List.mergeSort_perm ..

/-- References to records at one place stay in the order of reporting. -/
theorem filter_references (p : Position) :
    s.references.filter (fun i => s.records[i].position = p) =
      (List.finRange s.records.length).filter fun i => s.records[i].position = p := by
  refine filter_mergeSort s.refersLe_trans s.refersLe_total (fun i j hi hj => ?_) _
  rw [decide_eq_true_eq] at hi hj
  rw [refersLe, Record.le, hi, hj]
  exact Position.le_refl p

theorem pairwise_references : s.references.Pairwise s.Precedes := by
  rw [List.pairwise_iff_forall_sublist]
  intro i j hsub
  have hsorted : s.references.Pairwise fun i j => s.refersLe i j = true :=
    List.pairwise_mergeSort s.refersLe_trans s.refersLe_total _
  refine ⟨List.pairwise_iff_forall_sublist.1 hsorted hsub, ?_⟩
  intro hplace
  -- Both stay when only the references to records at this place are kept, which are not reordered.
  have htied := hsub.filter fun k => s.records[k].position = s.records[j].position
  rw [filter_references, List.filter_cons_of_pos (by simpa using hplace),
    List.filter_cons_of_pos (by simp), List.filter_nil] at htied
  exact List.pairwise_iff_forall_sublist.1
    ((List.pairwise_lt_finRange _).filter _) htied

end Sink

/-! ## Records -/

/-- **Sorting is stable.** What a sink shows of its records in order, and what a report has that it is
finished into, is one list, and showing it leaves the session as it is. This list holds every reported
record as often as it was reported; of two records the one at an earlier line, or in an earlier column
of the same line, comes first; at every place it has the records that were reported there, in the order
of reporting; and there is no other such list. It is what the sorted references refer to: all of them,
each once, those to records at one place in the order of reporting. -/
theorem sorting_is_stable (s : State) :
    let reported := s.sink.records
    let sorted := s.sink.sorted
    s.step (.readSink .sorted) = (.records sorted, s) ∧
    (∃ report, (s.step .finish).2.reports = s.reports ++ [report] ∧ report.records = sorted) ∧
    sorted.Perm reported ∧
    (sorted.Pairwise fun a b => a.position.line < b.position.line ∨
      a.position.line = b.position.line ∧ a.position.column ≤ b.position.column) ∧
    (∀ p, sorted.filter (·.position = p) = reported.filter (·.position = p)) ∧
    (∀ rs : List Record, (rs.Pairwise fun a b => a.le b = true) →
      (∀ p, rs.filter (·.position = p) = reported.filter (·.position = p)) → rs = sorted) ∧
    s.sink.references.map (fun i => reported[i]) = sorted ∧
    s.sink.references.Perm (List.finRange reported.length) ∧
    s.sink.references.Pairwise s.sink.Precedes := by
  intro reported sorted
  have hplace : ∀ p, sorted.filter (·.position = p) = reported.filter (·.position = p) :=
    Record.filter_sort reported
  have hordered : sorted.Pairwise fun a b => a.le b = true := Record.pairwise_sort reported
  refine ⟨?_, ⟨_, rfl, rfl⟩, Record.sort_perm reported, hordered.imp Position.le_iff.1, hplace, ?_,
    s.sink.map_references, s.sink.references_perm, s.sink.pairwise_references⟩
  · show (Answer.records sorted, s.log []) = _
    rw [State.log, List.append_nil]
  · intro rs hrs h
    exact Record.eq_of_filter_eq hrs hordered fun p => (h p).trans (hplace p).symm

end SemanticDiagnostics
