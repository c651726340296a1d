import SemanticDiagnostics.Proofs.Appending
import SemanticDiagnostics.Proofs.Rendering

/-! # One plain text

A sink can be written and printed, the report it is finished into can be written, printed and emitted
in plain style. Each of these paths puts its records in order and cuts its output into chunks on its
own. They put out one text all the same, and a writer that runs full has taken the same bytes of it
on each of them. -/
namespace SemanticDiagnostics
open Session Output

/-! ## Writing a text as a whole -/

namespace Output

/-- What becomes of a text that is offered in one piece to a writer with room for so many bytes. -/
def writeWhole : Option Nat → String → Written
  | none, text => .complete text
  | some room, text =>
    if (Text.bytes text).length ≤ room then .complete text
    else .full ((Text.bytes text).take room)

/-- It makes no difference into which chunks a text is cut. -/
theorem write_eq_writeWhole (limit : Option Nat) (chunks : List String) :
    write limit chunks = writeWhole limit (String.join chunks) := by
  cases limit with
  | none => rfl
  | some room =>
    have hbytes : (chunks.map Text.bytes).flatten = Text.bytes (String.join chunks) :=
      (Text.bytes_join chunks).symm
    have haccepted := accepted_deliver room (chunks.map Text.bytes)
    have hcomplete := complete_deliver_iff room (chunks.map Text.bytes)
    rw [hbytes] at haccepted hcomplete
    rw [writeWhole, ← haccepted]
    by_cases h : (Text.bytes (String.join chunks)).length ≤ room
    · rw [if_pos h]
      exact if_pos (hcomplete.2 h)
    · rw [if_neg h]
      exact if_neg (mt hcomplete.1 h)

end Output

/-! ## The paths -/

/-- Plain style is cut into the same chunks as the lines of a report, for every medium. -/
theorem Report.chunks_plain (r : Report) (file : SourceFile) (medium : Medium) :
    r.chunks file .plain medium = Record.plainChunks r.records := by
  unfold chunks pieces Record.plainChunks
  rw [List.map_flatMap]
  rfl

theorem State.step_finish_readReport (s : State) (reading : ReportReading) :
    ((s.step .finish).2.step (.readReport s.reports.length reading)).1 =
      (reading.answer (.ofRecords s.sink.records)).value := by
  refine State.step_readReport ?_ reading
  rw [State.reports_step]
  exact List.getElem?_concat_length

/-- **All plain outputs are one text.** Whatever the sink of a session holds, there is one order of
its records by place, in which records at one place stay in the order of reporting, such that
everything that is written or printed of the sink, and of the report that it is finished into, is
the lines of the records in this order. A writer with a limit takes all of this text or as much of
its front as there is room for. -/
theorem plain_outputs_agree (s : State) :
    ∃ inOrder : List Record,
      inOrder.Pairwise (fun a b => a.le b = true) ∧
      (∀ p, inOrder.filter (·.position = p) = s.sink.records.filter (·.position = p)) ∧
      let text := String.join (inOrder.map fun r =>
        toString r.position.line ++ "." ++ toString r.position.column ++ ": " ++ r.message ++ "\n")
      let read (reading : ReportReading) : Answer :=
        ((s.step .finish).2.step (.readReport s.reports.length reading)).1
      (s.step (.readSink .print)).1 = .standardError text ∧
      read .print = .standardError text ∧
      (∀ file color,
        read (.emitToStandardError file { style := .plain, color }) = .standardError text) ∧
      ∀ limit,
        (s.step (.readSink (.write limit))).1 = .written (writeWhole limit text) ∧
        read (.write limit) = .written (writeWhole limit text) ∧
        ∀ file color medium,
          read (.emit file { style := .plain, color } medium limit) =
            .written (writeWhole limit text) := by
  refine ⟨s.sink.sorted, Record.pairwise_sort _, Record.filter_sort _, ?_⟩
  intro text read
  have hread (reading : ReportReading) :
      read reading = (reading.answer (.ofRecords s.sink.records)).value :=
    State.step_finish_readReport s reading
  have hjoin : String.join (Record.plainChunks s.sink.sorted) = text :=
    Record.join_plainChunks s.sink.sorted
  have hwrite (limit : Option Nat) :
      Output.write limit (Record.plainChunks s.sink.sorted) = writeWhole limit text := by
    rw [write_eq_writeWhole, hjoin]
  refine ⟨congrArg Answer.standardError hjoin, ?_, ?_, ?_⟩
  · rw [hread]
    exact congrArg Answer.standardError hjoin
  · intro file color
    rw [hread]
    show Answer.standardError (String.join (Report.chunks _ file .plain color.medium)) = _
    rw [Report.chunks_plain]
    exact congrArg Answer.standardError hjoin
  · intro limit
    refine ⟨congrArg Answer.written (hwrite limit), ?_, ?_⟩
    · rw [hread]
      exact congrArg Answer.written (hwrite limit)
    · intro file color medium
      rw [hread]
      show Answer.written (Output.write limit (Report.chunks _ file .plain medium)) = _
      rw [Report.chunks_plain]
      exact congrArg Answer.written (hwrite limit)

end SemanticDiagnostics
