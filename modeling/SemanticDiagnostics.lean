import SemanticDiagnostics.Kind.Cursor
import SemanticDiagnostics.Session
import SemanticDiagnostics.Proofs.Appending
import SemanticDiagnostics.Proofs.Faults
import SemanticDiagnostics.Proofs.Reading
import SemanticDiagnostics.Proofs.TrimmedLines
import SemanticDiagnostics.Proofs.LineEndings
import SemanticDiagnostics.Proofs.Rendering
import SemanticDiagnostics.Proofs.PlainPaths
import SemanticDiagnostics.Proofs.CaretRow
import SemanticDiagnostics.Proofs.SourceOrder
import SemanticDiagnostics.Proofs.SpanToCaret
import SemanticDiagnostics.Proofs.Conservation
import SemanticDiagnostics.Proofs.History
import SemanticDiagnostics.Proofs.Decoding
import SemanticDiagnostics.Proofs.Interference
import SemanticDiagnostics.Proofs.TraceLog
import SemanticDiagnostics.Proofs.LineRanges
import SemanticDiagnostics.Proofs.Clamping
import SemanticDiagnostics.Proofs.Colors
import SemanticDiagnostics.Proofs.FullWriters
import SemanticDiagnostics.Proofs.Alignment
import SemanticDiagnostics.Proofs.Walking
import SemanticDiagnostics.Proofs.CaretPresence
import SemanticDiagnostics.Proofs.LineCuts
import SemanticDiagnostics.Proofs.BackAndForth
import SemanticDiagnostics.Proofs.StableOrder
import SemanticDiagnostics.Proofs.FrozenErrors
import SemanticDiagnostics.Proofs.TypedOperations
import SemanticDiagnostics.Proofs.Inspection
import SemanticDiagnostics.Proofs.Terminal
import SemanticDiagnostics.Proofs.Provenance
import SemanticDiagnostics.Proofs.MachineWords
import SemanticDiagnostics.Proofs.LineTiles
