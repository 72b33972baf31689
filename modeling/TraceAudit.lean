import TraceAudit.Analysis
import TraceAudit.Json.Write
import TraceAudit.Log.Script
import TraceAudit.Proofs.Decoding
import TraceAudit.Proofs.Detector.Arithmetic
import TraceAudit.Proofs.Detector.Authorization
import TraceAudit.Proofs.Detector.ConstantTarget
import TraceAudit.Proofs.Detector.Exposure
import TraceAudit.Proofs.Detector.Extension
import TraceAudit.Proofs.Detector.FirstWrite
import TraceAudit.Proofs.Detector.Payload
import TraceAudit.Proofs.Detector.Windows
import TraceAudit.Proofs.Finding.Index
import TraceAudit.Proofs.Finding.Location
import TraceAudit.Proofs.Frame.CallTree
import TraceAudit.Proofs.Frame.DepthOrder
import TraceAudit.Proofs.Frame.Ending
import TraceAudit.Proofs.Frame.Gas
import TraceAudit.Proofs.Frame.Operands
import TraceAudit.Proofs.Frame.Truncation
import TraceAudit.Proofs.Frame.Validation
import TraceAudit.Proofs.Log.Tagging
import TraceAudit.Proofs.Memory
import TraceAudit.Proofs.Report.Accounting
import TraceAudit.Proofs.Report.Framed
import TraceAudit.Proofs.Report.Isolation
import TraceAudit.Proofs.Report.Spelling
import TraceAudit.Proofs.Report.Unusable
import TraceAudit.Proofs.Static.Entries
import TraceAudit.Proofs.Step.Ranking
import TraceAudit.Proofs.Step.StackOrder
import TraceAudit.Raw
