import TraceAudit.Detector.Arithmetic
import TraceAudit.Detector.DelegatecallTarget
import TraceAudit.Detector.FlatReentrancy
import TraceAudit.Detector.FrameReentrancy
import TraceAudit.Detector.OriginRead
import TraceAudit.Detector.UncheckedCall

/-!
# The detectors of this library
-/

namespace TraceAudit.Detector

/-- All detectors, in the order of their ids. -/
def catalogue : List Detector :=
  [arithmetic, uncheckedCall, frameReentrancy, flatReentrancy, delegatecallTarget, originRead]

/-- The detector of this library with the given id. -/
def withId? (id : String) : Option Detector :=
  catalogue.find? fun d => d.info.id = id

end TraceAudit.Detector
