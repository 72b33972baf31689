import TraceAudit.Log.Record

/-!
# Run tags

While a run is open its tag sits on handlers. It puts the name of the run into each record that
comes from the tag's channel or from below it, and lets every record pass.
-/

namespace TraceAudit.Log

/-- The tag of a run. -/
structure RunTag where
  run : Value := .text ""
  /-- The channel whose records are tagged. -/
  scope : Value := .text "tracesentry"
deriving Inhabited

namespace RunTag

/-- The tag with the given run and, if there is a second argument, the given scope. -/
def ofArgs : List Value → Except Fault RunTag
  | [] => .ok {}
  | [run] => .ok { run }
  | [run, scope] => .ok { run, scope }
  | _ => .error .wrongKind

/-- Whether a channel is another one or lies below it. -/
def isWithin (channel scope : String) : Bool :=
  channel = scope || (scope.toList ++ ['.']).isPrefixOf channel.toList

/-- Whether the tag applies to a channel. Only a text names a channel. -/
def covers (t : RunTag) (channel : String) : Except Fault Bool :=
  match t.scope with
  | .text scope => .ok (isWithin channel scope)
  | _ => .error .wrongKind

/-- Tag a record. -/
def apply (t : RunTag) (r : Record) : Except Fault Record := do
  return if ← t.covers r.channel then r.withDetail "run_id" t.run else r

end RunTag

end TraceAudit.Log
