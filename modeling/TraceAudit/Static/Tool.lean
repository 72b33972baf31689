import TraceAudit.Finding.Basic
import TraceAudit.IdSequence
import TraceAudit.Json.Read
import TraceAudit.Static.Vocabulary
import TraceAudit.Value.Display

/-!
# Output of static analysis tools

Two tools are known, each with a report format of its own. A report is a list of entries, alone or
inside of an object, as a value or as JSON text. Entries that are no objects or name no weakness are
passed over; every other entry becomes one finding, numbered in the order of the report. An entry
that cannot be read makes the whole report unusable.
-/

namespace TraceAudit.Static

/-- A static analysis tool. -/
inductive Tool where
  | slither
  | mythril
deriving DecidableEq, Repr, Inhabited

namespace Tool

/-- The name of a tool, in lower case. -/
def name : Tool → String
  | slither => "slither"
  | mythril => "mythril"

/-- The name of a tool as its makers write it. -/
def title : Tool → String
  | slither => "Slither"
  | mythril => "Mythril"

/-- The tool with the given name, in any case. -/
def ofName? (s : String) : Option Tool :=
  [slither, mythril].find? fun t => t.name = Text.lower s

/-- The patterns of a tool. The first that covers a name counts, so "delegatecall" stands before
"call". -/
def patterns : Tool → List Pattern
  | slither => [
    ⟨["reentrancy"], .reentrancyInFrame⟩,
    ⟨["arithmetic", "overflow", "underflow"], .arithmetic⟩,
    ⟨["delegatecall"], .delegatecallTarget⟩,
    ⟨["tx-origin", "tx.origin"], .originAuthorization⟩,
    ⟨["unchecked-call", "unchecked-send", "unchecked-lowlevel"], .uncheckedCall⟩,
    ⟨["access-control", "permission"], .accessControl⟩]
  | mythril => [
    ⟨["reentrancy"], .reentrancyInFrame⟩,
    ⟨["arithmetic", "overflow", "underflow"], .arithmetic⟩,
    ⟨["delegatecall"], .delegatecallTarget⟩,
    ⟨["tx-origin", "tx.origin", "tx_origin"], .originAuthorization⟩,
    ⟨["call", "return"], .uncheckedCall⟩,
    ⟨["access", "permission"], .accessControl⟩]

/-- The label of a tool's identifiers. -/
def label : Tool → String
  | slither => "STATIC-SLITHER"
  | mythril => "STATIC-MYTHRIL"

end Tool

/-! ### Entries of a report -/

/-- The value of a field, or a default where the object lacks the field. -/
def fieldOr (fields : Fields) (name : String) (default : Value) : Value :=
  (fields.get? name).getD default

/-- The entries of a Slither report. -/
def slitherEntries : Value → Except Fault (List Value)
  | .list entries => .ok entries
  | .object fields =>
    let results := match fieldOr fields "results" (.list []) with
      | .object inner => fieldOr inner "detectors" (.list [])
      | v => v
    match results with
    | .list entries => .ok entries
    | _ => .error (.payload .slitherResults)
  | v => .error (.payload (.kind "Slither" v.kindName))

/-- The entries of a Mythril report. -/
def mythrilEntries : Value → Except Fault (List Value)
  | .list entries => .ok entries
  | .object fields =>
    match fieldOr fields "issues" (.list []) with
    | .list entries => .ok entries
    | _ => .error (.payload .mythrilIssues)
  | v => .error (.payload (.kind "Mythril" v.kindName))

/-! ### Places in the source -/

/-- The contract of a function, where the element says so. -/
def parentContract (element : Fields) : Except Fault (Option Value) :=
  match (element.get "type_specific_fields").orElse (.object []) with
  | .object specific =>
    match Fields.get specific "parent" with
    | .object parent =>
      match Fields.get parent "type" with
      | .text "contract" => .ok (some (fieldOr parent "name" (.text "")))
      | _ => .ok none
    | _ => .ok none
  | _ => .error .missingOperation

/-- Note the place that one element tells. The first function and the first contract count; a
function may tell its contract, too. -/
def locateElement (place : Fields) : Value → Except Fault Fields
  | .object element =>
    let name := fieldOr element "name" (.text "")
    match Fields.get element "type" with
    | .text "function" =>
      if place.has "function" then .ok place
      else do
        let place := place.put "function" name
        match ← parentContract element with
        | some contract =>
          return if place.has "contract" then place else place.put "contract" contract
        | none => return place
    | .text "contract" =>
      .ok (if place.has "contract" then place else place.put "contract" name)
    | _ => .ok place
  | _ => .ok place

/-- Contract and function of a list of elements, as far as they have truthy names. -/
def location : Value → Except Fault Fields
  | .list elements => do
    let place ← elements.foldlM locateElement []
    return place.filter fun f => f.2.truthy
  | _ => .ok []

/-! ### Findings -/

/-- The finding of a Slither entry with the given check, still without a number. -/
def slitherFinding (entry : Fields) (check : String) : Except Fault Finding := do
  let rule := ruleOf Tool.slither.patterns check
  let elements := (entry.get "elements").orElse (.list [])
  let description ← match (entry.get "description").orElse (.text "") with
    | .text s => .ok (String.ofList (Text.strip s.toList))
    | _ => .error .missingOperation
  let place ← location elements
  return {
    id := ""
    rule
    severity := severityOf (entry.get "impact")
    title := check
    description := if description = "" then "Slither detected: " ++ check else description
    evidence := .object (Fields.ofPairs ([
      ("source", .text Tool.slither.title), ("check", .text check),
      ("impact", entry.get "impact"), ("confidence", entry.get "confidence"),
      ("elements", elements)] ++ place))
    recommendation := recommendationFor rule
    tags := ["static", Tool.slither.name, rule].eraseDups }

/-- The fields of a Mythril issue that are taken over, with their names in evidence. -/
def mythrilDetails : List (String × String) :=
  [("swc-id", "swc_id"), ("address", "address"), ("contract", "contract"), ("function", "function")]

/-- Whether a field of an issue says something. -/
def isStated : Value → Bool
  | .null => false
  | .text s => s ≠ ""
  | _ => true

/-- The finding of a Mythril issue with the given title, still without a number. -/
def mythrilFinding (issue : Fields) (title : String) : Except Fault Finding := do
  let rule := ruleOf Tool.mythril.patterns title
  let description ← match
      (issue.get "description").orElse (.text ("Mythril detected: " ++ title)) with
    | .text s => .ok s
    | _ => .error (.rejectedFields ["description"])
  let details := mythrilDetails.filterMap fun (name, shown) =>
    let v := issue.get name
    if isStated v then some (shown, v) else none
  return {
    id := ""
    rule
    severity := severityOf (issue.get "severity")
    title
    description
    evidence := .object ([
      ("source", .text Tool.mythril.title), ("title", .text title),
      ("severity", issue.get "severity"),
      ("type", (issue.get "type").orElse (.text "Informational"))] ++ details)
    recommendation := recommendationFor rule
    tags := ["static", Tool.mythril.name, rule].eraseDups }

namespace Tool

/-- The entries of a report. -/
def entries : Tool → Value → Except Fault (List Value)
  | slither => slitherEntries
  | mythril => mythrilEntries

/-- The field that names the weakness of an entry. -/
def nameField : Tool → String
  | slither => "check"
  | mythril => "title"

/-- The finding of an entry that names a weakness, still without a number. -/
def finding : Tool → Fields → String → Except Fault Finding
  | slither => slitherFinding
  | mythril => mythrilFinding

/-- The finding of any entry, if there is one. -/
def ofEntry (t : Tool) : Value → Except Fault (Option Finding)
  | .object fields =>
    let name := Fields.get fields t.nameField
    if name.truthy then do return some (← t.finding fields (← name.display?)) else .ok none
  | _ => .ok none

/-- The sequence that a tool's findings are numbered with. -/
def ids (t : Tool) : IdSequence :=
  { label := t.label }

/-- The findings of a list of entries, one after the other; each draws the next identifier. -/
def ofEntriesFrom (t : Tool) (ids : IdSequence) : List Value → Except Fault (List Finding)
  | [] => .ok []
  | entry :: rest => do
    match ← t.ofEntry entry with
    | some f =>
      let (id, ids) := ids.next
      let more ← ofEntriesFrom t ids rest
      return { f with id } :: more
    | none => ofEntriesFrom t ids rest

/-- The findings of a list of entries. -/
def ofEntries (t : Tool) (entries : List Value) : Except Fault (List Finding) :=
  t.ofEntriesFrom t.ids entries

/-- The findings of a report, which may be JSON text. -/
def normalize (t : Tool) (report : Value) : Except Fault (List Finding) := do
  let report ← match report with
    | .text s => Json.read s
    | v => .ok v
  t.ofEntries (← t.entries report)

end Tool

end TraceAudit.Static
