import TraceAudit.Log.Filter
import TraceAudit.Log.Format
import TraceAudit.Settings

/-!
# Logging sessions

Channels form a tree by their names: a channel lies below the one whose name it extends behind a
point, and the root lies above all of them. Handlers sit on channels. A record goes to the handlers
of its channel and then upwards, channel by channel, until one does not propagate.

An open run has put its tag on the handlers that its channel reached when the run was opened.
Leaving a run takes the tag from these same handlers, whatever has happened to the channels in the
meantime. Runs are left in the reverse order of their opening. A handler may sit on several channels
and is then met several times; it still carries the tag once.
-/

namespace TraceAudit.Log

/-- A handler: the least level it takes, the form it writes, and its filters in the order in which
they were put there. Filters are told apart by their numbers. -/
structure Handler where
  id : Nat
  level : Level := Level.notSet
  form : Form := .colored
  filters : List (Nat × Filter) := []
deriving Inhabited

namespace Handler

/-- Put a filter on a handler, unless it is there. -/
def addFilter (number : Nat) (f : Filter) (h : Handler) : Handler :=
  if h.filters.any (·.1 == number) then h else { h with filters := h.filters ++ [(number, f)] }

/-- Take a filter from a handler, if it is there. -/
def removeFilter (number : Nat) (h : Handler) : Handler :=
  { h with filters := h.filters.eraseP (·.1 == number) }

/-- The tags on a handler. -/
def tags (h : Handler) : List RunTag :=
  h.filters.filterMap fun f => f.2.tag?

/-- What the filters of a handler make of a record. -/
def judge (h : Handler) (r : Record) : Except Fault Verdict :=
  Filter.judgeAll r (h.filters.map Prod.snd)

end Handler

/-- A channel: the handlers on it, by id, and whether records go on to the channel above. -/
structure Channel where
  name : String
  handlers : List Nat := []
  propagates : Bool := true
deriving DecidableEq, Repr, Inhabited

/-- A run that is open: the number of its tag and the handlers that were met on opening it. -/
structure OpenRun where
  number : Nat
  handlers : List Nat
deriving DecidableEq, Repr

/-- The state of logging. -/
structure Session where
  rootLevel : Level := Level.warning
  /-- All handlers there have been. -/
  handlers : List Handler := []
  /-- The channels of which anything is known. -/
  channels : List Channel := []
  /-- The open runs, the innermost first. -/
  runs : List OpenRun := []
deriving Inhabited

namespace Session

/-! ### Channels and handlers -/

/-- The name of the root. -/
def root : String := ""

/-- The name under which a channel is known; the root has two. -/
def canonical (name : String) : String :=
  if name = "root" then root else name

/-- The beginnings of a reversed name before its points, the longest first. Of two points side by
side only the second counts, and a point at the start of the name does not count. -/
def cuts : List Char → List String
  | [] | [_] => []
  | c :: d :: rest =>
    if c = '.' then String.ofList (d :: rest).reverse :: cuts rest else cuts (d :: rest)

/-- A channel and the channels above it, up to the root. -/
def lineage (name : String) : List String :=
  let name := canonical name
  if name = root then [root] else name :: cuts name.toList.reverse ++ [root]

/-- The channel with a name. -/
def channel (s : Session) (name : String) : Channel :=
  (s.channels.find? fun c => c.name = name).getD { name }

/-- Change the channel with a name. -/
def modifyChannel (s : Session) (name : String) (change : Channel → Channel) : Session :=
  let name := canonical name
  { s with channels := change (s.channel name) :: s.channels.filter fun c => c.name ≠ name }

/-- The handler with an id. -/
def handler? (s : Session) (id : Nat) : Option Handler :=
  s.handlers.find? fun h => h.id = id

/-- Change the handler with an id. -/
def modifyHandler (s : Session) (id : Nat) (change : Handler → Handler) : Session :=
  { s with handlers := s.handlers.map fun h => if h.id = id then change h else h }

/-- Change the handlers with the given ids, one after the other. -/
def modifyHandlers (s : Session) (ids : List Nat) (change : Handler → Handler) : Session :=
  ids.foldl (fun s id => s.modifyHandler id change) s

/-- The handlers of channels, up to the first that does not propagate. -/
def reachFrom (s : Session) : List String → List Nat
  | [] => []
  | name :: above =>
    let c := s.channel name
    c.handlers ++ if c.propagates then reachFrom s above else []

/-- The handlers that records of a channel reach. -/
def reachable (s : Session) (name : String) : List Nat :=
  s.reachFrom (lineage name)

/-- The handlers on the root. -/
def rootHandlers (s : Session) : List Handler :=
  (s.channel root).handlers.filterMap s.handler?

/-- Put a new handler on a channel. -/
def addHandler (s : Session) (name : String) (level : Level) (form : Form) : Session :=
  let h : Handler := { id := s.handlers.length, level, form }
  let s := { s with handlers := s.handlers ++ [h] }
  s.modifyChannel name fun c => { c with handlers := c.handlers ++ [h.id] }

/-- Let a channel propagate or not. -/
def setPropagation (s : Session) (name : String) (propagates : Bool) : Session :=
  s.modifyChannel name fun c => { c with propagates }

/-! ### Configuration -/

/-- Replace the handlers of the root by one that takes the given level. Environment and level that
are not given come from the settings, if one of them is missing altogether. -/
def setup (s : Session) (environment level : Value) (vars : Fields) : Except Fault Session := do
  let (environment, level) ← match environment, level with
    | .null, _ | _, .null => do
      let settings ← Settings.load [] vars
      .ok (environment.orElse (.text settings.appEnv.name), level.orElse (.text settings.logLevel))
    | _, _ => .ok (environment, level)
  let level ← match level with
    | .text name => Level.ofAsked name
    | _ => .error .missingOperation
  let form := match environment with
    | .text "staging" | .text "production" => Form.json
    | _ => Form.colored
  let s := { s with rootLevel := level }
  return (s.modifyChannel root fun c => { c with handlers := [] }).addHandler root level form

/-! ### Runs -/

/-- The channel that the scope of a tag names; nothing given stands for the root. -/
def scopeChannel (scope : Value) : Except Fault String :=
  match scope with
  | .text name => .ok name
  | v => if v.truthy then .error .wrongKind else .ok root

/-- A number that no filter has. -/
def newNumber (s : Session) : Nat :=
  ((s.handlers.flatMap (·.filters)).map fun f => f.1 + 1).foldr max 0

/-- Open a run: a new tag goes on the handlers that its channel reaches. -/
def enter (s : Session) (tag : RunTag) : Except Fault Session := do
  let reached := s.reachable (← scopeChannel tag.scope)
  let number := s.newNumber
  let s := s.modifyHandlers reached (Handler.addFilter number (.tag tag))
  return { s with runs := ⟨number, reached⟩ :: s.runs }

/-- Leave the innermost run. -/
def leave (s : Session) : Except Fault Session :=
  match s.runs with
  | run :: outer =>
    .ok { s.modifyHandlers run.handlers (Handler.removeFilter run.number) with runs := outer }
  | [] => .error .outOfRange

/-! ### Records -/

/-- Whether records of a level are handled at all. -/
def isEnabled (s : Session) (level : Level) : Bool :=
  0 < level && s.rootLevel ≤ level

/-- A record as a handler takes it. -/
structure Delivery where
  handler : Nat
  form : Form
  record : Record

/-- What handlers take of a record, one after the other, and the fault that stopped them, if any.
What filters change on the record stays there for the handlers to come. -/
def deliver (r : Record) : List Handler → List Delivery × Option Fault
  | [] => ([], none)
  | h :: rest =>
    if r.level < h.level then deliver r rest
    else match h.judge r with
      | .error fault => ([], some fault)
      | .ok v =>
        let (taken, fault) := deliver v.record rest
        (if v.passes then ⟨h.id, h.form, v.record⟩ :: taken else taken, fault)

/-- What the handlers of its channel take of a record, and the fault that stopped them, if any. -/
def handled (s : Session) (r : Record) : List Delivery × Option Fault :=
  if s.isEnabled r.level then deliver r ((s.reachable r.channel).filterMap s.handler?)
  else ([], none)

/-- What is written for a record, line by line, and the fault that stopped the writing, if any. A
record that cannot be written leaves no line. -/
def log (s : Session) (now : Moment) (r : Record) : List String × Option Fault :=
  let (taken, fault) := s.handled r
  (taken.filterMap fun d => (d.record.write d.form now).toOption, fault)

end Session

end TraceAudit.Log
