import TraceAudit.Field
import TraceAudit.Text.Case

/-!
# Settings

What an analysis can be tuned with: how far detectors look ahead and back, how much they list, and
the defaults of logging. Settings are given by name in any case; what is given for a run wins over
the environment, whose names start with `TRACESENTRY_`.
-/

namespace TraceAudit

/-- Where the program runs. -/
inductive Environment where
  | development
  | staging
  | production
deriving DecidableEq, Repr, Inhabited

namespace Environment

/-- The name of an environment. -/
def name : Environment → String
  | development => "development"
  | staging => "staging"
  | production => "production"

/-- The environment with the given name. -/
def ofName? (s : String) : Option Environment :=
  [development, staging, production].find? fun e => e.name = s

end Environment

/-- The settings. A window that looks ahead covers so many steps behind the triggering one, a
lookback covers so many before it. -/
structure Settings where
  appName : String := "TraceSentry"
  appEnv : Environment := .development
  logLevel : String := "INFO"
  /-- The distance between a call and a storage write without frames. -/
  reentrancyFallbackWindow : Nat := 200
  uncheckedCallWindow : Nat := 20
  originControlWindow : Nat := 50
  maxOriginControls : Nat := 3
  delegatecallConstantLookback : Nat := 10
  panicArithmeticLookback : Nat := 30
  panicMaxPayloadBytes : Nat := 200
  maxPrecedingArithmetic : Nat := 5
  arithmeticFallbackWindow : Nat := 5
  topOpsLimit : Nat := 10
deriving DecidableEq, Repr, Inhabited

namespace Settings

/-- What the names of environment variables start with, in lower case. -/
def variableMark : List Char :=
  "tracesentry_".toList

/-- Read the fields of settings. -/
def ofFields (f : Fields) : Checked Settings :=
  let default : Settings := {}
  Settings.mk
    <$> Field.withDefault f "app_name" Field.text default.appName
    <*> Field.withDefault f "app_env" (Field.named Environment.ofName?) default.appEnv
    <*> Field.withDefault f "log_level" Field.text default.logLevel
    <*> Field.withDefault f "reentrancy_fallback_window" (Field.countFrom 1)
      default.reentrancyFallbackWindow
    <*> Field.withDefault f "unchecked_call_window" (Field.countFrom 1) default.uncheckedCallWindow
    <*> Field.withDefault f "origin_control_window" (Field.countFrom 1) default.originControlWindow
    <*> Field.withDefault f "max_origin_controls" (Field.countFrom 1) default.maxOriginControls
    <*> Field.withDefault f "delegatecall_constant_lookback" (Field.countFrom 1)
      default.delegatecallConstantLookback
    <*> Field.withDefault f "panic_arithmetic_lookback" (Field.countFrom 1)
      default.panicArithmeticLookback
    <*> Field.withDefault f "panic_max_payload_bytes" (Field.countFrom 36)
      default.panicMaxPayloadBytes
    <*> Field.withDefault f "max_preceding_arithmetic" (Field.countFrom 0)
      default.maxPrecedingArithmetic
    <*> Field.withDefault f "arithmetic_fallback_window" (Field.countFrom 1)
      default.arithmeticFallbackWindow
    <*> Field.withDefault f "top_ops_limit" (Field.countFrom 0) default.topOpsLimit

/-- Settings as a record. -/
def toFields (s : Settings) : Fields := [
  ("app_name", .text s.appName), ("app_env", .text s.appEnv.name), ("log_level", .text s.logLevel),
  ("reentrancy_fallback_window", .int s.reentrancyFallbackWindow),
  ("unchecked_call_window", .int s.uncheckedCallWindow),
  ("origin_control_window", .int s.originControlWindow),
  ("max_origin_controls", .int s.maxOriginControls),
  ("delegatecall_constant_lookback", .int s.delegatecallConstantLookback),
  ("panic_arithmetic_lookback", .int s.panicArithmeticLookback),
  ("panic_max_payload_bytes", .int s.panicMaxPayloadBytes),
  ("max_preceding_arithmetic", .int s.maxPrecedingArithmetic),
  ("arithmetic_fallback_window", .int s.arithmeticFallbackWindow),
  ("top_ops_limit", .int s.topOpsLimit)]

/-- The names of all settings. -/
def names : List String :=
  (toFields {}).map Prod.fst

/-- The settings that environment variables give: those with the right start of their names. -/
def ofVariables (vars : Fields) : Fields :=
  vars.filterMap fun v =>
    let name := Text.lowerChars v.1.toList
    if variableMark.isPrefixOf name then
      some (String.ofList (name.drop variableMark.length), v.2)
    else none

/-- The given names that no setting has. -/
def unknown (given : Fields) : List String :=
  (given.map Prod.fst).filter fun name => Text.lower name ∉ names

/-- The settings of a run: from the environment variables, and above them from what is given by
name. All names that are unknown or have no admissible value are refused together. -/
def load (given vars : Fields) : Except Fault Settings :=
  let named := given.map fun v => (Text.lower v.1, v.2)
  let known : Checked Unit := match unknown given with
    | [] => .good ()
    | bad => .bad bad
  ((fun s _ => s) <$> ofFields (Fields.ofPairs (ofVariables vars ++ named)) <*> known).toExcept

end Settings

end TraceAudit
