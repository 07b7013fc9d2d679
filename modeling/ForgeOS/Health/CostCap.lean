import ForgeOS.Cost.Aggregator

/-!
The cost cap of `features.health_monitor` in `.forge/config.yaml`, and the
health check that measures the recorded spend against it.
-/

namespace ForgeOS

open Library

/-! ### The configured cap -/

/-- What `path.read_text` and `yaml.safe_load` make of a config file. -/
inductive ConfigFile where
  /-- `OSError` -/
  | unreadable
  /-- `yaml.YAMLError` -/
  | invalidYaml
  /-- Any other error, such as text that is not UTF-8. -/
  | refused
  | yaml (value : Json)

/-- What `load_config` raises. -/
inductive ConfigFailure where
  | configError (message : String)
  | other

section Config

/- `ForgeConfig.model_validate`: the `features` of a valid config, or the text
of the `ValidationError`. -/
variable (validate : JsonObject → Except String JsonObject)

def loadConfig (path : String) (file : ConfigFile) : Except ConfigFailure JsonObject :=
  match file with
  | .unreadable => .error (.configError s!"Could not read config file: {path}")
  | .invalidYaml => .error (.configError s!"Config file is not valid YAML: {path}")
  | .refused => .error .other
  | .yaml .null => .error (.configError s!"Config file is empty: {path}")
  | .yaml (.obj raw) => (validate raw).mapError .configError
  | .yaml _ => .error (.configError s!"Config file must contain a YAML mapping: {path}")

structure HealthMonitorConfig where
  enabled : Bool := false
  costCapUsd : Option PyFloat := none

variable (rnd : Rounding)

def positiveFloat (value : Json) : Except NumberError (Option PyFloat) := do
  return (← value.asFloat rnd).filter fun number => (PyFloat.finite 0).lt number

def loadHealthMonitorConfig (features : JsonObject) : Except NumberError HealthMonitorConfig :=
  match Dict.get? features "health_monitor" with
  | some (.bool true) => .ok { enabled := true }
  | some (.obj monitor) => do
      let costCapUsd ← positiveFloat rnd ((Dict.get? monitor "cost_cap_usd").getD .null)
      return {
        enabled := match Dict.get? monitor "enabled" with
          | some (.bool enabled) => enabled
          | _ => false
        costCapUsd := costCapUsd }
  | _ => .ok {}

def loadHealthMonitorConfigFromProject (path : String) (file : ConfigFile) :
    Except SpendError HealthMonitorConfig :=
  match loadConfig validate path file with
  | .error (.configError _) => .ok {}
  | .error .other => .error .config
  | .ok features => (loadHealthMonitorConfig rnd features).mapError .number

def resolveCostCapUsd (path : String) (file : ConfigFile) : Except SpendError (Option PyFloat) := do
  return (← loadHealthMonitorConfigFromProject validate rnd path file).costCapUsd

end Config

/-! ### The health check -/

/-- The files of a project that the cost cap depends on. -/
structure SpendFiles where
  configPath : String
  config : ConfigFile
  db : EventsDb

/-- `CAP_WARN_RATIO`: the float nearest to 0.80. -/
def capWarnRatio : PyFloat := .finite (mkRat 7205759403792794 (2 ^ 53))

/-- `cap is None or cap <= 0`. -/
def uncapped : Json → Except SpendError Bool
  | .null => .ok true
  | cap => cap.leZero.mapError .number

/-- The float a cap is divided by and printed as. -/
def capNumber (rnd : Rounding) (cap : Json) : Except SpendError PyFloat :=
  (cap.operand rnd).mapError .number

/-- `spent / cap`. -/
def spentRatio (rnd : Rounding) (spent cap : PyFloat) : Except SpendError PyFloat :=
  (spent.div rnd cap).mapError .number

structure HealthResult where
  healthy : Bool
  message : String := ""
  details : JsonObject := []
  recommendations : List String := []

section Check

variable (validate : JsonObject → Except String JsonObject) (rnd : Rounding)

/-- The cap a checker or a throttle was built with; `None` asks the config. -/
def capInForce (injected : Json) (files : SpendFiles) : Except SpendError Json :=
  match injected with
  | .null => do
      match ← resolveCostCapUsd validate rnd files.configPath files.config with
      | some cap => return .float cap
      | none => return .null
  | cap => .ok cap

namespace CostCapHealthChecker

/-- The check once the cap and the totals are known. -/
def verdict (cap : Json) (totals : CostTotals) : Except SpendError HealthResult := do
  let spent := totals.spent
  let details : JsonObject :=
    [("cost_cap_usd", cap), ("spent_usd", .float (spent.round rnd costDigits)),
      ("priced_spawns", .int totals.pricedSpawns), ("total_spawns", .int totals.totalSpawns)]
  if ← uncapped cap then
    return { healthy := true, message := "No cost cap configured.", details := details }
  else if !totals.readable then
    return {
      healthy := false
      message := "Cannot read recorded spend (events.db unreadable); cost cap cannot be enforced."
      details := details
      recommendations :=
        ["Repair or remove the corrupt .forge/events.db so spend can be metered."] }
  else
    let number ← capNumber rnd cap
    let ratio ← spentRatio rnd spent number
    let details := Dict.set details "ratio" (.float (ratio.round rnd 3))
    let spentText := spent.fixed 2
    let capText := number.fixed 2
    let percent := ratio.percent rnd
    if (PyFloat.finite 1).le ratio then
      return {
        healthy := false
        message := s!"Recorded spend ${spentText} is over the ${capText} cost cap."
        details := details
        recommendations := ["Reduce recorded activity or raise the configured cost cap."] }
    else if capWarnRatio.le ratio then
      return {
        healthy := false
        message :=
          s!"Recorded spend ${spentText} is approaching the ${capText} cost cap ({percent})."
        details := details
        recommendations := ["Reduce recorded activity or raise the configured cost cap."] }
    else
      return {
        healthy := true
        message := s!"Recorded spend ${spentText} within the ${capText} cost cap ({percent})."
        details := details }

/-- `check()` of a checker built with a cap. -/
def check (injected : Json) (files : SpendFiles) : Except SpendError HealthResult := do
  let cap ← capInForce validate rnd injected files
  let totals ← CostAggregator.totals rnd files.db
  verdict rnd cap totals

end CostCapHealthChecker

end Check

end ForgeOS
