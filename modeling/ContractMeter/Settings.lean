import ContractMeter.Failure
import ContractMeter.Text.Integer

/-!
# ContractMeter.Settings

Settings that every compilation shares:

* `Settings` — names, exclusions and limits, with their defaults.
* `Settings.fromEnvironment` — the settings an environment gives.
* `SettingsCache` — settings are read once and kept until they are dropped.
-/

namespace ContractMeter

/-- The version of the service. -/
def version : String := "0.1.0"

/-- Names that a contract may always use as they are. -/
def defaultExcluded : List String := ["constructor", "push"]

/-- The most characters of a text that a dump keeps. -/
def defaultDumpLimit : Int := 100000

structure Settings where
  host : String := "UltraDark"
  primitive : String := "chargeGamma"
  /-- What renamed identifiers start with. -/
  marker : String := "sanitized_"
  excluded : List String := defaultExcluded
  maxTreeDepth : Int := 256
  maxSourceLength : Int := 100000
  strict : Bool := false
  dumpDirectory : Option String := none

/-- Variables with their values. -/
abbrev Environment := List (String × String)

namespace Environment

def get? (env : Environment) (name : String) : Option String :=
  List.lookup name env

def getD (env : Environment) (name default : String) : String :=
  (get? env name).getD default

def set (env : Environment) (name value : String) : Environment :=
  (name, value) :: env

def unset (env : Environment) (name : String) : Environment :=
  env.filter fun entry => entry.1 ≠ name

/-- Words that switch a setting on. No letter outside ASCII has one of theirs as its lower case. -/
def switchWords : List String := ["1", "true", "yes", "on"]

/-- A switch; any word but those that switch it on leaves it off. -/
def switch (env : Environment) (name : String) (default : Bool) : Bool :=
  match get? env name with
  | none => default
  | some value =>
    let word := String.ofList ((Text.trimBlank value).toList.map Char.toLower)
    switchWords.contains word

/-- An integer; blank counts as unset. -/
def integer (env : Environment) (name : String) (default : Int) : Except Fault Int :=
  match get? env name with
  | none => .ok default
  | some value =>
    if Text.isAllBlank value then .ok default
    else
      match Text.readInteger? value with
      | some n => .ok n
      | none => .error (.notAnInteger name value)

/-- The names of a comma-separated list, without blanks around them. -/
def names (env : Environment) (name : String) : List String :=
  (((env.getD name "").splitOn ",").map Text.trimBlank).filter fun s => !s.isEmpty

end Environment

namespace Settings

/-- The variables that settings come from. -/
def variableNames : List String :=
  ["HOST_NAMESPACE", "GAMMA_PRIMITIVE", "SANITIZE_PREFIX", "EXCLUDED_IDENTIFIERS",
    "MAX_TREE_DEPTH", "MAX_SOURCE_LENGTH", "STRICT_GAMMA", "DUMP_DIR"]

/-- The settings of an environment. Names to exclude are added to the defaults, which always
stay. -/
def fromEnvironment (env : Environment) : Except Fault Settings :=
  let defaults : Settings := {}
  match env.integer "MAX_TREE_DEPTH" defaults.maxTreeDepth with
  | .error fault => .error fault
  | .ok maxTreeDepth =>
    match env.integer "MAX_SOURCE_LENGTH" defaults.maxSourceLength with
    | .error fault => .error fault
    | .ok maxSourceLength => .ok {
        host := env.getD "HOST_NAMESPACE" defaults.host
        primitive := env.getD "GAMMA_PRIMITIVE" defaults.primitive
        marker := env.getD "SANITIZE_PREFIX" defaults.marker
        excluded := (defaultExcluded ++ env.names "EXCLUDED_IDENTIFIERS").eraseDups
        maxTreeDepth
        maxSourceLength
        strict := env.switch "STRICT_GAMMA" false
        dumpDirectory := (env.get? "DUMP_DIR").filter fun directory => !directory.isEmpty }

end Settings

/-- Settings read earlier, if any. -/
abbrev SettingsCache := Option Settings

namespace SettingsCache

/-- The kept settings, or those of the environment, which are then kept. -/
def get (cache : SettingsCache) (env : Environment) : Except Fault Settings × SettingsCache :=
  match cache with
  | some settings => (.ok settings, some settings)
  | none =>
    match Settings.fromEnvironment env with
    | .ok settings => (.ok settings, some settings)
    | .error fault => (.error fault, none)

end SettingsCache

end ContractMeter
