import FlightGuard.Configuration.Form
import FlightGuard.Storage

/-!
# Provisioning

The first configuration comes from a file.  Whatever is wrong with that file, the result is the
default configuration, which protects nothing; a file is taken as a whole or not at all.  The
paths of the files come from the environment or are fixed defaults.
-/

namespace FlightGuard

/-- The configuration that a file gives, or the default one. -/
def Configuration.provision (file : StoredFile) (path : String) : Configuration :=
  match file.load path Configuration.decoder with
  | .ok configuration => configuration
  | .error _ => .default

/-- The paths that the environment may set. -/
structure Environment where
  configurationPath : Option String
  catalogPath : Option String
deriving DecidableEq, Repr

namespace Environment

/-- The variable with the path of the configuration. -/
def configurationVariable : String := "APM_CONFIG_PATH"

/-- The variable with the path of the custom action catalog. -/
def catalogVariable : String := "APM_CUSTOM_ACTION_PATH"

/-- Where the configuration lies if the environment does not say. -/
def defaultConfigurationPath : String := "data/config/autopilot_manager.json"

/-- Where the custom action catalog lies if the environment does not say. -/
def defaultCatalogPath : String := "data/custom_action/custom_action.json"

end Environment

/-- The initial configuration and the place of the custom action catalog. -/
structure Provisions where
  configuration : Configuration
  catalogPath : String
deriving DecidableEq

/-- Provisions from the paths of an environment; a variable that is set counts also when empty. -/
def Provisions.ofEnvironment (environment : Environment) (storage : Storage) : Provisions :=
  let path := environment.configurationPath.getD Environment.defaultConfigurationPath
  ⟨.provision (storage.find path) path,
   environment.catalogPath.getD Environment.defaultCatalogPath⟩

end FlightGuard
