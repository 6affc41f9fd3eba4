import StateReplica.Config.Basic
import StateReplica.Store

/-!
Settings in files. The settings of all projects and those of one project are kept in files of the
same name; the project's settings are merged over the others. A file that is missing says nothing.
-/

namespace StateReplica.ReplicaConfig

/-- The format of settings. -/
def format : Json.Format ReplicaConfig := shape.format

/-- The name of the file that settings are kept in. -/
def fileName : String := "replica.json"

/-- Loads the settings of a store. -/
def loadFrom (host : Host) (store : Store) : Except Error ReplicaConfig :=
  (store.load? format host fileName).map (·.getD default)

/-- Saves settings in a store. -/
def saveTo (config : ReplicaConfig) (host : Host) (store : Store) : Host × Except Error Unit :=
  store.save format host fileName config

/-- Loads the settings of several stores and merges them in turn. The first store that cannot be
loaded is the error. -/
def loadStores (host : Host) (stores : List Store) : Except Error ReplicaConfig := do
  return mergeAll (← stores.mapM (loadFrom host))

/-- Loads the settings of a global and of a project store, as far as they are given. -/
def loadLayered (host : Host) (global project : Option Store) : Except Error ReplicaConfig :=
  loadStores host (global.toList ++ project.toList)

/-- Loads the settings from where they are kept by default. There is no project store where the
current directory is gone. -/
def load (host : Host) : Except Error ReplicaConfig :=
  loadLayered host (some (.global host)) (Store.currentProject host).toOption

end StateReplica.ReplicaConfig
