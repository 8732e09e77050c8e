/-
  Engines: what they work on, and what they count.

  An engine turns graphs into loaded modules. It keeps modules in memory, and the artifacts of compiled
  modules in a store if it has one.
-/
import OpFusion.Cache.Request
import OpFusion.Config
import OpFusion.Exec.Call
import OpFusion.Store.Basic

namespace OpFusion

/-- Operations of the store that are refused. -/
structure StoreFaults where
  read : Bool := false
  write : Bool := false
  remove : Bool := false

/-- How often modules were in memory and were not, were loaded from the store, were compiled, could not
be built, and were stored but unusable. -/
structure EngineStats where
  memoryHits : Nat
  memoryMisses : Nat
  storeHits : Nat
  toolchainBuilds : Nat
  failures : Nat
  corruptEntries : Nat
  deriving DecidableEq

/-- An engine and what it works on. The files, the store and the variables of loaded modules outlive
it. -/
structure Engine where
  config : Config
  files : Files := {}
  store : Option Store := none
  faults : StoreFaults := {}
  /-- The variables of each loaded module. -/
  units : List Statics := []
  /-- The modules in memory. -/
  modules : Flight.State Loaded := .empty none
  storeHits : Nat := 0
  toolchainBuilds : Nat := 0
  corruptEntries : Nat := 0
  /-- What has been reported. -/
  events : List Event := []

namespace Engine

/-- The engine with one more event. -/
def note (e : Engine) (level : Level) (message : String) (detail : Option String := none) : Engine :=
  { e with events := e.events ++ [⟨level, message, detail⟩] }

/-- A new engine on the same files and store. -/
def restart (e : Engine) : Engine :=
  { e with
    modules := .empty e.config.memoryCapacity
    storeHits := 0
    toolchainBuilds := 0
    corruptEntries := 0 }

/-- An engine with nothing in memory; there is none that keeps more modules than memory can address. -/
def start (config : Config) (store : Option Store) (files : Files) : Except Error Engine :=
  if Recency.isPossible config.memoryCapacity then .ok (restart { config, store, files })
  else .error .crash

/-- The modules in memory. -/
def resident (e : Engine) : Nat := e.modules.cache.ready.length

/-- What has been counted. -/
def stats (e : Engine) : EngineStats where
  memoryHits := e.modules.cache.stats.hits
  memoryMisses := e.modules.cache.stats.misses
  storeHits := e.storeHits
  toolchainBuilds := e.toolchainBuilds
  failures := e.modules.cache.stats.failures
  corruptEntries := e.corruptEntries

end Engine

end OpFusion
