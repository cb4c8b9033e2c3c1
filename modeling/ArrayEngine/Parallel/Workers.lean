import ArrayEngine.Parallel.Settings

/-!
# Worker pools

A pool of worker threads is started for given settings and has as many threads as they allow on the
machine. A pool can be set up anew for other settings; its threads are kept if their number stays
the same.
-/

namespace ArrayEngine

/-- A pool of worker threads. -/
structure Workers where
  platform : Platform
  settings : Parallel.Settings
  /-- The number of threads of the pool. -/
  threads : Nat

namespace Workers

/-- A new pool for given settings. -/
def start (platform : Platform) (settings : Parallel.Settings) : Workers :=
  ⟨platform, settings, settings.ceiling platform⟩

/-- Three workers on a small machine, for which no work is too little to divide it. -/
def small : Workers :=
  ⟨.small, ⟨some 3, 1⟩, 3⟩

/-- A pool for other settings, with the same threads if their number stays the same. -/
def reconfigure (workers : Workers) (settings : Parallel.Settings) : Workers :=
  if settings.ceiling workers.platform = workers.threads then { workers with settings }
  else start workers.platform settings

/-- The most threads that a computation may use. -/
def ceiling (workers : Workers) : Nat :=
  workers.settings.ceiling workers.platform

/-- The number of workers for a number of elements. A budget asked for by the caller is used in
place of the settings, but stays within the ceiling. -/
def budget (workers : Workers) (requested : Option Nat) (total : Nat) : Nat :=
  match requested with
  | some budget => Nat.min budget workers.ceiling
  | none => workers.settings.budget workers.platform total

/-- The pool as messages show it. -/
def describe (workers : Workers) : String :=
  Text.record "CpuClient"
    [("config", workers.settings.describe), ("threads", toString workers.threads)]

end Workers

end ArrayEngine
