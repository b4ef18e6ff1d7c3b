import PspBoot.Duration

/-!
# Configuration of the access chains

A `Config` says how network sources are read: how often and after which delays a failed request
is tried again, how much is kept in memory, and where blocks are kept on disk.  It is built from
`Settings`, in which every part may be left out; `Settings.build` fills in the standard values
and refuses a configuration that could never read anything.
-/

namespace PspBoot

/-- Why a set of settings is refused. -/
inductive ConfigError where
  | noAttempts
  | emptyCache
deriving Repr, Inhabited, DecidableEq

/-- The text shown for a refused configuration. -/
def ConfigError.message : ConfigError → String
  | .noAttempts => "retry policy needs at least one attempt"
  | .emptyCache => "memory cache block size and capacity must be non-zero"

/-- Bounded exponential back-off: how often a request is made, and how long to wait between two
of its attempts. -/
structure RetryPolicy where
  attempts : Nat
  firstDelay : Duration
  longestDelay : Duration
deriving Repr, Inhabited, DecidableEq

namespace RetryPolicy

/-- Three attempts, with delays that start at 50 ms and never exceed 800 ms. -/
def standard : RetryPolicy where
  attempts := 3
  firstDelay := .ofMilliseconds 50
  longestDelay := .ofMilliseconds 800

/-- The factor of the base delay after the given number of earlier delays: it doubles each time
while it fits a 32-bit word, and stays at the largest such word from then on. -/
def growth (attempt : Nat) : Nat :=
  if attempt < 32 then Nat.pow 2 attempt else UInt32.size - 1

/-- The delay after attempt number `attempt`, counted from zero. -/
def delayAfter (policy : RetryPolicy) (attempt : Nat) : Duration :=
  (policy.firstDelay.scale (growth attempt)).shorter policy.longestDelay

end RetryPolicy

/-- The extent of a memory cache: the bytes of a block and the number of blocks kept. -/
structure MemoryPolicy where
  blockSize : Nat
  capacity : Nat
deriving Repr, Inhabited, DecidableEq

/-- Room for 256 blocks of 64 KiB each. -/
def MemoryPolicy.standard : MemoryPolicy where
  blockSize := 64 * 1024
  capacity := 256

/-- How access chains are built. -/
structure Config where
  /-- A run without a user: it keeps nothing on disk. -/
  headless : Bool
  /-- The directory for blocks kept on disk, if any are to be kept. -/
  cacheDirectory : Option String
  retry : RetryPolicy
  memory : MemoryPolicy
deriving Repr, Inhabited, DecidableEq

namespace Config

/-- The directory of the disk cache inside the user's cache directory. -/
def standardCacheDirectory (cacheHome : String) : String :=
  cacheHome ++ "/psp-loader/http"

/-- The configuration of a run for which nothing has been set. -/
def standard (cacheHome : String) : Config where
  headless := false
  cacheDirectory := some (standardCacheDirectory cacheHome)
  retry := .standard
  memory := .standard

/-- The directory in which this run keeps blocks on disk. -/
def effectiveCacheDirectory (config : Config) : Option String :=
  if config.headless then none else config.cacheDirectory

/-- The parts of a configuration that have been set. -/
structure Settings where
  headless : Option Bool := none
  /-- The directory, or `some none` to keep nothing on disk. -/
  cacheDirectory : Option (Option String) := none
  retry : Option RetryPolicy := none
  memory : Option MemoryPolicy := none
deriving Repr, Inhabited, DecidableEq

/-- The settings completed from the standard configuration. -/
def Settings.complete (settings : Settings) (cacheHome : String) : Config where
  headless := settings.headless.getD (standard cacheHome).headless
  cacheDirectory := settings.cacheDirectory.getD (standard cacheHome).cacheDirectory
  retry := settings.retry.getD (standard cacheHome).retry
  memory := settings.memory.getD (standard cacheHome).memory

/-- A configuration is usable if requests are made at all and the memory cache can hold a byte. -/
structure Usable (config : Config) : Prop where
  attempts : config.retry.attempts ≠ 0
  blockSize : config.memory.blockSize ≠ 0
  capacity : config.memory.capacity ≠ 0

/-- The configuration for the settings, unless it would be unusable.  Missing attempts are
reported in preference to an empty cache. -/
def Settings.build (settings : Settings) (cacheHome : String) : Except ConfigError Config :=
  let config := settings.complete cacheHome
  if config.retry.attempts = 0 then
    .error .noAttempts
  else if config.memory.blockSize = 0 ∨ config.memory.capacity = 0 then
    .error .emptyCache
  else
    .ok config

/-- A configuration that was built is usable. -/
theorem Settings.usable_of_build {settings : Settings} {cacheHome : String} {config : Config}
    (h : settings.build cacheHome = .ok config) : config.Usable := by
  unfold Settings.build at h
  dsimp only at h
  split at h
  · simp at h
  · next hattempts =>
    split at h
    · simp at h
    · next hmemory =>
      obtain rfl := Except.ok.inj h
      exact ⟨hattempts, fun hz => hmemory (.inl hz), fun hz => hmemory (.inr hz)⟩

end Config

end PspBoot
