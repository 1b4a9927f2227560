import Anisa.Js.OrderedMap
import Anisa.Transition
import Mathlib.Data.Rat.Defs
import Mathlib.Algebra.Order.Ring.Rat

open anisa.js anisa.transition

namespace anisa.p2p

/-- What a limiter of rate-limiter-flexible is created with: durations are in
    seconds, and the keys of the white list are not limited. -/
structure LimiterOptions where
  points : ℚ
  duration : ℚ
  blockDuration : Option ℚ
  whiteList : List String

/-- What a limiter has stored for a key. Times are in milliseconds. -/
structure LimiterEntry where
  consumedPoints : ℕ
  expiresAt : ℚ

/-- The entry that has not expired. -/
def liveAt (entry : Option LimiterEntry) (now : ℚ) : Option LimiterEntry :=
  entry.filter fun entry => now < entry.expiresAt

/-- The points consumed in the window that is open. -/
def consumedAt (entry : Option LimiterEntry) (now : ℚ) : ℕ :=
  (liveAt entry now).elim 0 LimiterEntry.consumedPoints

/-- When the entry expires that a `consume` leaves: a window lasts for `duration`
    from its first `consume`, and the first rejection extends it to
    `blockDuration`. -/
def LimiterOptions.expiry (options : LimiterOptions) (entry : Option LimiterEntry) (now : ℚ) : ℚ :=
  let window := (liveAt entry now).elim (now + 1000 * options.duration) LimiterEntry.expiresAt
  let firstRejection := options.points < consumedAt entry now + 1 ∧ consumedAt entry now ≤ options.points
  match options.blockDuration with
  | some blockDuration => if firstRejection ∧ 0 < blockDuration then now + 1000 * blockDuration else window
  | none => window

/-- `RLWrapperBlackAndWhite` around `RateLimiterMemory`: `consume` tells whether
    its promise is rejected, `get` how many points remain, or `none` for `null`.
    The limiter's options and entries are what its documentation speaks of. -/
structure RateLimiterFlexible where
  Limiter : Type
  create : LimiterOptions → Limiter
  consume : Limiter → String → ℚ → Bool × Limiter
  get : Limiter → String → ℚ → Option ℚ
  options : Limiter → LimiterOptions
  entry : Limiter → String → Option LimiterEntry

/-- The library behaves as documented. -/
structure RateLimiterFlexible.Documented (lib : RateLimiterFlexible) : Prop where
  options_create : ∀ options, lib.options (lib.create options) = options
  entry_create : ∀ options key, lib.entry (lib.create options) key = none
  options_consume : ∀ limiter key now, lib.options (lib.consume limiter key now).2 = lib.options limiter
  consume_whitelisted : ∀ limiter key now, key ∈ (lib.options limiter).whiteList →
    lib.consume limiter key now = (false, limiter)
  get_whitelisted : ∀ limiter key now, key ∈ (lib.options limiter).whiteList →
    lib.get limiter key now = some 9007199254740991
  rejects : ∀ limiter key now, key ∉ (lib.options limiter).whiteList →
    (lib.consume limiter key now).1 =
      decide ((lib.options limiter).points < consumedAt (lib.entry limiter key) now + 1)
  entry_consume : ∀ limiter key now, key ∉ (lib.options limiter).whiteList →
    lib.entry (lib.consume limiter key now).2 key =
      some ⟨consumedAt (lib.entry limiter key) now + 1,
        (lib.options limiter).expiry (lib.entry limiter key) now⟩
  entry_consume_of_ne : ∀ limiter key now other, other ≠ key →
    lib.entry (lib.consume limiter key now).2 other = lib.entry limiter other
  get_eq : ∀ limiter key now, key ∉ (lib.options limiter).whiteList →
    lib.get limiter key now = (liveAt (lib.entry limiter key) now).map fun entry =>
      max ((lib.options limiter).points - entry.consumedPoints) 0

/-- A limiter that behaves as documented, to evaluate runs with. -/
structure MemoryLimiter where
  options : LimiterOptions
  entry : String → Option LimiterEntry

namespace MemoryLimiter

def consume (self : MemoryLimiter) (key : String) (now : ℚ) : Bool × MemoryLimiter :=
  if key ∈ self.options.whiteList then (false, self)
  else
    let consumed := consumedAt (self.entry key) now + 1
    let stored : LimiterEntry := ⟨consumed, self.options.expiry (self.entry key) now⟩
    (decide (self.options.points < consumed),
      { self with entry := Function.update self.entry key (some stored) })

def get (self : MemoryLimiter) (key : String) (now : ℚ) : Option ℚ :=
  if key ∈ self.options.whiteList then some 9007199254740991
  else (liveAt (self.entry key) now).map fun entry => max (self.options.points - entry.consumedPoints) 0

def lib : RateLimiterFlexible where
  Limiter := MemoryLimiter
  create options := ⟨options, fun _ => none⟩
  consume := consume
  get := get
  options := MemoryLimiter.options
  entry := MemoryLimiter.entry

theorem documented : lib.Documented where
  options_create _ := rfl
  entry_create _ _ := rfl
  options_consume limiter key now := by
    change (consume limiter key now).2.options = limiter.options
    unfold consume
    split <;> rfl
  consume_whitelisted _ _ _ h := if_pos h
  get_whitelisted _ _ _ h := if_pos h
  rejects limiter key now h := by
    have hconsume : lib.consume limiter key now = _ := if_neg h
    rw [hconsume]
    exact decide_eq_decide.mpr (by push_cast; rfl)
  entry_consume limiter key now h := by
    have hconsume : lib.consume limiter key now = _ := if_neg h
    rw [hconsume]
    exact Function.update_self key _ _
  entry_consume_of_ne limiter key now other hne := by
    change (consume limiter key now).2.entry other = limiter.entry other
    unfold consume
    split
    · rfl
    · exact Function.update_of_ne hne _ _
  get_eq _ _ _ h := if_neg h

end MemoryLimiter

structure IRateLimiterConfiguration where
  rateLimit : ℚ
  duration : Option ℚ := none
  blockDuration : Option ℚ := none

structure IEndpointRateLimiterConfiguration extends IRateLimiterConfiguration where
  endpoint : String

/-- `endpoints` is `none` where it is absent. -/
structure IRateLimiterConfigurations where
  global : IRateLimiterConfiguration
  endpoints : Option (List IEndpointRateLimiterConfiguration)

structure RateLimiter (lib : RateLimiterFlexible) where
  global : lib.Limiter
  endpoints : OrderedMap String lib.Limiter

structure IRateLimitStatus where
  blocked : Bool
  exceededLimitOnEndpoint : Bool

namespace RateLimiter

variable {lib : RateLimiterFlexible}

/-- `buildRateLimiter` of the class; a duration that is absent or 0 is 1. -/
def buildLimiter (lib : RateLimiterFlexible) (configuration : IRateLimiterConfiguration)
    (whitelist : List String) : lib.Limiter :=
  lib.create {
    points := configuration.rateLimit
    duration := (configuration.duration.filter (· ≠ 0)).getD 1
    blockDuration := configuration.blockDuration
    whiteList := whitelist }

def new (lib : RateLimiterFlexible) (whitelist : List String) (configurations : IRateLimiterConfigurations) :
    RateLimiter lib where
  global := buildLimiter lib configurations.global whitelist
  endpoints := (configurations.endpoints.getD []).foldl (fun endpoints configuration =>
    endpoints.set configuration.endpoint
      (buildLimiter lib configuration.toIRateLimiterConfiguration whitelist)) .empty

/-- Whether the limit is exceeded, and the limiter with the points consumed. The
    endpoint is not asked once the global limit is exceeded. -/
def hasExceededRateLimit (self : RateLimiter lib) (ip : String) (endpoint : Option String) (now : ℚ) :
    Bool × RateLimiter lib :=
  let (rejected, global) := lib.consume self.global ip now
  let self := { self with global }
  if rejected then (true, self)
  else
    match endpoint.filter (· ≠ "") with
    | none => (false, self)
    | some endpoint =>
      match self.endpoints.get endpoint with
      | none => (false, self)
      | some limiter =>
        let (rejected, limiter) := lib.consume limiter ip now
        (rejected, { self with endpoints := self.endpoints.set endpoint limiter })

def isBlocked (self : RateLimiter lib) (ip : String) (now : ℚ) : Bool :=
  match lib.get self.global ip now with
  | none => false
  | some remainingPoints => remainingPoints ≤ 0

/-- `NetworkMonitor.getRateLimitStatus`. -/
def getRateLimitStatus (self : RateLimiter lib) (ip : String) (endpoint : Option String) (now : ℚ) :
    IRateLimitStatus × RateLimiter lib :=
  let blocked := self.isBlocked ip now
  let (exceededLimitOnEndpoint, self) := self.hasExceededRateLimit ip endpoint now
  ({ blocked, exceededLimitOnEndpoint }, self)

/-- `buildRateLimiter` of the utilities, with the options it reads. -/
def buildRateLimiter (lib : RateLimiterFlexible) (whitelist remoteAccess : List String) (rateLimit : ℚ) :
    RateLimiter lib :=
  new lib (whitelist ++ remoteAccess) {
    global := { rateLimit, blockDuration := some 60 }
    endpoints := some [
      { rateLimit := 2, duration := some 4, endpoint := "p2p.peer.postBlock" },
      { rateLimit := 1, duration := some 2, endpoint := "p2p.peer.getBlocks" },
      { rateLimit := 1, endpoint := "p2p.peer.getPeers" },
      { rateLimit := 2, endpoint := "p2p.peer.getStatus" },
      { rateLimit := 9, endpoint := "p2p.peer.getCommonBlocks" }] }

end RateLimiter

/-- A rate limiter in use, and the time. -/
structure RateLimiting (lib : RateLimiterFlexible) where
  now : ℚ
  limiter : RateLimiter lib

namespace RateLimiting

inductive Action where
  | hasExceededRateLimit (ip : String) (endpoint : Option String)
  | isBlocked (ip : String)
  | getRateLimitStatus (ip : String) (endpoint : Option String)
  | clock (now : ℚ)

variable {lib : RateLimiterFlexible}

/-- A call made now, or time passing. -/
def step (self : RateLimiting lib) : Action → Option (RateLimiting lib)
  | .hasExceededRateLimit ip endpoint =>
    some { self with limiter := (self.limiter.hasExceededRateLimit ip endpoint self.now).2 }
  | .isBlocked _ => some self
  | .getRateLimitStatus ip endpoint =>
    some { self with limiter := (self.limiter.getRateLimitStatus ip endpoint self.now).2 }
  | .clock now => if self.now ≤ now then some { self with now } else none

def machine (lib : RateLimiterFlexible) : Machine (RateLimiting lib) Action := ⟨step⟩

end RateLimiting

end anisa.p2p
