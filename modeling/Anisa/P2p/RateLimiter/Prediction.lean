import Anisa.P2p.RateLimiter
import Mathlib.Tactic.Linarith

open anisa.js anisa.transition

namespace anisa.p2p

variable {lib : RateLimiterFlexible} {limiter : lib.Limiter} {ip : String} {now : ℚ}

/-- With a whole number of points, a key has none left exactly if consuming one
    more is rejected. -/
theorem RateLimiterFlexible.Documented.no_points_left_iff (hlib : lib.Documented) {points : ℕ}
    (hpoints : (lib.options limiter).points = points) (hpos : 0 < points) :
    (∃ remaining, lib.get limiter ip now = some remaining ∧ remaining ≤ 0) ↔
      (lib.consume limiter ip now).1 = true := by
  by_cases hwhite : ip ∈ (lib.options limiter).whiteList
  · rw [hlib.get_whitelisted limiter ip now hwhite, hlib.consume_whitelisted limiter ip now hwhite]
    refine ⟨?_, nofun⟩
    rintro ⟨remaining, hremaining, hnone⟩
    obtain rfl := Option.some.inj hremaining
    norm_num at hnone
  · rw [hlib.get_eq limiter ip now hwhite, hlib.rejects limiter ip now hwhite, hpoints, decide_eq_true_iff,
      consumedAt]
    cases liveAt (lib.entry limiter ip) now with
    | none =>
      have hone : ¬ (points : ℚ) < (0 : ℕ) + 1 := by
        have h : (1 : ℚ) ≤ points := by exact_mod_cast hpos
        push_cast
        linarith
      simp only [Option.map_none, Option.elim_none, hone, iff_false]
      rintro ⟨remaining, hremaining, -⟩
      cases hremaining
    | some entry =>
      simp only [Option.map_some, Option.elim_some, Option.some.injEq]
      have hcount : (points : ℚ) < entry.consumedPoints + 1 ↔ points < entry.consumedPoints + 1 := by
        exact_mod_cast Iff.rfl
      have hleft : max ((points : ℚ) - entry.consumedPoints) 0 ≤ 0 ↔ points ≤ entry.consumedPoints := by
        rw [max_le_iff, sub_nonpos, Nat.cast_le]
        exact and_iff_left (le_refl 0)
      rw [hcount, Nat.lt_succ_iff, ← hleft]
      refine ⟨?_, fun h => ⟨_, rfl, h⟩⟩
      rintro ⟨remaining, rfl, h⟩
      exact h

namespace RateLimiter

variable {self : RateLimiter lib} {endpoint : Option String} {whitelist : List String}

theorem isBlocked_iff :
    self.isBlocked ip now = true ↔ ∃ remaining, lib.get self.global ip now = some remaining ∧
      remaining ≤ 0 := by
  unfold isBlocked
  cases lib.get self.global ip now <;> simp

/-- Exceeding the global limit is enough, whatever the endpoint. -/
theorem exceeded_of_rejected (h : (lib.consume self.global ip now).1 = true) :
    (self.hasExceededRateLimit ip endpoint now).1 = true := by
  simp [hasExceededRateLimit, h]

theorem exceeded_none : (self.hasExceededRateLimit ip none now).1 = (lib.consume self.global ip now).1 := by
  cases hreject : (lib.consume self.global ip now).1 <;> simp [hasExceededRateLimit, hreject]

/-- What a call leaves: points consumed in the global limiter, and at most in one
    of the others. -/
inductive Consumes (self : RateLimiter lib) (ip : String) (now : ℚ) : RateLimiter lib → Prop
  | global : Consumes self ip now { self with global := (lib.consume self.global ip now).2 }
  | endpoint {name : String} {limiter : lib.Limiter} (hget : self.endpoints.get name = some limiter) :
      Consumes self ip now {
        global := (lib.consume self.global ip now).2
        endpoints := self.endpoints.set name (lib.consume limiter ip now).2 }

theorem consumes_hasExceededRateLimit :
    Consumes self ip now (self.hasExceededRateLimit ip endpoint now).2 := by
  unfold hasExceededRateLimit
  cases hconsume : lib.consume self.global ip now with
  | mk rejected global =>
    obtain rfl : global = (lib.consume self.global ip now).2 := by rw [hconsume]
    cases rejected with
    | true => exact .global
    | false =>
      cases endpoint.filter (· ≠ "") with
      | none => exact .global
      | some name =>
        cases hget : self.endpoints.get name with
        | none => simpa [hget] using Consumes.global
        | some limiter => simpa [hget] using Consumes.endpoint hget

/-- The limiters are those of the configuration, with the white list. -/
structure Configured (s : RateLimiter lib) (whitelist : List String) (points : ℚ) : Prop where
  points : (lib.options s.global).points = points
  global : (lib.options s.global).whiteList = whitelist
  endpoints : ∀ name limiter, s.endpoints.get name = some limiter →
    (lib.options limiter).whiteList = whitelist

theorem configured_new (hlib : lib.Documented) (whitelist : List String)
    (configurations : IRateLimiterConfigurations) :
    Configured (new lib whitelist configurations) whitelist configurations.global.rateLimit := by
  have hwhite (configuration : IRateLimiterConfiguration) :
      (lib.options (buildLimiter lib configuration whitelist)).whiteList = whitelist := by
    rw [buildLimiter, hlib.options_create]
  have hendpoints (endpoints : List IEndpointRateLimiterConfiguration) (built : OrderedMap String lib.Limiter)
      (hbuilt : ∀ name limiter, built.get name = some limiter → (lib.options limiter).whiteList = whitelist) :
      ∀ name limiter, (endpoints.foldl (fun built configuration => built.set configuration.endpoint
        (buildLimiter lib configuration.toIRateLimiterConfiguration whitelist)) built).get name = some limiter →
          (lib.options limiter).whiteList = whitelist := by
    induction endpoints generalizing built with
    | nil => exact hbuilt
    | cons configuration endpoints ih =>
      refine ih _ fun name limiter hget => ?_
      rw [OrderedMap.get_set] at hget
      split at hget
      · obtain rfl := Option.some.inj hget
        exact hwhite _
      · exact hbuilt name limiter hget
  refine ⟨?_, hwhite _, hendpoints _ .empty fun _ _ hget => by cases hget⟩
  rw [new, buildLimiter, hlib.options_create]

theorem Configured.consumes (hlib : lib.Documented) {points : ℚ} {next : RateLimiter lib}
    (h : Configured self whitelist points) (hconsumes : Consumes self ip now next) :
    Configured next whitelist points := by
  cases hconsumes with
  | global => exact ⟨by rw [hlib.options_consume, h.points], by rw [hlib.options_consume, h.global],
      h.endpoints⟩
  | @endpoint name limiter hget =>
    refine ⟨by rw [hlib.options_consume, h.points], by rw [hlib.options_consume, h.global], ?_⟩
    intro other stored hstored
    rw [OrderedMap.get_set] at hstored
    split at hstored
    · obtain rfl := Option.some.inj hstored
      rw [hlib.options_consume, h.endpoints name limiter hget]
    · exact h.endpoints other stored hstored

/-- A whitelisted ip exceeds no limit. -/
theorem Configured.not_exceeded (hlib : lib.Documented) {points : ℚ} (h : Configured self whitelist points)
    (hwhite : ip ∈ whitelist) : (self.hasExceededRateLimit ip endpoint now).1 = false := by
  have hglobal := hlib.consume_whitelisted self.global ip now (h.global ▸ hwhite)
  simp only [hasExceededRateLimit, hglobal, Bool.false_eq_true, if_false]
  split
  · rfl
  · split
    · rfl
    · rename_i name _ _ limiter hget
      exact congrArg Prod.fst (hlib.consume_whitelisted limiter ip now
        (h.endpoints name limiter hget ▸ hwhite))

theorem Configured.not_blocked (hlib : lib.Documented) {points : ℚ} (h : Configured self whitelist points)
    (hwhite : ip ∈ whitelist) : self.isBlocked ip now = false := by
  rw [isBlocked, hlib.get_whitelisted self.global ip now (h.global ▸ hwhite)]
  norm_num

end RateLimiter

namespace RateLimiting

/-- What `isBlocked` and `getRateLimitStatus` say now about the calls made now. -/
structure Predicts (whitelist : List String) (s : RateLimiting lib) : Prop where
  blocked : ∀ ip, s.limiter.isBlocked ip s.now = (s.limiter.hasExceededRateLimit ip none s.now).1
  status : ∀ ip endpoint, (s.limiter.getRateLimitStatus ip endpoint s.now).1.blocked = true →
    (s.limiter.getRateLimitStatus ip endpoint s.now).1.exceededLimitOnEndpoint = true
  whitelisted : ∀ ip ∈ whitelist, ∀ endpoint, s.limiter.isBlocked ip s.now = false ∧
    (s.limiter.hasExceededRateLimit ip endpoint s.now).1 = false ∧
    (s.limiter.getRateLimitStatus ip endpoint s.now).1 = ⟨false, false⟩

variable {s t : RateLimiting lib} {whitelist : List String}

theorem configured_step (hlib : lib.Documented) {points : ℚ} {action : Action}
    (h : s.limiter.Configured whitelist points) (hstep : s.step action = some t) :
    t.limiter.Configured whitelist points := by
  cases action with
  | hasExceededRateLimit ip endpoint =>
    obtain rfl := Option.some.inj hstep
    exact h.consumes hlib RateLimiter.consumes_hasExceededRateLimit
  | isBlocked ip =>
    obtain rfl := Option.some.inj hstep
    exact h
  | getRateLimitStatus ip endpoint =>
    obtain rfl := Option.some.inj hstep
    exact h.consumes hlib RateLimiter.consumes_hasExceededRateLimit
  | clock now =>
    simp only [step] at hstep
    split at hstep
    · obtain rfl := Option.some.inj hstep
      exact h
    · cases hstep

theorem predicts_of_configured (hlib : lib.Documented) {points : ℕ} (hpos : 0 < points)
    (h : s.limiter.Configured whitelist points) : Predicts whitelist s := by
  have hiff (ip : String) : s.limiter.isBlocked ip s.now = true ↔
      (lib.consume s.limiter.global ip s.now).1 = true :=
    RateLimiter.isBlocked_iff.trans (hlib.no_points_left_iff h.points hpos)
  constructor
  case blocked =>
    intro ip
    rw [RateLimiter.exceeded_none, Bool.eq_iff_iff]
    exact hiff ip
  case status =>
    intro ip endpoint hblocked
    exact RateLimiter.exceeded_of_rejected ((hiff ip).mp hblocked)
  case whitelisted =>
    intro ip hwhite endpoint
    have hblocked : s.limiter.isBlocked ip s.now = false := h.not_blocked hlib hwhite
    have hexceeded : (s.limiter.hasExceededRateLimit ip endpoint s.now).1 = false := h.not_exceeded hlib hwhite
    exact ⟨hblocked, hexceeded, congrArg₂ IRateLimitStatus.mk hblocked hexceeded⟩

/-- Whatever calls are made of a rate limiter whose global limit is a whole
    number of points, at each moment `isBlocked` tells what a call made at that
    moment would find. -/
theorem isBlocked_predicts (hlib : lib.Documented) (whitelist : List String)
    (configurations : IRateLimiterConfigurations) {points : ℕ} (hpos : 0 < points)
    (hwhole : configurations.global.rateLimit = points) (start : ℚ) (actions : List Action) :
    (machine lib).Always (Predicts whitelist) ⟨start, .new lib whitelist configurations⟩ actions := by
  have hstart := RateLimiter.configured_new hlib whitelist configurations
  rw [hwhole] at hstart
  exact (Machine.always_of_step (P := fun s : RateLimiting lib => s.limiter.Configured whitelist points)
    (fun _ _ _ h hstep => configured_step hlib h hstep) hstart).imp
      fun _ h => predicts_of_configured hlib hpos h

/-- The limiter of the default configuration, called until its window closes. -/
theorem isBlocked_predicts_default :
    (machine MemoryLimiter.lib).Always (Predicts ["127.0.0.1", "::ffff:127.0.0.1"])
      ⟨0, .buildRateLimiter MemoryLimiter.lib [] ["127.0.0.1", "::ffff:127.0.0.1"] 100⟩
      [.hasExceededRateLimit "10.0.0.1" (some "p2p.peer.getPeers"), .getRateLimitStatus "10.0.0.1" none,
        .isBlocked "10.0.0.1", .clock 1000, .hasExceededRateLimit "10.0.0.1" none] :=
  isBlocked_predicts MemoryLimiter.documented _ _ (Nat.succ_pos 99) rfl 0 _

/-- Half a point a second: the first call exceeds the limit, yet before it the ip
    is not blocked. -/
theorem fractional_limit_not_predicted :
    MemoryLimiter.lib.Documented ∧ (0 : ℚ) < 1 / 2 ∧
      (RateLimiter.buildRateLimiter MemoryLimiter.lib [] [] (1 / 2)).isBlocked "10.0.0.1" 0 = false ∧
      ((RateLimiter.buildRateLimiter MemoryLimiter.lib [] [] (1 / 2)).hasExceededRateLimit
        "10.0.0.1" none 0).1 = true := by
  refine ⟨MemoryLimiter.documented, by norm_num, rfl, ?_⟩
  have hover : (1 / 2 : ℚ) < (0 + 1 : ℕ) := by norm_num
  rw [RateLimiter.exceeded_none]
  exact decide_eq_true hover

end RateLimiting

end anisa.p2p
