import Anisa.P2p.RateLimiter.Admissions

open anisa.js anisa.transition

namespace anisa.p2p

variable {lib : RateLimiterFlexible} {ip : String} {now stop : ℚ}

theorem LimiterOptions.expiry_of_over {options : LimiterOptions} {entry : LimiterEntry}
    (hlive : now < entry.expiresAt) (hover : options.points < entry.consumedPoints) :
    options.expiry (some entry) now = entry.expiresAt := by
  have hopen : liveAt (some entry) now = some entry := by simp [liveAt, hlive]
  have hconsumed : consumedAt (some entry) now = entry.consumedPoints := by rw [consumedAt, hopen]; rfl
  have hnot : ¬ (consumedAt (some entry) now : ℚ) ≤ options.points := by
    rw [hconsumed]
    exact not_le.mpr hover
  unfold LimiterOptions.expiry
  rw [hopen]
  cases options.blockDuration with
  | none => rfl
  | some blockDuration => exact if_neg fun h => hnot h.1.2

theorem LimiterOptions.expiry_of_first {options : LimiterOptions} {entry : Option LimiterEntry}
    {blockDuration : ℚ}
    (hblock : options.blockDuration = some blockDuration) (hpos : 0 < blockDuration)
    (hrejected : options.points < consumedAt entry now + 1) (hfirst : consumedAt entry now ≤ options.points) :
    options.expiry entry now = now + 1000 * blockDuration := by
  rw [LimiterOptions.expiry, hblock]
  exact if_pos ⟨⟨hrejected, hfirst⟩, hpos⟩

theorem consumedAt_of_live {consumedPoints : ℕ} (hlive : now < stop) :
    consumedAt (some ⟨consumedPoints, stop⟩) now = consumedPoints := by
  simp [consumedAt, liveAt, Option.filter, hlive]

theorem liveAt_of_expired {consumedPoints : ℕ} (hexpired : ¬ now < stop) :
    liveAt (some ⟨consumedPoints, stop⟩) now = none := by
  simp [liveAt, Option.filter, hexpired]

/-- The limiter has banned the ip: its entry is over the limit, and expires when the ban
    ends. -/
structure RateLimiterFlexible.Bans (lib : RateLimiterFlexible) (limits : LimiterOptions) (ip : String)
    (stop : ℚ) (limiter : lib.Limiter) : Prop where
  options : lib.options limiter = limits
  entry : ∃ consumedPoints : ℕ, lib.entry limiter ip = some ⟨consumedPoints, stop⟩ ∧
    limits.points < consumedPoints

namespace RateLimiterFlexible.Bans

variable {limits : LimiterOptions} {limiter : lib.Limiter}

/-- The call that first exceeds the limit starts the ban. -/
theorem of_rejected (hlib : lib.Documented) {blockDuration : ℚ}
    (hblock : (lib.options limiter).blockDuration = some blockDuration) (hpos : 0 < blockDuration)
    (hip : ip ∉ (lib.options limiter).whiteList) (hrejected : (lib.consume limiter ip now).1 = true)
    (hfirst : consumedAt (lib.entry limiter ip) now ≤ (lib.options limiter).points) :
    lib.Bans (lib.options limiter) ip (now + 1000 * blockDuration) (lib.consume limiter ip now).2 := by
  rw [hlib.rejects limiter ip now hip, decide_eq_true_iff] at hrejected
  refine ⟨hlib.options_consume limiter ip now, consumedAt (lib.entry limiter ip) now + 1, ?_, ?_⟩
  · rw [hlib.entry_consume limiter ip now hip, LimiterOptions.expiry_of_first hblock hpos hrejected hfirst]
  · exact_mod_cast hrejected

/-- A call made while banned does not extend the ban. -/
theorem consume_self (hlib : lib.Documented) (h : lib.Bans limits ip stop limiter)
    (hip : ip ∉ limits.whiteList)
    (hnow : now < stop) : lib.Bans limits ip stop (lib.consume limiter ip now).2 := by
  obtain ⟨rfl, consumedPoints, hentry, hover⟩ := h
  refine ⟨hlib.options_consume limiter ip now, consumedPoints + 1, ?_, ?_⟩
  · rw [hlib.entry_consume limiter ip now hip, hentry, consumedAt_of_live hnow,
      LimiterOptions.expiry_of_over hnow hover]
  · push_cast
    linarith

theorem consume_other (hlib : lib.Documented) (h : lib.Bans limits ip stop limiter) {other : String}
    (hne : ip ≠ other) (now : ℚ) : lib.Bans limits ip stop (lib.consume limiter other now).2 := by
  refine ⟨by rw [hlib.options_consume, h.options], ?_⟩
  rw [hlib.entry_consume_of_ne limiter other now ip hne]
  exact h.entry

/-- Calls are rejected exactly until the ban ends. -/
theorem rejects_iff (hlib : lib.Documented) (h : lib.Bans limits ip stop limiter)
    (hip : ip ∉ limits.whiteList)
    (hpoints : 1 ≤ limits.points) : (lib.consume limiter ip now).1 = true ↔ now < stop := by
  obtain ⟨rfl, consumedPoints, hentry, hover⟩ := h
  rw [hlib.rejects limiter ip now hip, decide_eq_true_iff, hentry]
  by_cases hnow : now < stop
  · simp only [consumedAt_of_live hnow, hnow, iff_true]
    linarith
  · simpa [consumedAt, liveAt_of_expired hnow, hnow] using hpoints

theorem no_points_left_iff (hlib : lib.Documented) (h : lib.Bans limits ip stop limiter)
    (hip : ip ∉ limits.whiteList) :
    (∃ remaining, lib.get limiter ip now = some remaining ∧ remaining ≤ 0) ↔ now < stop := by
  obtain ⟨rfl, consumedPoints, hentry, hover⟩ := h
  rw [hlib.get_eq limiter ip now hip, hentry]
  by_cases hnow : now < stop
  · have hnone : max ((lib.options limiter).points - consumedPoints) 0 ≤ 0 := by
      rw [max_le_iff]
      exact ⟨by linarith, le_refl 0⟩
    simpa [liveAt, Option.filter, hnow] using hnone
  · simp [liveAt_of_expired hnow, hnow]

end RateLimiterFlexible.Bans

namespace RateLimiting

/-- When the ban ends that the ip is under. -/
def bannedUntil (self : RateLimiting lib) (ip : String) : Option ℚ :=
  ((liveAt (lib.entry self.limiter.global ip) self.now).filter fun entry =>
    (lib.options self.limiter.global).points < entry.consumedPoints).map LimiterEntry.expiresAt

/-- A call that counts for the limits of the ip. -/
def Action.isCallOf (ip : String) : Action → Bool
  | .hasExceededRateLimit caller _ | .getRateLimitStatus caller _ => caller = ip
  | .isBlocked _ | .clock _ => false

/-- What a ban is to the ip: until it ends, it is blocked and no call of any endpoint is let
    through, and from then on it is not, and the global limit does not stop a call. -/
structure Banned (ip : String) (stop : ℚ) (s : RateLimiting lib) : Prop where
  blocked : s.limiter.isBlocked ip s.now = true ↔ s.now < stop
  during : s.now < stop → ∀ endpoint, (s.limiter.hasExceededRateLimit ip endpoint s.now).1 = true
  after : stop ≤ s.now → (s.limiter.hasExceededRateLimit ip none s.now).1 = false

variable {s t : RateLimiting lib} {action : Action} {limits : LimiterOptions}

theorem consumedAt_le_of_free (hnone : s.bannedUntil ip = none)
    (hpoints : 0 ≤ (lib.options s.limiter.global).points) :
    consumedAt (lib.entry s.limiter.global ip) s.now ≤ (lib.options s.limiter.global).points := by
  unfold bannedUntil at hnone
  unfold consumedAt
  cases hlive : liveAt (lib.entry s.limiter.global ip) s.now with
  | none => simpa using hpoints
  | some entry =>
    rw [hlive, Option.map_eq_none_iff] at hnone
    simpa [Option.filter] using hnone

theorem banned_of_bans (hlib : lib.Documented) (hip : ip ∉ limits.whiteList) (hpoints : 1 ≤ limits.points)
    (h : lib.Bans limits ip stop s.limiter.global) : Banned ip stop s where
  blocked := RateLimiter.isBlocked_iff.trans (h.no_points_left_iff hlib hip)
  during hnow _ := RateLimiter.exceeded_of_rejected ((h.rejects_iff hlib hip hpoints).mpr hnow)
  after hover := by
    rw [RateLimiter.exceeded_none]
    by_contra hrejected
    exact not_lt.mpr hover ((h.rejects_iff hlib hip hpoints).mp (by simpa using hrejected))

/-- A ban lasts as long as the ip makes no call once it is over. -/
theorem bans_step (hlib : lib.Documented) (hip : ip ∉ limits.whiteList)
    (h : lib.Bans limits ip stop s.limiter.global)
    (hcall : action.isCallOf ip = true → s.now < stop) (hstep : s.step action = some t) :
    lib.Bans limits ip stop t.limiter.global := by
  have hafter (caller : String) (endpoint : Option String) (hcaller : caller = ip → s.now < stop) :
      lib.Bans limits ip stop (s.limiter.hasExceededRateLimit caller endpoint s.now).2.global := by
    rw [RateLimiter.global_hasExceededRateLimit]
    by_cases hsame : caller = ip
    · subst hsame
      exact h.consume_self hlib hip (hcaller rfl)
    · exact h.consume_other hlib (Ne.symm hsame) s.now
  cases action with
  | hasExceededRateLimit caller endpoint =>
    obtain rfl := Option.some.inj hstep
    exact hafter caller endpoint fun hsame => hcall (decide_eq_true hsame)
  | isBlocked caller =>
    obtain rfl := Option.some.inj hstep
    exact h
  | getRateLimitStatus caller endpoint =>
    obtain rfl := Option.some.inj hstep
    exact hafter caller endpoint fun hsame => hcall (decide_eq_true hsame)
  | clock now =>
    simp only [step] at hstep
    split at hstep
    · obtain rfl := Option.some.inj hstep
      exact h
    · cases hstep

/-- Once a call of an ip that is not banned exceeds the global limit, a ban begins that ends
    after `blockDuration`, whatever calls this ip makes until then and others make at all. -/
theorem ban_lasts (hlib : lib.Documented) (whitelist : List String)
    (configurations : IRateLimiterConfigurations)
    {blockDuration : ℚ} (hblock : configurations.global.blockDuration = some blockDuration)
    (hpos : 0 < blockDuration) (hpoints : 1 ≤ configurations.global.rateLimit) (hip : ip ∉ whitelist)
    (start : ℚ) {before : List Action}
    (hrun : (machine lib).run ⟨start, .new lib whitelist configurations⟩ before = some s)
    (hfree : s.bannedUntil ip = none) (hexceeded : (s.limiter.hasExceededRateLimit ip none s.now).1 = true)
    (hcall : action.isCallOf ip = true) (hstep : s.step action = some t) (actions : List Action)
    (halong : (machine lib).Along
      (fun u action => action.isCallOf ip = true → u.now < s.now + 1000 * blockDuration) t actions) :
    (machine lib).Always (Banned ip (s.now + 1000 * blockDuration)) t actions := by
  let limits := configurations.global.limiterOptions whitelist
  have hlimits : lib.options s.limiter.global = limits := by
    refine Machine.run_invariant (P := fun s => lib.options s.limiter.global = limits) ?_ ?_ hrun
    · intro s action t hs hstep
      rw [← hs]
      cases effect_of_step hstep with
      | call caller endpoint =>
        dsimp only
        rw [RateLimiter.global_hasExceededRateLimit, hlib.options_consume]
      | idle => rfl
    · exact hlib.options_create limits
  rw [RateLimiter.exceeded_none] at hexceeded
  have hfirst : consumedAt (lib.entry s.limiter.global ip) s.now ≤ (lib.options s.limiter.global).points :=
    consumedAt_le_of_free hfree (by rw [hlimits]; exact le_trans zero_le_one hpoints)
  have hglobal : t.limiter.global = (lib.consume s.limiter.global ip s.now).2 := by
    cases action with
    | hasExceededRateLimit caller endpoint =>
      obtain rfl : caller = ip := of_decide_eq_true hcall
      obtain rfl := Option.some.inj hstep
      exact RateLimiter.global_hasExceededRateLimit
    | getRateLimitStatus caller endpoint =>
      obtain rfl : caller = ip := of_decide_eq_true hcall
      obtain rfl := Option.some.inj hstep
      exact RateLimiter.global_hasExceededRateLimit
    | isBlocked caller => cases hcall
    | clock now => cases hcall
  have hbans : lib.Bans limits ip (s.now + 1000 * blockDuration) t.limiter.global := by
    rw [hglobal, ← hlimits]
    exact .of_rejected hlib (by rw [hlimits]; exact hblock) hpos (by rw [hlimits]; exact hip) hexceeded hfirst
  have hlasts := Machine.always_of_along
    (P := fun u => lib.Bans limits ip (s.now + 1000 * blockDuration) u.limiter.global)
    (fun u action v hu hcall hstep => bans_step hlib hip hu hcall hstep) hbans halong
  exact hlasts.imp fun u hu => banned_of_bans hlib hip hpoints hu

/-- One call a second is allowed, and a second one is made. -/
theorem ban_lasts_minute :
    ∃ t, (machine MemoryLimiter.lib).run ⟨0, .buildRateLimiter MemoryLimiter.lib [] [] 1⟩
        [.hasExceededRateLimit "10.0.0.1" none, .clock 500,
          .hasExceededRateLimit "10.0.0.1" (some "p2p.peer.getStatus")] = some t ∧
      (machine MemoryLimiter.lib).Always (Banned "10.0.0.1" 60500) t
        [.clock 60000, .hasExceededRateLimit "10.0.0.1" none, .clock 60500] := by
  let called := ((RateLimiter.buildRateLimiter MemoryLimiter.lib [] [] 1).hasExceededRateLimit "10.0.0.1"
    none 0).2
  have hclock (limiter : RateLimiter MemoryLimiter.lib) {now later : ℚ} (hlater : now ≤ later) :
      (machine MemoryLimiter.lib).step ⟨now, limiter⟩ (.clock later) = some ⟨later, limiter⟩ := if_pos hlater
  have hrun : (machine MemoryLimiter.lib).run ⟨0, .buildRateLimiter MemoryLimiter.lib [] [] 1⟩
      [.hasExceededRateLimit "10.0.0.1" none, .clock 500] = some ⟨500, called⟩ :=
    Machine.run_cons_eq_some.mpr ⟨⟨0, called⟩, rfl,
      Machine.run_singleton (hclock called (by norm_num))⟩
  have hfree : RateLimiting.bannedUntil ⟨500, called⟩ "10.0.0.1" = none := by decide +kernel
  have hexceeded : (called.hasExceededRateLimit "10.0.0.1" none 500).1 = true := by decide +kernel
  have hip : "10.0.0.1" ∉ ([] : List String) := List.not_mem_nil
  have hcall : Action.isCallOf "10.0.0.1"
      (.hasExceededRateLimit "10.0.0.1" (some "p2p.peer.getStatus")) = true := rfl
  refine ⟨_, Machine.run_trans hrun (Machine.run_singleton rfl), ?_⟩
  have hlasts := ban_lasts MemoryLimiter.documented [] _ rfl (by norm_num) (by norm_num) hip 0 hrun hfree
    hexceeded hcall rfl [.clock 60000, .hasExceededRateLimit "10.0.0.1" none, .clock 60500] ?_
  · norm_num at hlasts
    exact hlasts
  · have hbefore : (500 : ℚ) ≤ 60000 := by norm_num
    have hafter : (60000 : ℚ) ≤ 60500 := by norm_num
    refine Machine.along_cons_of_step (fun h => by cases h) (hclock _ hbefore) ?_
    refine Machine.along_cons_of_step (fun _ => by norm_num) rfl ?_
    exact Machine.along_cons_of_step (fun h => by cases h) (hclock _ hafter) trivial

end RateLimiting

end anisa.p2p
