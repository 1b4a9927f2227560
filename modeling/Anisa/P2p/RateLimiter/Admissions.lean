import Anisa.P2p.RateLimiter.Isolation
import Mathlib.Tactic.Linarith

open anisa.js anisa.transition

namespace anisa.p2p

/-! One limiter, and one key of it. -/

/-- A whole number of points, and no ban that is shorter than the window. -/
structure LimiterOptions.Regular (options : LimiterOptions) (points : ℕ) : Prop where
  points : options.points = points
  duration : 0 < options.duration
  block : ∀ blockDuration, options.blockDuration = some blockDuration → options.duration ≤ blockDuration

/-- How many calls may still be let through until the span that begins at `start` is
    over. A window that is open when it begins has had a call, and may end in it, for
    another one to begin. -/
def LimiterOptions.budget (options : LimiterOptions) (points : ℕ) (start : ℚ) (entry : Option LimiterEntry)
    (now : ℚ) : ℕ :=
  if now < start then 2 * points - 1
  else if start + 1000 * options.duration ≤ now then 0
  else
    match liveAt entry now with
    | none => points
    | some entry =>
      (points - entry.consumedPoints) + if start + 1000 * options.duration ≤ entry.expiresAt then 0 else points

variable {options : LimiterOptions} {points : ℕ} {start now later : ℚ} {entry : Option LimiterEntry}

theorem liveAt_eq_some_iff {live : LimiterEntry} :
    liveAt entry now = some live ↔ entry = some live ∧ now < live.expiresAt := by
  simp [liveAt, Option.filter_eq_some_iff]

theorem budget_le (hentry : ∀ live, entry = some live → 0 < live.consumedPoints) :
    options.budget points start entry now ≤ 2 * points - 1 := by
  unfold LimiterOptions.budget
  split_ifs
  · exact Nat.le_refl _
  · exact Nat.zero_le _
  · split
    · omega
    · rename_i live hlive
      have hconsumed := hentry live (liveAt_eq_some_iff.mp hlive).1
      split_ifs <;> omega

/-- Time passing raises no budget. -/
theorem budget_clock_le (hentry : ∀ live, entry = some live → 0 < live.consumedPoints) (hlater : now ≤ later) :
    options.budget points start entry later ≤ options.budget points start entry now := by
  by_cases hbefore : now < start
  · have hmost : options.budget points start entry now = 2 * points - 1 := if_pos hbefore
    rw [hmost]
    exact budget_le hentry
  · have hstarted : ¬ later < start := fun h => hbefore (lt_of_le_of_lt hlater h)
    by_cases hover : start + 1000 * options.duration ≤ later
    · have hnone : options.budget points start entry later = 0 := by
        rw [LimiterOptions.budget, if_neg hstarted, if_pos hover]
      rw [hnone]
      exact Nat.zero_le _
    · have hopen : ¬ start + 1000 * options.duration ≤ now := fun h => hover (le_trans h hlater)
      rw [LimiterOptions.budget, LimiterOptions.budget, if_neg hbefore, if_neg hstarted, if_neg hover,
        if_neg hopen]
      cases hlive : liveAt entry later with
      | some live =>
        obtain ⟨rfl, hexpires⟩ := liveAt_eq_some_iff.mp hlive
        rw [liveAt_eq_some_iff.mpr ⟨rfl, lt_of_le_of_lt hlater hexpires⟩]
      | none =>
        cases hnow : liveAt entry now with
        | none => exact Nat.le_refl _
        | some live =>
          obtain ⟨rfl, -⟩ := liveAt_eq_some_iff.mp hnow
          have hexpired : live.expiresAt ≤ later := by
            by_contra h
            rw [liveAt_eq_some_iff.mpr ⟨rfl, not_le.mp h⟩] at hlive
            cases hlive
          have hends : ¬ start + 1000 * options.duration ≤ live.expiresAt := fun h => hover (le_trans h hexpired)
          simp only [if_neg hends]
          omega

/-- Where the window ends that a call leaves: in the future, and where the window that
    was open ends, or no sooner than a new one would. -/
theorem LimiterOptions.Regular.expiry (h : options.Regular points) (entry : Option LimiterEntry) (now : ℚ) :
    now < options.expiry entry now ∧
      ((∃ live, liveAt entry now = some live ∧ options.expiry entry now = live.expiresAt) ∨
        now + 1000 * options.duration ≤ options.expiry entry now) := by
  have hduration := h.duration
  have hwindow : now < (liveAt entry now).elim (now + 1000 * options.duration) LimiterEntry.expiresAt ∧
      ((∃ live, liveAt entry now = some live ∧
        (liveAt entry now).elim (now + 1000 * options.duration) LimiterEntry.expiresAt = live.expiresAt) ∨
        now + 1000 * options.duration ≤
          (liveAt entry now).elim (now + 1000 * options.duration) LimiterEntry.expiresAt) := by
    cases hlive : liveAt entry now with
    | none => exact ⟨by simpa using hduration, .inr (le_refl _)⟩
    | some live => exact ⟨(liveAt_eq_some_iff.mp hlive).2, .inl ⟨live, rfl, rfl⟩⟩
  unfold LimiterOptions.expiry
  cases hblock : options.blockDuration with
  | none => exact hwindow
  | some blockDuration =>
    have hlonger := h.block blockDuration hblock
    dsimp only
    split_ifs
    · exact ⟨by linarith, .inr (by linarith)⟩
    · exact hwindow

theorem budget_of_none (hstart : ¬ now < start) (hopen : ¬ start + 1000 * options.duration ≤ now)
    (hnone : liveAt entry now = none) : options.budget points start entry now = points := by
  rw [LimiterOptions.budget, if_neg hstart, if_neg hopen, hnone]

theorem budget_of_live {live : LimiterEntry} (hstart : ¬ now < start)
    (hopen : ¬ start + 1000 * options.duration ≤ now) (hlive : liveAt entry now = some live) :
    options.budget points start entry now = (points - live.consumedPoints) +
      if start + 1000 * options.duration ≤ live.expiresAt then 0 else points := by
  rw [LimiterOptions.budget, if_neg hstart, if_neg hopen, hlive]

/-- A call let through in the span is paid for. -/
theorem budget_consume_add_le (h : options.Regular points) (start : ℚ) (entry : Option LimiterEntry) (now : ℚ) :
    options.budget points start (some ⟨consumedAt entry now + 1, options.expiry entry now⟩) now +
      (if start ≤ now ∧ now < start + 1000 * options.duration ∧ consumedAt entry now + 1 ≤ points then 1 else 0) ≤
    options.budget points start entry now := by
  by_cases hbefore : now < start
  · rw [if_neg fun hin => not_lt.mpr hin.1 hbefore, LimiterOptions.budget, LimiterOptions.budget,
      if_pos hbefore, if_pos hbefore, Nat.add_zero]
  by_cases hover : start + 1000 * options.duration ≤ now
  · rw [if_neg fun hin => not_lt.mpr hover hin.2.1, LimiterOptions.budget, if_neg hbefore, if_pos hover]
    exact Nat.zero_le _
  obtain ⟨hfuture, hends⟩ := h.expiry entry now
  have hlive : liveAt (some ⟨consumedAt entry now + 1, options.expiry entry now⟩) now =
      some ⟨consumedAt entry now + 1, options.expiry entry now⟩ := liveAt_eq_some_iff.mpr ⟨rfl, hfuture⟩
  have hstarted : start ≤ now := not_lt.mp hbefore
  have hin : (start ≤ now ∧ now < start + 1000 * options.duration ∧ consumedAt entry now + 1 ≤ points) ↔
      consumedAt entry now + 1 ≤ points := by simp [hstarted, not_le.mp hover]
  rw [budget_of_live hbefore hover hlive]
  simp only [hin]
  have hclosed (hnew : now + 1000 * options.duration ≤ options.expiry entry now) :
      start + 1000 * options.duration ≤ options.expiry entry now := by linarith
  cases hentry : liveAt entry now with
  | none =>
    have hnew : now + 1000 * options.duration ≤ options.expiry entry now := by
      obtain ⟨live, hsome, -⟩ | hnew := hends
      · rw [hentry] at hsome
        cases hsome
      · exact hnew
    have hzero : consumedAt entry now = 0 := by rw [consumedAt, hentry]; rfl
    rw [budget_of_none hbefore hover hentry, if_pos (hclosed hnew), hzero]
    split_ifs <;> omega
  | some live =>
    have hconsumed : consumedAt entry now = live.consumedPoints := by rw [consumedAt, hentry]; rfl
    rw [budget_of_live hbefore hover hentry, hconsumed]
    obtain ⟨live', hsome, hsame⟩ | hnew := hends
    · obtain rfl : live = live' := Option.some.inj (hentry.symm.trans hsome)
      rw [hsame]
      split_ifs <;> omega
    · rw [if_pos (hclosed hnew)]
      split_ifs <;> omega

/-- A limiter with these options, whose entry of the ip was left by a call. -/
structure RateLimiterFlexible.Used (lib : RateLimiterFlexible) (options : LimiterOptions) (ip : String)
    (limiter : lib.Limiter) : Prop where
  options : lib.options limiter = options
  consumed : ∀ live, lib.entry limiter ip = some live → 0 < live.consumedPoints

theorem RateLimiterFlexible.Used.consume {lib : RateLimiterFlexible} {ip caller : String} {limiter : lib.Limiter}
    (hlib : lib.Documented) (hip : ip ∉ options.whiteList) (h : lib.Used options ip limiter) :
    lib.Used options ip (lib.consume limiter caller now).2 := by
  obtain ⟨rfl, hconsumed⟩ := h
  refine ⟨hlib.options_consume _ _ _, fun live hlive => ?_⟩
  by_cases hcaller : caller = ip
  · subst hcaller
    rw [hlib.entry_consume _ _ _ hip] at hlive
    obtain rfl := Option.some.inj hlive
    exact Nat.succ_pos _
  · rw [hlib.entry_consume_of_ne _ _ _ _ (Ne.symm hcaller)] at hlive
    exact hconsumed live hlive

namespace RateLimiter

variable {lib : RateLimiterFlexible} {self : RateLimiter lib} {ip name : String} {endpoint : Option String}
  {limiter : lib.Limiter}

theorem global_hasExceededRateLimit :
    (self.hasExceededRateLimit ip endpoint now).2.global = (lib.consume self.global ip now).2 := by
  cases hafter : (self.hasExceededRateLimit ip endpoint now).2 with
  | mk global endpoints =>
    have hconsumes : Consumes self ip now (self.hasExceededRateLimit ip endpoint now).2 :=
      consumes_hasExceededRateLimit
    rw [hafter] at hconsumes
    cases hconsumes <;> rfl

theorem limiterOf_of_get (hname : name ≠ "") (hget : self.endpoints.get name = some limiter) :
    self.limiterOf (some name) = some (name, limiter) := by
  have hfilter : (some name).filter (fun name => decide (name ≠ "")) = some name := by
    simp [Option.filter, hname]
  rw [limiterOf, hfilter, Option.bind_some, hget]
  rfl

/-- The limiter of a name is not asked, or is, of a call of that endpoint that the global
    one lets through, and then its answer is the answer. -/
theorem endpoints_hasExceededRateLimit (hget : self.endpoints.get name = some limiter) (ip : String)
    (endpoint : Option String) (now : ℚ) :
    (self.hasExceededRateLimit ip endpoint now).2.endpoints.get name = some limiter ∧
        (self.limiterOf endpoint = some (name, limiter) → (self.hasExceededRateLimit ip endpoint now).1 = true) ∨
      (self.hasExceededRateLimit ip endpoint now).2.endpoints.get name = some (lib.consume limiter ip now).2 ∧
        (self.hasExceededRateLimit ip endpoint now).1 = (lib.consume limiter ip now).1 := by
  rw [hasExceededRateLimit_eq]
  split
  · exact .inl ⟨hget, fun _ => rfl⟩
  · cases hasked : self.limiterOf endpoint with
    | none => exact .inl ⟨hget, fun h => by cases h⟩
    | some asked =>
      obtain ⟨askedName, askedLimiter⟩ := asked
      have hfound : self.endpoints.get askedName = some askedLimiter := by
        obtain ⟨key, -, hmap⟩ := Option.bind_eq_some_iff.mp hasked
        obtain ⟨found, hfound, hpair⟩ := Option.map_eq_some_iff.mp hmap
        obtain ⟨rfl, rfl⟩ := Prod.mk.inj hpair
        exact hfound
      by_cases hname : name = askedName
      · subst hname
        obtain rfl : limiter = askedLimiter := Option.some.inj (hget.symm.trans hfound)
        exact .inr ⟨OrderedMap.get_set_self, rfl⟩
      · refine .inl ⟨by rw [← hget]; exact OrderedMap.get_set_of_ne hname, fun h => ?_⟩
        exact absurd (congrArg Prod.fst (Option.some.inj h)).symm hname

end RateLimiter

namespace RateLimiting

variable {lib : RateLimiterFlexible} {ip : String}

/-- The call that was let through, of an answer that lets one through. -/
def Answer.admission : Answer → Option (String × Option String × ℚ)
  | .exceeded ip endpoint now false => some (ip, endpoint, now)
  | .status ip endpoint now ⟨_, false⟩ => some (ip, endpoint, now)
  | _ => none

/-- A call of the ip was let through in the span, of an endpoint that is counted. -/
def Answer.admitsIn (ip : String) (counts : Option String → Bool) (start stop : ℚ) (answer : Answer) : Bool :=
  match answer.admission with
  | some (caller, endpoint, now) => caller = ip && counts endpoint && start ≤ now && now < stop
  | none => false

/-- What a step is to the limits: a call, or nothing but time passing. -/
inductive Effect (s : RateLimiting lib) (shown : Option Answer) : RateLimiting lib → Prop
  | call (caller : String) (endpoint : Option String)
      (hshown : ∀ answer, shown = some answer → answer.admission =
        if (s.limiter.hasExceededRateLimit caller endpoint s.now).1 then none
        else some (caller, endpoint, s.now)) :
      Effect s shown { s with limiter := (s.limiter.hasExceededRateLimit caller endpoint s.now).2 }
  | idle {now : ℚ} (hnow : s.now ≤ now) (hshown : ∀ answer, shown = some answer → answer.admission = none) :
      Effect s shown { s with now }

theorem effect_of_step {s t : RateLimiting lib} {action : Action} (hstep : s.step action = some t) :
    Effect s (s.answer action) t := by
  cases action with
  | hasExceededRateLimit caller endpoint =>
    obtain rfl := Option.some.inj hstep
    refine .call caller endpoint fun answer hanswer => ?_
    obtain rfl := Option.some.inj hanswer
    cases (s.limiter.hasExceededRateLimit caller endpoint s.now).1 <;> rfl
  | isBlocked caller =>
    obtain rfl := Option.some.inj hstep
    refine .idle (le_refl _) fun answer hanswer => ?_
    obtain rfl := Option.some.inj hanswer
    rfl
  | getRateLimitStatus caller endpoint =>
    obtain rfl := Option.some.inj hstep
    refine .call caller endpoint fun answer hanswer => ?_
    obtain rfl := Option.some.inj hanswer
    simp only [RateLimiter.getRateLimitStatus]
    cases (s.limiter.hasExceededRateLimit caller endpoint s.now).1 <;> rfl
  | clock now =>
    simp only [RateLimiting.step] at hstep
    split at hstep
    · rename_i hnow
      obtain rfl := Option.some.inj hstep
      exact .idle hnow fun answer hanswer => by cases hanswer
    · cases hstep

/-- An entry that changes only as its limiter is asked, and counted answers that were
    given only when the limiter let the call through. -/
structure Metered (lib : RateLimiterFlexible) (options : LimiterOptions) (points : ℕ) (start : ℚ)
    (holds : RateLimiting lib → Prop) (entry : RateLimiting lib → Option LimiterEntry) (counted : Answer → Bool) :
    Prop where
  consumed : ∀ s, holds s → ∀ live, entry s = some live → 0 < live.consumedPoints
  keeps : ∀ s action t, holds s → s.step action = some t → holds t
  step : ∀ s action t, holds s → s.step action = some t →
    entry t = entry s ∧ s.now ≤ t.now ∧ (∀ answer, s.answer action = some answer → counted answer = false) ∨
    entry t = some ⟨consumedAt (entry s) s.now + 1, options.expiry (entry s) s.now⟩ ∧ t.now = s.now ∧
      ∀ answer, s.answer action = some answer → counted answer = true →
        start ≤ s.now ∧ s.now < start + 1000 * options.duration ∧ consumedAt (entry s) s.now + 1 ≤ points

/-- In a span of the length of a window less is let through than two windows allow. -/
theorem Metered.count_le {holds : RateLimiting lib → Prop} {entry : RateLimiting lib → Option LimiterEntry}
    {counted : Answer → Bool} (h : Metered lib options points start holds entry counted)
    (hregular : options.Regular points) {s : RateLimiting lib} (hs : holds s) (actions : List Action) :
    ((machine lib).observe answer s actions).countP counted ≤ 2 * points - 1 := by
  refine Nat.le_trans (Machine.countP_observe_le (P := holds)
    (μ := fun s => options.budget points start (entry s) s.now) h.keeps ?_ hs)
    (budget_le (h.consumed s hs))
  intro s action t hs hstep
  obtain ⟨hentry, hnow, hnone⟩ | ⟨hentry, hnow, hsome⟩ := h.step s action t hs hstep
  · have hnothing : (s.answer action).toList.countP counted = 0 := by
      rw [List.countP_eq_zero]
      intro answer hanswer
      simp [hnone answer (Option.mem_toList.mp hanswer)]
    rw [hentry, hnothing]
    exact budget_clock_le (h.consumed s hs) hnow
  · have hpaid := budget_consume_add_le hregular start (entry s) s.now
    have hone : (s.answer action).toList.countP counted ≤ if start ≤ s.now ∧
        s.now < start + 1000 * options.duration ∧ consumedAt (entry s) s.now + 1 ≤ points then 1 else 0 := by
      cases hanswer : s.answer action with
      | none => exact Nat.zero_le _
      | some answer =>
        cases hcounted : counted answer with
        | true =>
          rw [if_pos (hsome answer hanswer hcounted)]
          simp [hcounted]
        | false => simp [hcounted]
    rw [hentry, hnow]
    omega

/-- A limiter that lets a call through had a point left. -/
theorem consumed_le_of_not_rejected (hlib : lib.Documented) {limiter : lib.Limiter} {points : ℕ}
    (hpoints : (lib.options limiter).points = points) (hip : ip ∉ (lib.options limiter).whiteList)
    (hnot : (lib.consume limiter ip now).1 = false) : consumedAt (lib.entry limiter ip) now + 1 ≤ points := by
  rw [hlib.rejects limiter ip now hip, hpoints, decide_eq_false_iff_not, not_lt] at hnot
  exact_mod_cast hnot

/-- What an admission that is counted tells. -/
theorem admitsIn_of_call {counts : Option String → Bool} {stop : ℚ} {caller : String} {endpoint : Option String}
    {exceeded : Bool} {answer : Answer} (hshown : answer.admission =
      if exceeded then none else some (caller, endpoint, now))
    (hcounted : answer.admitsIn ip counts start stop = true) :
    exceeded = false ∧ caller = ip ∧ counts endpoint = true ∧ start ≤ now ∧ now < stop := by
  cases exceeded with
  | true => simp [Answer.admitsIn, hshown] at hcounted
  | false => simpa [Answer.admitsIn, hshown, and_assoc] using hcounted

theorem metered_global (hlib : lib.Documented) (hregular : options.Regular points) (hip : ip ∉ options.whiteList)
    (start : ℚ) : Metered lib options points start (fun s => lib.Used options ip s.limiter.global)
      (fun s => lib.entry s.limiter.global ip)
      (Answer.admitsIn ip (fun _ => true) start (start + 1000 * options.duration)) where
  consumed s hs := hs.consumed
  keeps s action t hs hstep := by
    cases effect_of_step hstep with
    | call caller endpoint =>
      dsimp only
      rw [RateLimiter.global_hasExceededRateLimit]
      exact hs.consume hlib hip
    | idle => exact hs
  step s action t hs hstep := by
    obtain ⟨rfl, -⟩ := hs
    cases effect_of_step hstep with
    | idle hnow hshown => exact .inl ⟨rfl, hnow, fun answer h => by simp [Answer.admitsIn, hshown answer h]⟩
    | call caller endpoint hshown =>
      dsimp only
      rw [RateLimiter.global_hasExceededRateLimit]
      by_cases hcaller : caller = ip
      · subst hcaller
        refine .inr ⟨hlib.entry_consume _ _ _ hip, rfl, fun answer hanswer hcounted => ?_⟩
        obtain ⟨hadmitted, -, -, hstart, hstop⟩ := admitsIn_of_call (hshown answer hanswer) hcounted
        refine ⟨hstart, hstop, consumed_le_of_not_rejected hlib hregular.points hip ?_⟩
        by_contra hrejected
        rw [RateLimiter.exceeded_of_rejected (by simpa using hrejected)] at hadmitted
        cases hadmitted
      · refine .inl ⟨hlib.entry_consume_of_ne _ _ _ _ (Ne.symm hcaller), le_refl _, fun answer hanswer => ?_⟩
        by_contra hcounted
        exact hcaller (admitsIn_of_call (hshown answer hanswer) (by simpa using hcounted)).2.1

theorem metered_endpoint (hlib : lib.Documented) (hregular : options.Regular points)
    (hip : ip ∉ options.whiteList) {name : String} (hname : name ≠ "") (start : ℚ) :
    Metered lib options points start
      (fun s => ∃ limiter, s.limiter.endpoints.get name = some limiter ∧ lib.Used options ip limiter)
      (fun s => (s.limiter.endpoints.get name).bind (lib.entry · ip))
      (Answer.admitsIn ip (· = some name) start (start + 1000 * options.duration)) where
  consumed s hs live hlive := by
    obtain ⟨limiter, hget, hused⟩ := hs
    rw [hget] at hlive
    exact hused.consumed live hlive
  keeps s action t hs hstep := by
    obtain ⟨limiter, hget, hused⟩ := hs
    cases effect_of_step hstep with
    | call caller endpoint =>
      obtain ⟨hsame, -⟩ | ⟨hconsumed, -⟩ := RateLimiter.endpoints_hasExceededRateLimit hget caller
        endpoint s.now
      · exact ⟨limiter, hsame, hused⟩
      · exact ⟨_, hconsumed, hused.consume hlib hip⟩
    | idle => exact ⟨limiter, hget, hused⟩
  step s action t hs hstep := by
    obtain ⟨limiter, hget, rfl, -⟩ := hs
    cases effect_of_step hstep with
    | idle hnow hshown => exact .inl ⟨rfl, hnow, fun answer h => by simp [Answer.admitsIn, hshown answer h]⟩
    | call caller endpoint hshown =>
      obtain ⟨hsame, hnot⟩ | ⟨hconsumed, hadmits⟩ := RateLimiter.endpoints_hasExceededRateLimit hget caller
        endpoint s.now
      · refine .inl ⟨by rw [hsame, hget], le_refl _, fun answer hanswer => ?_⟩
        by_contra hcounted
        obtain ⟨hadmitted, -, hendpoint, -⟩ :=
          admitsIn_of_call (hshown answer hanswer) (by simpa using hcounted)
        obtain rfl : endpoint = some name := by simpa using hendpoint
        rw [hnot (RateLimiter.limiterOf_of_get hname hget)] at hadmitted
        cases hadmitted
      · by_cases hcaller : caller = ip
        · subst hcaller
          refine .inr ⟨by rw [hconsumed, hget]; exact hlib.entry_consume _ _ _ hip, rfl, ?_⟩
          intro answer hanswer hcounted
          obtain ⟨hadmitted, -, -, hstart, hstop⟩ := admitsIn_of_call (hshown answer hanswer) hcounted
          rw [hadmits] at hadmitted
          rw [hget]
          exact ⟨hstart, hstop, consumed_le_of_not_rejected hlib hregular.points hip hadmitted⟩
        · refine .inl ⟨?_, le_refl _, fun answer hanswer => ?_⟩
          · rw [hconsumed, hget]
            exact hlib.entry_consume_of_ne _ _ _ _ (Ne.symm hcaller)
          · by_contra hcounted
            exact hcaller (admitsIn_of_call (hshown answer hanswer) (by simpa using hcounted)).2.1

/-- Nothing is stored in a limiter that was just created. -/
theorem used_create (hlib : lib.Documented) (options : LimiterOptions) : lib.Used options ip (lib.create options) := by
  refine ⟨hlib.options_create options, fun live hlive => ?_⟩
  rw [hlib.entry_create] at hlive
  cases hlive

end RateLimiting

/-- What the limiter of a configuration is created with. -/
def IRateLimiterConfiguration.limiterOptions (self : IRateLimiterConfiguration) (whitelist : List String) :
    LimiterOptions where
  points := self.rateLimit
  duration := (self.duration.filter (· ≠ 0)).getD 1
  blockDuration := self.blockDuration
  whiteList := whitelist

namespace RateLimiting

/-- The limiter of an endpoint that is configured once. -/
theorem used_endpoint (hlib : lib.Documented) (whitelist : List String)
    {configurations : IRateLimiterConfigurations} {configuration : IEndpointRateLimiterConfiguration}
    (hmem : configuration ∈ configurations.endpoints.getD [])
    (honce : ∀ other ∈ configurations.endpoints.getD [],
      other.endpoint = configuration.endpoint → other = configuration) :
    ∃ limiter, (RateLimiter.new lib whitelist configurations).endpoints.get configuration.endpoint =
        some limiter ∧
      lib.Used (configuration.limiterOptions whitelist) ip limiter := by
  let built := (configurations.endpoints.getD []).map fun other => (other.endpoint,
    RateLimiter.buildLimiter lib other.toIRateLimiterConfiguration whitelist)
  have hnew : (RateLimiter.new lib whitelist configurations).endpoints =
      OrderedMap.empty.insertAll built := by
    rw [OrderedMap.insertAll, List.foldl_map]
    rfl
  have hsome : (built.reverse.lookup configuration.endpoint).isSome = true := by
    rw [List.lookup_isSome_iff]
    exact ⟨_, List.mem_reverse.mpr (List.mem_map_of_mem hmem), by simp⟩
  obtain ⟨limiter, hlimiter⟩ := Option.isSome_iff_exists.mp hsome
  obtain ⟨before, after, hsplit, -⟩ := List.lookup_eq_some_iff.mp hlimiter
  have hbuilt : (configuration.endpoint, limiter) ∈ built := by
    rw [← List.mem_reverse, hsplit]
    exact List.mem_append_right _ List.mem_cons_self
  obtain ⟨other, hother, hpair⟩ := List.mem_map.mp hbuilt
  obtain ⟨hname, rfl⟩ := Prod.mk.inj hpair
  obtain rfl := honce other hother hname
  exact ⟨_, by rw [hnew, OrderedMap.get_insertAll, hlimiter]; rfl, used_create hlib _⟩

/-- In any span as long as the window of a limiter, an ip that is limited gets less calls
    through than twice the points: of all endpoints together by the global limiter, and of
    an endpoint that is configured by its own. -/
theorem admissions_bounded (hlib : lib.Documented) (whitelist : List String)
    (configurations : IRateLimiterConfigurations) (hip : ip ∉ whitelist) (now start : ℚ)
    (actions : List Action) :
    (∀ points, (configurations.global.limiterOptions whitelist).Regular points →
      ((machine lib).observe answer ⟨now, .new lib whitelist configurations⟩ actions).countP
        (Answer.admitsIn ip (fun _ => true) start
          (start + 1000 * (configurations.global.limiterOptions whitelist).duration)) ≤ 2 * points - 1) ∧
    ∀ configuration ∈ configurations.endpoints.getD [],
      (∀ other ∈ configurations.endpoints.getD [],
        other.endpoint = configuration.endpoint → other = configuration) →
      configuration.endpoint ≠ "" → ∀ points, (configuration.limiterOptions whitelist).Regular points →
      ((machine lib).observe answer ⟨now, .new lib whitelist configurations⟩ actions).countP
        (Answer.admitsIn ip (· = some configuration.endpoint) start
          (start + 1000 * (configuration.limiterOptions whitelist).duration)) ≤ 2 * points - 1 := by
  refine ⟨fun points hregular => ?_, fun configuration hmem honce hname points hregular => ?_⟩
  · exact (metered_global hlib hregular hip start).count_le hregular (used_create hlib _) actions
  · exact (metered_endpoint hlib hregular hip hname start).count_le hregular
      (used_endpoint hlib whitelist hmem honce) actions

/-- Two calls a second, of which one is made early, one late, and two when the next
    window begins. -/
def statusCalls : List Action :=
  [.hasExceededRateLimit "10.0.0.1" (some "p2p.peer.getStatus"), .clock 900,
    .getRateLimitStatus "10.0.0.1" (some "p2p.peer.getStatus"), .clock 1000,
    .hasExceededRateLimit "10.0.0.1" (some "p2p.peer.getStatus"),
    .hasExceededRateLimit "10.0.0.1" (some "p2p.peer.getStatus"),
    .hasExceededRateLimit "10.0.0.1" (some "p2p.peer.getStatus")]

def statusConfiguration : IEndpointRateLimiterConfiguration := { rateLimit := 2, endpoint := "p2p.peer.getStatus" }

theorem admissions_bounded_status :
    ((machine MemoryLimiter.lib).observe answer
      ⟨0, .new MemoryLimiter.lib [] ⟨{ rateLimit := 100, blockDuration := some 60 }, some [statusConfiguration]⟩⟩
      statusCalls).countP (Answer.admitsIn "10.0.0.1" (· = some "p2p.peer.getStatus") 900 1900) = 3 := by
  refine Nat.le_antisymm ?_ ?_
  · have hregular : (statusConfiguration.limiterOptions []).Regular 2 :=
      ⟨rfl, by norm_num [statusConfiguration, IRateLimiterConfiguration.limiterOptions], fun _ h => by cases h⟩
    have hip : "10.0.0.1" ∉ ([] : List String) := List.not_mem_nil
    have hbound := (admissions_bounded MemoryLimiter.documented []
      ⟨{ rateLimit := 100, blockDuration := some 60 }, some [statusConfiguration]⟩ hip 0 900
      statusCalls).2 statusConfiguration (by simp) (by simp) (by decide) 2 hregular
    norm_num [statusConfiguration, IRateLimiterConfiguration.limiterOptions] at hbound ⊢
    exact hbound
  · decide +kernel

end RateLimiting

end anisa.p2p
