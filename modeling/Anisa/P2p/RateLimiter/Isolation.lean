import Anisa.P2p.RateLimiter.Prediction
import Anisa.Transition.Observations

open anisa.js anisa.transition

namespace anisa.p2p

variable {lib : RateLimiterFlexible} {ip other : String} {now : ℚ}

/-- The limiters treat the ip alike. -/
structure RateLimiterFlexible.Agrees (lib : RateLimiterFlexible) (ip : String) (limiter limiter' : lib.Limiter) :
    Prop where
  options : lib.options limiter = lib.options limiter'
  entry : lib.entry limiter ip = lib.entry limiter' ip

namespace RateLimiterFlexible.Agrees

variable {limiter limiter' : lib.Limiter}

theorem refl (limiter : lib.Limiter) : lib.Agrees ip limiter limiter := ⟨rfl, rfl⟩

theorem trans {limiter'' : lib.Limiter} (h : lib.Agrees ip limiter limiter') (h' : lib.Agrees ip limiter' limiter'') :
    lib.Agrees ip limiter limiter'' :=
  ⟨h.options.trans h'.options, h.entry.trans h'.entry⟩

/-- What another ip consumes is not taken from this one. -/
theorem consume_other (hlib : lib.Documented) (hne : ip ≠ other) (limiter : lib.Limiter) (now : ℚ) :
    lib.Agrees ip (lib.consume limiter other now).2 limiter :=
  ⟨hlib.options_consume limiter other now, hlib.entry_consume_of_ne limiter other now ip hne⟩

theorem consume (hlib : lib.Documented) (h : lib.Agrees ip limiter limiter') (now : ℚ) :
    (lib.consume limiter ip now).1 = (lib.consume limiter' ip now).1 ∧
      lib.Agrees ip (lib.consume limiter ip now).2 (lib.consume limiter' ip now).2 := by
  by_cases hwhite : ip ∈ (lib.options limiter).whiteList
  · rw [hlib.consume_whitelisted limiter ip now hwhite,
      hlib.consume_whitelisted limiter' ip now (h.options ▸ hwhite)]
    exact ⟨rfl, h⟩
  · have hwhite' : ip ∉ (lib.options limiter').whiteList := h.options ▸ hwhite
    refine ⟨?_, ?_, ?_⟩
    · rw [hlib.rejects limiter ip now hwhite, hlib.rejects limiter' ip now hwhite', h.options, h.entry]
    · rw [hlib.options_consume, hlib.options_consume, h.options]
    · rw [hlib.entry_consume limiter ip now hwhite, hlib.entry_consume limiter' ip now hwhite', h.options,
        h.entry]

theorem get (hlib : lib.Documented) (h : lib.Agrees ip limiter limiter') :
    lib.get limiter ip now = lib.get limiter' ip now := by
  by_cases hwhite : ip ∈ (lib.options limiter).whiteList
  · rw [hlib.get_whitelisted limiter ip now hwhite, hlib.get_whitelisted limiter' ip now (h.options ▸ hwhite)]
  · have hwhite' : ip ∉ (lib.options limiter').whiteList := h.options ▸ hwhite
    rw [hlib.get_eq limiter ip now hwhite, hlib.get_eq limiter' ip now hwhite', h.options, h.entry]

end RateLimiterFlexible.Agrees

namespace RateLimiter

variable {self target : RateLimiter lib} {endpoint : Option String}

/-- All limiters of the two treat the ip alike. -/
structure Agrees (ip : String) (limiter limiter' : RateLimiter lib) : Prop where
  global : lib.Agrees ip limiter.global limiter'.global
  endpoints : ∀ name, Option.Rel (lib.Agrees ip) (limiter.endpoints.get name) (limiter'.endpoints.get name)

theorem Agrees.refl (limiter : RateLimiter lib) : Agrees ip limiter limiter := by
  refine ⟨.refl _, fun name => ?_⟩
  cases limiter.endpoints.get name with
  | none => exact .none
  | some limiter => exact .some (.refl limiter)

/-- The relation of a limiter to one of the same name survives a change of one side that
    the ip does not see. -/
theorem endpoints_set {name : String} {limiter changed : lib.Limiter} (h : Agrees ip self target)
    (hget : self.endpoints.get name = some limiter) (hchanged : lib.Agrees ip changed limiter) (other : String) :
    Option.Rel (lib.Agrees ip) ((self.endpoints.set name changed).get other) (target.endpoints.get other) := by
  have hother := h.endpoints other
  by_cases hname : other = name
  · subst hname
    rw [hget] at hother
    cases htarget : target.endpoints.get other with
    | none =>
      rw [htarget] at hother
      cases hother
    | some limiter' =>
      rw [htarget] at hother
      cases hother with
      | some hlimiter =>
        rw [OrderedMap.get_set_self]
        exact .some (hchanged.trans hlimiter)
  · rw [OrderedMap.get_set_of_ne hname]
    exact hother

theorem Agrees.consumes_other (hlib : lib.Documented) (hne : ip ≠ other) {next : RateLimiter lib}
    (h : Agrees ip self target) (hconsumes : Consumes self other now next) : Agrees ip next target := by
  have hglobal := (RateLimiterFlexible.Agrees.consume_other hlib hne self.global now).trans h.global
  cases hconsumes with
  | global => exact ⟨hglobal, h.endpoints⟩
  | endpoint hget => exact ⟨hglobal, endpoints_set h hget (.consume_other hlib hne _ _)⟩

/-- The limiter that is asked after the global one, with its name. -/
def limiterOf (self : RateLimiter lib) (endpoint : Option String) : Option (String × lib.Limiter) :=
  (endpoint.filter (· ≠ "")).bind fun name => (self.endpoints.get name).map fun limiter => (name, limiter)

theorem hasExceededRateLimit_eq : self.hasExceededRateLimit ip endpoint now =
    if (lib.consume self.global ip now).1 then (true, { self with global := (lib.consume self.global ip now).2 })
    else
      match self.limiterOf endpoint with
      | none => (false, { self with global := (lib.consume self.global ip now).2 })
      | some (name, limiter) => ((lib.consume limiter ip now).1, {
          global := (lib.consume self.global ip now).2
          endpoints := self.endpoints.set name (lib.consume limiter ip now).2 }) := by
  unfold hasExceededRateLimit limiterOf
  cases lib.consume self.global ip now with
  | mk rejected global =>
    cases rejected with
    | true => rfl
    | false =>
      cases endpoint.filter (· ≠ "") with
      | none => rfl
      | some name => cases hget : self.endpoints.get name <;> simp [hget]

theorem Agrees.limiterOf (h : Agrees ip self target) (endpoint : Option String) :
    self.limiterOf endpoint = none ∧ target.limiterOf endpoint = none ∨
      ∃ name limiter limiter', self.limiterOf endpoint = some (name, limiter) ∧
        target.limiterOf endpoint = some (name, limiter') ∧ lib.Agrees ip limiter limiter' := by
  unfold RateLimiter.limiterOf
  cases endpoint.filter (· ≠ "") with
  | none => exact .inl ⟨rfl, rfl⟩
  | some name =>
    have hname := h.endpoints name
    simp only [Option.bind_some]
    generalize self.endpoints.get name = found at hname ⊢
    generalize target.endpoints.get name = found' at hname ⊢
    cases hname with
    | none => exact .inl ⟨rfl, rfl⟩
    | some hlimiter => exact .inr ⟨name, _, _, rfl, rfl, hlimiter⟩

theorem Agrees.hasExceededRateLimit (hlib : lib.Documented) (h : Agrees ip self target)
    (endpoint : Option String) (now : ℚ) :
    (self.hasExceededRateLimit ip endpoint now).1 = (target.hasExceededRateLimit ip endpoint now).1 ∧
      Agrees ip (self.hasExceededRateLimit ip endpoint now).2 (target.hasExceededRateLimit ip endpoint now).2 := by
  obtain ⟨hrejected, hglobal⟩ := h.global.consume hlib now
  rw [hasExceededRateLimit_eq, hasExceededRateLimit_eq, ← hrejected]
  split
  · exact ⟨rfl, hglobal, h.endpoints⟩
  · obtain ⟨hnone, hnone'⟩ | ⟨name, limiter, limiter', hsome, hsome', hlimiter⟩ := h.limiterOf endpoint
    · rw [hnone, hnone']
      exact ⟨rfl, hglobal, h.endpoints⟩
    · obtain ⟨hsame, hconsumed⟩ := hlimiter.consume hlib now
      rw [hsome, hsome']
      refine ⟨hsame, hglobal, fun other => ?_⟩
      simp only [OrderedMap.get_set]
      split
      · exact .some hconsumed
      · exact h.endpoints other

end RateLimiter

namespace RateLimiting

/-- What a caller is told. -/
inductive Answer where
  | exceeded (ip : String) (endpoint : Option String) (now : ℚ) (exceeded : Bool)
  | blocked (ip : String) (now : ℚ) (blocked : Bool)
  | status (ip : String) (endpoint : Option String) (now : ℚ) (status : IRateLimitStatus)

def Answer.caller : Answer → String
  | .exceeded ip _ _ _ | .blocked ip _ _ | .status ip _ _ _ => ip

def answer (self : RateLimiting lib) : Action → Option Answer
  | .hasExceededRateLimit ip endpoint =>
    some (.exceeded ip endpoint self.now (self.limiter.hasExceededRateLimit ip endpoint self.now).1)
  | .isBlocked ip => some (.blocked ip self.now (self.limiter.isBlocked ip self.now))
  | .getRateLimitStatus ip endpoint =>
    some (.status ip endpoint self.now (self.limiter.getRateLimitStatus ip endpoint self.now).1)
  | .clock _ => none

/-- A call about another ip. -/
def Action.isOther (ip : String) : Action → Bool
  | .hasExceededRateLimit other _ | .isBlocked other | .getRateLimitStatus other _ => other ≠ ip
  | .clock _ => false

structure Agrees (ip : String) (s t : RateLimiting lib) : Prop where
  now : s.now = t.now
  limiter : s.limiter.Agrees ip t.limiter

variable {s t : RateLimiting lib}

theorem unwinding (hlib : lib.Documented) (ip : String) : Unwinding (machine lib) answer (Agrees ip)
    (Action.isOther ip) (fun answer => answer.caller = ip) where
  hidden_step := by
    rintro ⟨now, limiter⟩ ⟨now', target⟩ action ⟨rfl, h⟩ hother
    cases action with
    | hasExceededRateLimit other endpoint =>
      have hne : other ≠ ip := by simpa [Action.isOther] using hother
      exact ⟨_, rfl, rfl, h.consumes_other hlib hne.symm RateLimiter.consumes_hasExceededRateLimit⟩
    | isBlocked other => exact ⟨_, rfl, rfl, h⟩
    | getRateLimitStatus other endpoint =>
      have hne : other ≠ ip := by simpa [Action.isOther] using hother
      exact ⟨_, rfl, rfl, h.consumes_other hlib hne.symm RateLimiter.consumes_hasExceededRateLimit⟩
    | clock now => cases hother
  hidden_see := by
    intro s action seen hother hseen
    cases action with
    | clock now => cases hother
    | _ =>
      obtain rfl := Option.some.inj hseen
      exact decide_eq_false (by simpa [Action.isOther, Answer.caller] using hother)
  step := by
    rintro ⟨now, limiter⟩ ⟨now', target⟩ action ⟨rfl, h⟩ hother
    cases action with
    | hasExceededRateLimit other endpoint =>
      obtain rfl : other = ip := by simpa [Action.isOther] using hother
      exact .some ⟨rfl, (h.hasExceededRateLimit hlib endpoint now).2⟩
    | isBlocked other => exact .some ⟨rfl, h⟩
    | getRateLimitStatus other endpoint =>
      obtain rfl : other = ip := by simpa [Action.isOther] using hother
      exact .some ⟨rfl, (h.hasExceededRateLimit hlib endpoint now).2⟩
    | clock later =>
      simp only [machine, RateLimiting.step]
      split
      · exact .some ⟨rfl, h⟩
      · exact .none
  see_eq := by
    rintro ⟨now, limiter⟩ ⟨now', target⟩ action ⟨rfl, h⟩ hother
    have hexceeded (endpoint : Option String) := (h.hasExceededRateLimit hlib endpoint now).1
    cases action with
    | hasExceededRateLimit other endpoint =>
      obtain rfl : other = ip := by simpa [Action.isOther] using hother
      simp only [answer, hexceeded]
    | isBlocked other =>
      obtain rfl : other = ip := by simpa [Action.isOther] using hother
      simp only [answer, RateLimiter.isBlocked, h.global.get hlib]
    | getRateLimitStatus other endpoint =>
      obtain rfl : other = ip := by simpa [Action.isOther] using hother
      simp only [answer, RateLimiter.getRateLimitStatus, RateLimiter.isBlocked, h.global.get hlib, hexceeded]
    | clock now => rfl
  visible_see := by
    intro s action seen hother hseen
    cases action with
    | clock now => cases hseen
    | _ =>
      obtain rfl := Option.some.inj hseen
      exact decide_eq_true (by simpa [Action.isOther, Answer.caller] using hother)

/-- What an ip is told of its calls is what it would be told if no other ip had made any,
    in whatever order the calls are made. -/
theorem answers_isolated (hlib : lib.Documented) (s : RateLimiting lib) (ip : String) (actions : List Action) :
    ((machine lib).observe answer s actions).filter (fun answer => answer.caller = ip) =
      (machine lib).observe answer s (actions.filter fun action => !action.isOther ip) :=
  (unwinding hlib ip).observe_filter ⟨rfl, .refl s.limiter⟩ actions

/-- Two ips that call in turn, with one call a second allowed. -/
theorem answers_isolated_interleaved :
    ((machine MemoryLimiter.lib).observe answer ⟨0, .buildRateLimiter MemoryLimiter.lib [] [] 1⟩
        [.hasExceededRateLimit "10.0.0.2" none, .hasExceededRateLimit "10.0.0.1" (some "p2p.peer.getPeers"),
          .hasExceededRateLimit "10.0.0.2" none, .isBlocked "10.0.0.1"]).filter
        (fun answer => answer.caller = "10.0.0.1") =
      (machine MemoryLimiter.lib).observe answer ⟨0, .buildRateLimiter MemoryLimiter.lib [] [] 1⟩
        [.hasExceededRateLimit "10.0.0.1" (some "p2p.peer.getPeers"), .isBlocked "10.0.0.1"] :=
  answers_isolated MemoryLimiter.documented _ _ _

end RateLimiting

end anisa.p2p
