import Anisa.EventEmitter.Capacity

open anisa.transition

namespace anisa.eventEmitter

/-- Nothing was thrown, and a removal that removed nothing has left the limit as
    it was. -/
def Occurrence.harmless : Occurrence → Prop
  | .rangeError | .unhandledError => False
  | .removed _ found before after => found = true ∨ after = before
  | .warned _ => True

/-- No method of the emitter has thrown so far, and no stray removal has changed
    the limit. -/
def Unharmed (s : NativeEmitter) : Prop := ∀ occurrence ∈ s.trace, occurrence.harmless

variable {self : NativeEmitter} {event : EventName} {callback : Callback}

theorem unharmed_append_iff {next : NativeEmitter} {events : List Occurrence} (h : Unharmed self)
    (htrace : next.trace = self.trace ++ events) :
    Unharmed next ↔ ∀ occurrence ∈ events, occurrence.harmless := by
  unfold Unharmed
  rw [htrace, List.forall_mem_append]
  exact and_iff_right h

theorem Unharmed.of_trace {next : NativeEmitter} (h : Unharmed self) (htrace : next.trace = self.trace) :
    Unharmed next := by
  unfold Unharmed
  rwa [htrace]

theorem append_trace (self : NativeEmitter) (event : EventName) (callback : Callback) :
    (self.append event callback).trace = self.trace ∨
      (self.append event callback).trace = self.trace ++ [.warned event] := by
  unfold NativeEmitter.append
  cases self.maxListeners with
  | none => exact .inl rfl
  | some m =>
    dsimp only
    split_ifs
    · exact .inr rfl
    · exact .inl rfl

theorem Unharmed.append (h : Unharmed self) : Unharmed (self.append event callback) := by
  obtain hsame | hwarned := append_trace self event callback
  · exact h.of_trace hsame
  · rw [unharmed_append_iff h hwarned]
    simp [Occurrence.harmless]

theorem Unharmed.on (h : Unharmed self) : Unharmed (NativeEmitter.on self event callback) := by
  unfold NativeEmitter.on
  split
  · exact h.append
  · exact h.of_trace (by simp)

namespace EventEmitter

/-- What a removal needs: a limit that is not 0, and, if there is nothing to
    remove, fewer listeners than the limit allows for. -/
def RemovesSafely (s : EventEmitter) (event : EventName) (callback : Callback) : Prop :=
  s.maxListeners ≠ some 0 ∧ ((removeLast (s.events event) callback).isSome = true ∨
    ∀ m, s.maxListeners = some m → s.listenerCount event < m)

/-- The condition on a step under which nothing is thrown and no stray removal
    changes the limit. -/
def Safe (s : EventEmitter) : Action → Prop
  | .off event callback | .removeListener event callback => s.userRuns = true → RemovesSafely s event callback
  | .emit event => s.userRuns = true → event = .name "error" → s.events event ≠ []
  | .goesOn =>
    match s.frames with
    | .emitting event (.wrapper id listener :: _) _ :: _ =>
      id ∉ s.fired → RemovesSafely s event (.wrapper id listener)
    | _ => True
  | .on _ _ | .addListener _ _ | .once _ _ | .throws => True

theorem lowered_eq_iff {count : Nat} {maxListeners : Option Nat} (hmax : maxListeners ≠ some 0) :
    lowered maxListeners count = maxListeners ↔ ∀ m, maxListeners = some m → count < m := by
  cases maxListeners with
  | none => simp [lowered]
  | some m =>
    have hm : m ≠ 0 := fun h => hmax (by rw [h])
    by_cases hle : m ≤ count
    · simp [lowered, hle]
      omega
    · simp [lowered, hle]
      omega

/-- A removal, wherever it is made. -/
theorem unharmed_removal_iff {next thrown : EventEmitter} (h : Unharmed self)
    (hthrown : thrown.trace = self.trace ++ [.rangeError]) (hnext : Removes self thrown event callback next) :
    Unharmed next ↔ RemovesSafely self event callback := by
  rw [Removes, removeListener_eq] at hnext
  by_cases hmax : self.maxListeners = some 0
  · simp only [hmax, if_true] at hnext
    obtain hnext | ⟨-, rfl⟩ := hnext
    · cases hnext
    · rw [unharmed_append_iff h hthrown]
      exact iff_of_false (by simp [Occurrence.harmless]) fun hsafe => hsafe.1 hmax
  · simp only [hmax, if_false] at hnext
    obtain hnext | ⟨hnone, -⟩ := hnext
    · have htrace : next.trace = self.trace ++ [.removed event
          (removeLast (self.events event) callback).isSome
          self.maxListeners (lowered self.maxListeners (self.listenerCount event))] := by
        rw [← Option.some.inj hnext, NativeEmitter.removeListener_trace]
      rw [unharmed_append_iff h htrace, List.forall_mem_singleton, Occurrence.harmless, lowered_eq_iff hmax]
      exact (and_iff_right hmax).symm
    · cases hnone

theorem unharmed_emit_iff (h : Unharmed self) :
    Unharmed (NativeEmitter.emit self event) ↔ (event = .name "error" → self.events event ≠ []) := by
  unfold NativeEmitter.emit
  by_cases hunhandled : event = .name "error" ∧ self.events event = []
  · rw [if_pos (by simpa using hunhandled), unharmed_append_iff h rfl]
    exact iff_of_false (by simp [Occurrence.harmless]) fun hsafe => hsafe hunhandled.1 hunhandled.2
  · rw [if_neg (by simpa using hunhandled)]
    exact iff_of_true (h.of_trace (by simp)) fun herror hempty => hunhandled ⟨herror, hempty⟩

theorem unharmed_step_iff {action : Action} {next : EventEmitter} (h : Unharmed self)
    (hstep : step self action = some next) : Unharmed next ↔ Safe self action := by
  have hsame {next : EventEmitter} (htrace : next.trace = self.trace) : Unharmed next := h.of_trace htrace
  cases effect_of_step hstep with
  | on hruns listener => exact iff_of_true (Unharmed.on (hsame rfl)) trivial
  | addListener hruns listener => exact iff_of_true (Unharmed.on (hsame rfl)) trivial
  | once hruns listener => exact iff_of_true (Unharmed.on (hsame rfl)) trivial
  | off hruns hnext => simpa [Safe, hruns] using unharmed_removal_iff h rfl hnext
  | removeListener hruns hnext => simpa [Safe, hruns] using unharmed_removal_iff h rfl hnext
  | emit hruns event => simpa [Safe, hruns] using unharmed_emit_iff h
  | calls hframes =>
    simp only [Safe, hframes]
    exact iff_of_true (hsame rfl) trivial
  | passes hframes hfired =>
    simp only [Safe, hframes]
    exact iff_of_true (hsame rfl) fun hnot => absurd hfired hnot
  | @fires event id listener pending inBody frames next hframes hfired hnext =>
    simp only [Safe, hframes, hfired, not_false_iff, true_imp_iff]
    have hfiring : Unharmed
        { self with frames := .firing id :: .emitting event pending false :: frames } := hsame rfl
    have hremoval := unharmed_removal_iff hfiring rfl hnext
    exact hremoval
  | emitted hframes =>
    simp only [Safe, hframes]
    exact iff_of_true (hsame rfl) trivial
  | added hframes =>
    simp only [Safe, hframes]
    exact iff_of_true (Unharmed.append (hsame rfl)) trivial
  | fired hframes =>
    simp only [Safe, hframes]
    exact iff_of_true (hsame rfl) trivial
  | throws hframes => exact iff_of_true (hsame rfl) trivial

theorem safe_of_disabled {action : Action} (hstep : step self action = none) : Safe self action := by
  obtain ⟨rfl, hframes⟩ | rfl | ⟨hcalls, hidle⟩ := disabled_cases hstep
  · simp only [Safe, hframes]
  · trivial
  · cases action with
    | goesOn => exact absurd rfl hcalls
    | off event callback => exact fun hruns => absurd hruns hidle
    | removeListener event callback => exact fun hruns => absurd hruns hidle
    | emit event => exact fun hruns => absurd hruns hidle
    | _ => trivial

theorem unharmed_fresh (maxListeners : Option Nat) : Unharmed (NativeEmitter.fresh maxListeners) :=
  fun _ hmem => absurd hmem List.not_mem_nil

/-- For every limit to start with, and every sequence of calls, made by listeners
    or not: no call throws, and no removal of nothing changes the limit, exactly
    if every step meets the condition. -/
theorem removal_is_safe_iff (maxListeners : Option Nat) (actions : List Action) :
    machine.Always Unharmed (NativeEmitter.fresh maxListeners) actions ↔
      machine.Along Safe (NativeEmitter.fresh maxListeners) actions :=
  Machine.always_iff_along (Q := fun _ => True) (fun _ _ _ _ _ => trivial)
    (fun _ _ _ _ h hstep => unharmed_step_iff h hstep) (fun _ _ hstep => safe_of_disabled hstep)
    (unharmed_fresh maxListeners) trivial

/-- Ten listeners, and ten removals of another than those, which lower the
    default limit to 0: the next removal throws. -/
theorem removals_end_in_error : ¬ machine.Always Unharmed
    (NativeEmitter.fresh NativeEmitter.defaultMaxListeners)
    (List.replicate 10 (.on (.name "a") 0) ++ List.replicate 11 (.off (.name "a") (.listener 1))) := by
  intro halways
  have hlast := halways.last rfl
  exact absurd (hlast .rangeError (by decide)) id

end EventEmitter

end anisa.eventEmitter
