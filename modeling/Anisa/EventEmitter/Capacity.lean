import Anisa.EventEmitter.Effect

open anisa.transition

namespace anisa.eventEmitter

/-- The limit allows for that many listeners; 0 and `Infinity` are no limit. -/
def Fits (maxListeners : Option Nat) (count : Nat) : Prop :=
  ∀ m, maxListeners = some m → m ≠ 0 → count ≤ m

/-- One listener more, if it is the event's and is added at once. -/
def NativeEmitter.added (self : NativeEmitter) (event e : EventName) : Nat :=
  if e = event ∧ self.events (.name "newListener") = [] then 1 else 0

/-- The capacity covers the listeners of every event, and Node has not warned. -/
structure Covered (s : NativeEmitter) : Prop where
  fits : ∀ e, Fits s.maxListeners (s.listenerCount e)
  unwarned : ∀ e, .warned e ∉ s.trace

variable {self : NativeEmitter} {event : EventName} {callback : Callback}

theorem length_removeLast {callbacks rest : List Callback} {listener : Callback}
    (h : removeLast callbacks listener = some rest) : rest.length + 1 = callbacks.length := by
  unfold removeLast at h
  split at h
  · rename_i hany
    obtain ⟨entry, hmem, his⟩ := List.any_eq_true.mp hany
    cases h
    have hlength : (callbacks.reverse.eraseP (·.is listener)).length = callbacks.reverse.length.pred :=
      List.length_eraseP_of_mem (List.mem_reverse.mpr hmem) his
    have hpos := List.length_pos_of_mem hmem
    rw [List.length_reverse, hlength, List.length_reverse, Nat.pred_eq_sub_one]
    omega
  · cases h

namespace NativeEmitter

@[simp] theorem startEmit_events : (self.startEmit event).events = self.events := by
  unfold startEmit
  split <;> rfl

@[simp] theorem startEmit_maxListeners : (self.startEmit event).maxListeners = self.maxListeners := by
  unfold startEmit
  split <;> rfl

@[simp] theorem startEmit_trace : (self.startEmit event).trace = self.trace := by
  unfold startEmit
  split <;> rfl

/-- Without a warning so far, the capacity covers one listener more exactly if
    the limit allows for it, and then there is no warning either. -/
theorem covered_append_iff (hunwarned : ∀ e, .warned e ∉ self.trace) :
    Covered (self.append event callback) ↔
      ∀ e, Fits self.maxListeners (self.listenerCount e + if e = event then 1 else 0) := by
  have hcount (e : EventName) : (self.append event callback).listenerCount e =
      self.listenerCount e + if e = event then 1 else 0 := by
    by_cases he : e = event
    · subst he
      simp [append, listenerCount]
    · simp [append, listenerCount, he]
  refine ⟨fun h e => hcount e ▸ h.fits e, fun h => ⟨fun e => (hcount e).symm ▸ h e, ?_⟩⟩
  intro e
  have hevent := h event
  rw [if_pos rfl] at hevent
  unfold append
  cases hmax : self.maxListeners with
  | none => simpa using hunwarned e
  | some m =>
    have hnoleak : (!(self.events event).isEmpty && 0 < m && m < (self.events event ++ [callback]).length) =
        false := by
      by_cases hm : m = 0
      · simp [hm]
      · have hle := hevent m hmax hm
        rw [listenerCount] at hle
        simp
        omega
    simp only [hnoleak]
    exact hunwarned e

theorem covered_congr {next : NativeEmitter} (hevents : next.events = self.events)
    (hmax : next.maxListeners = self.maxListeners) (htrace : next.trace = self.trace) :
    Covered next ↔ Covered self := by
  have hcount (e : EventName) : next.listenerCount e = self.listenerCount e := by
    rw [listenerCount, hevents, listenerCount]
  refine ⟨fun h => ⟨fun e => ?_, fun e => htrace ▸ h.unwarned e⟩,
    fun h => ⟨fun e => ?_, fun e => htrace.symm ▸ h.unwarned e⟩⟩
  · rw [← hmax, ← hcount]
    exact h.fits e
  · rw [hmax, hcount]
    exact h.fits e

theorem covered_on_iff (hunwarned : ∀ e, .warned e ∉ self.trace) :
    Covered (self.on event callback) ↔
      ∀ e, Fits self.maxListeners (self.listenerCount e + self.added event e) := by
  unfold on added
  by_cases hnew : self.events (.name "newListener") = []
  · simp only [hnew, List.isEmpty_nil, if_true, and_true]
    exact covered_append_iff hunwarned
  · simp only [List.isEmpty_iff, hnew, if_false, and_false, Nat.add_zero]
    refine Iff.trans (@covered_congr self _ (by simp) (by simp) (by simp)) ?_
    exact ⟨fun h => h.fits, fun h => ⟨h, hunwarned⟩⟩

@[simp] theorem removeListener_maxListeners :
    (self.removeListener event callback).maxListeners = self.maxListeners := by
  unfold removeListener
  split <;> simp

@[simp] theorem removeListener_trace : (self.removeListener event callback).trace = self.trace := by
  unfold removeListener
  split <;> simp

theorem listenerCount_removeListener (e : EventName) : (self.removeListener event callback).listenerCount e =
    if (removeLast (self.events event) callback).isSome = true ∧ e = event then self.listenerCount e - 1
    else self.listenerCount e := by
  unfold removeListener listenerCount
  cases hremove : removeLast (self.events event) callback with
  | none => simp
  | some rest =>
    have hlength := length_removeLast hremove
    by_cases he : e = event
    · subst he
      simp
      omega
    · simp [he]

end NativeEmitter

namespace EventEmitter

/-- Where the limit allowed for all listeners, raising it allows for one more of
    the event, unless it was 0: that is raised to 1. -/
theorem fits_raised_iff {count added : EventName → Nat} {maxListeners : Option Nat}
    (hfits : ∀ e, Fits maxListeners (count e)) (hadded : ∀ e, added e ≤ if e = event then 1 else 0) :
    (∀ e, Fits (raised maxListeners (count event)) (count e + added e)) ↔
      (maxListeners = some 0 → ∀ e, count e + added e ≤ 1) := by
  cases maxListeners with
  | none => simp [Fits, raised]
  | some m =>
    by_cases hm : m = 0
    · simp [Fits, raised, hm]
    · refine iff_of_true (fun e limit hlimit _ => ?_) (by simp [hm])
      have hfit := hfits e m rfl hm
      have hfew := hadded e
      by_cases hle : m ≤ count event
      · obtain rfl : m + 1 = limit := by simpa [raised, hle] using hlimit
        split at hfew <;> omega
      · obtain rfl : m = limit := by simpa [raised, hle] using hlimit
        split at hfew
        · rename_i he
          subst he
          omega
        · omega

/-- Raising it a second time makes a difference at 0 only. -/
theorem raised_raised {count : Nat} {maxListeners : Option Nat} (hfits : Fits maxListeners count)
    (hmax : maxListeners ≠ some 0) :
    raised (raised maxListeners count) count = raised maxListeners count := by
  cases maxListeners with
  | none => rfl
  | some m =>
    have hm : m ≠ 0 := fun h => hmax (by rw [h])
    have hle := hfits m rfl hm
    by_cases hequal : m ≤ count
    · have hlt : ¬ m + 1 ≤ count := by omega
      simp [raised, hequal, hlt]
    · simp [raised, hequal]

theorem added_le (e : EventName) : self.added event e ≤ if e = event then 1 else 0 := by
  unfold NativeEmitter.added
  by_cases he : e = event
  · rw [if_pos he]
    split <;> omega
  · simp [he]

/-- What an addition needs at the limit 0, which it raises to the given one. -/
def AddsWithin (limit : Nat) (s : EventEmitter) (event : EventName) : Prop :=
  s.maxListeners = some 0 → ∀ e, s.listenerCount e + s.added event e ≤ limit

theorem covered_on_iff (h : Covered self) :
    Covered (NativeEmitter.on
      { self with maxListeners := raised self.maxListeners (self.listenerCount event) } event callback) ↔
      AddsWithin 1 self event := by
  refine Iff.trans (NativeEmitter.covered_on_iff h.unwarned) ?_
  exact fits_raised_iff h.fits added_le

theorem covered_once_iff {wrappers : Nat} (h : Covered self) :
    Covered (NativeEmitter.on
      { self with
        maxListeners := raised (raised self.maxListeners (self.listenerCount event))
          (self.listenerCount event)
        wrappers } event callback) ↔
      AddsWithin (if self.listenerCount event = 0 then 1 else 2) self event := by
  refine Iff.trans (NativeEmitter.covered_on_iff h.unwarned) ?_
  change (∀ e, Fits (raised (raised self.maxListeners (self.listenerCount event)) (self.listenerCount event))
    (self.listenerCount e + self.added event e)) ↔ _
  by_cases hmax : self.maxListeners = some 0
  · by_cases hnone : self.listenerCount event = 0
    · simp [Fits, raised, AddsWithin, hmax, hnone]
    · have hone : 1 ≤ self.listenerCount event := by omega
      simp [Fits, raised, AddsWithin, hmax, hnone, hone]
  · rw [raised_raised (h.fits event) hmax, fits_raised_iff h.fits added_le]
    simp [AddsWithin, hmax]

/-- What a removal needs that lowers the limit to another than 0: it removes
    something, and no other event has as many listeners. -/
def RemovesWithin (s : EventEmitter) (event : EventName) (callback : Callback) : Prop :=
  ∀ m, s.maxListeners = some m → 2 ≤ m → m ≤ s.listenerCount event →
    (removeLast (s.events event) callback).isSome = true ∧ ∀ e, e ≠ event → s.listenerCount e < m

/-- Lowering the limit for one of two or more leaves it allowing for all exactly
    if the event has lost a listener and no other has that many. -/
theorem fits_lowered_iff {count left : EventName → Nat} {found : Bool} {maxListeners : Option Nat}
    (hfits : ∀ e, Fits maxListeners (count e))
    (hleft : ∀ e, left e = if found ∧ e = event then count e - 1 else count e) :
    (∀ e, Fits (lowered maxListeners (count event)) (left e)) ↔
      ∀ m, maxListeners = some m → 2 ≤ m → m ≤ count event →
        found = true ∧ ∀ e, e ≠ event → count e < m := by
  cases maxListeners with
  | none => simp [Fits, lowered]
  | some m =>
    simp only [Option.some.injEq, forall_eq']
    have hless (e : EventName) : left e ≤ count e := by
      rw [hleft]
      split <;> omega
    by_cases hle : m ≤ count event
    · have hlimit : lowered (some m) (count event) = some (m - 1) := by simp [lowered, hle]
      rw [hlimit]
      refine ⟨fun h hm _ => ⟨?_, fun e he => ?_⟩, fun h e limit hlow hzero => ?_⟩
      · have hevent := h event (m - 1) rfl (by omega)
        rw [hleft] at hevent
        by_contra hnot
        simp only [hnot, false_and, if_false] at hevent
        omega
      · have hother := h e (m - 1) rfl (by omega)
        rw [hleft, if_neg (fun hboth => he hboth.2)] at hother
        omega
      · obtain rfl : m - 1 = limit := Option.some.inj hlow
        obtain ⟨hfound, hothers⟩ := h (by omega) hle
        have hfit := hfits event m rfl (by omega)
        by_cases he : e = event
        · subst he
          rw [hleft, if_pos ⟨hfound, rfl⟩]
          omega
        · have hother := hothers e he
          have hsmaller := hless e
          omega
    · refine iff_of_true (fun e limit hlow hzero => ?_) fun _ hge => absurd hge hle
      obtain rfl : m = limit := by simpa [lowered, hle] using hlow
      exact Nat.le_trans (hless e) (hfits e m rfl hzero)

theorem covered_removeListener_iff {next : EventEmitter} (h : Covered self)
    (hnext : EventEmitter.removeListener self event callback = some next) :
    Covered next ↔ RemovesWithin self event callback := by
  rw [removeListener_eq] at hnext
  split at hnext
  · cases hnext
  have hnext := Option.some.inj hnext
  have hcount (e : EventName) : next.listenerCount e =
      if (removeLast (self.events event) callback).isSome = true ∧ e = event then self.listenerCount e - 1
      else self.listenerCount e := by
    rw [← hnext]
    exact NativeEmitter.listenerCount_removeListener e
  have hmax : next.maxListeners = lowered self.maxListeners (self.listenerCount event) := by
    rw [← hnext, NativeEmitter.removeListener_maxListeners]
  rw [RemovesWithin, ← fits_lowered_iff h.fits hcount]
  refine ⟨fun hcovered e => hmax ▸ hcovered.fits e, fun hfits => ⟨fun e => hmax.symm ▸ hfits e, fun e => ?_⟩⟩
  rw [← hnext, NativeEmitter.removeListener_trace]
  simp [h.unwarned e]

/-- An error that is thrown leaves listeners and limit alone. -/
theorem covered_rangeError (h : Covered self) (frames : List Frame) :
    Covered { self with frames, trace := self.trace ++ [.rangeError] } :=
  ⟨h.fits, fun e => by simp [h.unwarned e]⟩

/-- The condition on a step under which the capacity goes on to cover all. -/
def Keeps (s : EventEmitter) : Action → Prop
  | .on event _ | .addListener event _ => s.userRuns = true → AddsWithin 1 s event
  | .once event _ => s.userRuns = true → AddsWithin (if s.listenerCount event = 0 then 1 else 2) s event
  | .off event callback | .removeListener event callback =>
    s.userRuns = true → RemovesWithin s event callback
  | .goesOn =>
    match s.frames with
    | .emitting event (.wrapper id listener :: _) _ :: _ =>
      id ∉ s.fired → RemovesWithin s event (.wrapper id listener)
    | .adding event _ :: _ => ∀ m, s.maxListeners = some m → m ≠ 0 → s.listenerCount event < m
    | _ => True
  | .emit _ | .throws => True

/-- A removal, wherever it is made. Where it throws, nothing is lowered. -/
theorem covered_removal_iff {next thrown : EventEmitter} (h : Covered self) (hthrown : Covered thrown)
    (hnext : Removes self thrown event callback next) : Covered next ↔ RemovesWithin self event callback := by
  obtain hnext | ⟨hnone, rfl⟩ := hnext
  · exact covered_removeListener_iff h hnext
  · rw [removeListener_eq] at hnone
    split at hnone
    · rename_i hmax
      refine iff_of_true hthrown fun m hm htwo => ?_
      obtain rfl : 0 = m := Option.some.inj (hmax.symm.trans hm)
      omega
    · cases hnone

/-- A listener that waited for those of `newListener` is added. -/
theorem covered_added_iff (h : Covered self) (frames : List Frame) :
    Covered (NativeEmitter.append { self with frames } event callback) ↔
      ∀ m, self.maxListeners = some m → m ≠ 0 → self.listenerCount event < m := by
  refine Iff.trans (NativeEmitter.covered_append_iff h.unwarned) ?_
  refine ⟨fun hfits m hmax hm => ?_, fun hroom e m hmax hm => ?_⟩
  · have hfit := hfits event m hmax hm
    rw [if_pos rfl] at hfit
    exact hfit
  · have hfit := h.fits e m hmax hm
    by_cases he : e = event
    · subst he
      rw [if_pos rfl]
      exact hroom m hmax hm
    · rw [if_neg he]
      exact hfit

theorem covered_step_iff {action : Action} {next : EventEmitter} (h : Covered self)
    (hstep : step self action = some next) : Covered next ↔ Keeps self action := by
  have hcalling (frames : List Frame) : Covered { self with frames } := ⟨h.fits, h.unwarned⟩
  cases effect_of_step hstep with
  | on hruns listener => simpa [Keeps, hruns] using covered_on_iff h
  | addListener hruns listener => simpa [Keeps, hruns] using covered_on_iff h
  | once hruns listener => simpa [Keeps, hruns] using covered_once_iff h
  | off hruns hnext =>
    simpa [Keeps, hruns] using covered_removal_iff h (covered_rangeError h self.frames) hnext
  | removeListener hruns hnext =>
    simpa [Keeps, hruns] using covered_removal_iff h (covered_rangeError h self.frames) hnext
  | emit hruns event =>
    refine iff_of_true ?_ trivial
    unfold NativeEmitter.emit
    split
    · exact ⟨h.fits, fun e => by simp [h.unwarned e]⟩
    · exact (NativeEmitter.covered_congr (by simp) (by simp) (by simp)).mpr h
  | calls hframes =>
    simp only [Keeps, hframes]
    exact iff_of_true (hcalling _) trivial
  | passes hframes hfired =>
    simp only [Keeps, hframes]
    exact iff_of_true (hcalling _) fun hnot => absurd hfired hnot
  | @fires event id listener pending inBody frames next hframes hfired hnext =>
    simp only [Keeps, hframes, hfired, not_false_iff, true_imp_iff]
    have hfiring := hcalling (.firing id :: .emitting event pending false :: frames)
    have hremoval := covered_removal_iff hfiring (covered_rangeError h (unwind frames)) hnext
    exact hremoval
  | emitted hframes =>
    simp only [Keeps, hframes]
    exact iff_of_true (hcalling _) trivial
  | added hframes =>
    simp only [Keeps, hframes]
    exact covered_added_iff h _
  | fired hframes =>
    simp only [Keeps, hframes]
    exact iff_of_true ⟨h.fits, h.unwarned⟩ trivial
  | throws hframes => exact iff_of_true (hcalling _) trivial

theorem keeps_of_disabled {action : Action} (hstep : step self action = none) : Keeps self action := by
  obtain ⟨rfl, hframes⟩ | rfl | ⟨hcalls, hidle⟩ := disabled_cases hstep
  · simp only [Keeps, hframes]
  · trivial
  · cases action with
    | goesOn => exact absurd rfl hcalls
    | emit event => trivial
    | throws => trivial
    | _ => exact fun hruns => absurd hruns hidle

theorem covered_fresh (maxListeners : Option Nat) : Covered (NativeEmitter.fresh maxListeners) :=
  ⟨fun _ _ _ _ => Nat.zero_le _, fun _ => List.not_mem_nil⟩

/-- For every limit to start with, and every sequence of calls, made by listeners
    or not: the limit covers the listeners of every event, and Node does not
    warn, after every step exactly if every step meets the condition. -/
theorem capacity_covers_iff (maxListeners : Option Nat) (actions : List Action) :
    machine.Always Covered (NativeEmitter.fresh maxListeners) actions ↔
      machine.Along Keeps (NativeEmitter.fresh maxListeners) actions :=
  Machine.always_iff_along (Q := fun _ => True) (fun _ _ _ _ _ => trivial)
    (fun _ _ _ _ h hstep => covered_step_iff h hstep) (fun _ _ hstep => keeps_of_disabled hstep)
    (covered_fresh maxListeners) trivial

/-- Two events share one limit: one listener less of the one lowers it for the
    other. -/
theorem removal_uncovers_other_event : ¬ machine.Always Covered (NativeEmitter.fresh (some 1))
    [.on (.name "a") 0, .on (.name "a") 1, .on (.name "b") 2, .on (.name "b") 3,
      .off (.name "a") (.listener 0)] := by
  intro halways
  have hlast := halways.last rfl
  exact absurd (hlast.fits (.name "b") 1 (by decide) (by decide)) (by decide)

end EventEmitter

end anisa.eventEmitter
