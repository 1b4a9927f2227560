import Anisa.EventEmitter.Capacity

open anisa.transition

namespace anisa.eventEmitter

/-- The callback is the wrapper of that number. -/
def Callback.wraps (id : Nat) : Callback → Bool
  | .wrapper made _ => made = id
  | .listener _ => false

/-- The call has that callback of the event before it. -/
def Frame.Mentions (event : EventName) (callback : Callback) : Frame → Prop
  | .emitting e pending _ => e = event ∧ callback ∈ pending
  | .adding e waiting => e = event ∧ waiting = callback
  | .firing _ => False

/-- The wrapper is still to be added. -/
def Frame.adds (id : Nat) : Frame → Bool
  | .adding _ waiting => waiting.wraps id
  | _ => false

/-- An emission has the wrapper before it. -/
def Frame.Pends (id : Nat) : Frame → Prop
  | .emitting _ pending _ => ∃ callback ∈ pending, callback.wraps id = true
  | _ => False

/-- How often the wrapper is a listener of the event, or is still to be added. -/
def NativeEmitter.places (s : NativeEmitter) (event : EventName) (id : Nat) : Nat :=
  (s.events event).countP (·.wraps id) + s.frames.countP (·.adds id)

/-- No call knows of a wrapper that an outer one has removed and is about to call. -/
def Removed (inner outer : Frame) : Prop :=
  ∀ id, outer = .firing id → inner ≠ .firing id ∧ ¬ inner.Pends id

/-- Every wrapper belongs to the event and the function it was made for and has one place, until
    it is removed to be called. -/
structure Once (home : Nat → EventName × Nat) (s : NativeEmitter) : Prop where
  registered : ∀ event id listener, .wrapper id listener ∈ s.events event →
    id < s.wrappers ∧ home id = (event, listener)
  mentioned : ∀ frame ∈ s.frames, ∀ event id listener, frame.Mentions event (.wrapper id listener) →
    id < s.wrappers ∧ home id = (event, listener)
  sole : ∀ id, s.places (home id).1 id ≤ 1
  added : ∀ id, ∀ frame ∈ s.frames, frame.Pends id → s.frames.countP (·.adds id) = 0
  gone : ∀ id, .firing id ∈ s.frames ∨ id ∈ s.fired → id < s.wrappers ∧ s.places (home id).1 id = 0
  removed : s.frames.Pairwise Removed
  unfired : ∀ id, .firing id ∈ s.frames → id ∉ s.fired
  nodup : s.fired.Nodup

variable {self next : NativeEmitter} {home : Nat → EventName × Nat} {event e : EventName}
  {callback : Callback} {callbacks rest pending : List Callback} {frame : Frame} {frames : List Frame}
  {id listener : Nat} {inBody : Bool}

theorem wraps_iff : callback.wraps id = true ↔ ∃ listener, callback = .wrapper id listener := by
  cases callback with
  | listener l => simp [Callback.wraps]
  | wrapper made l => simp [Callback.wraps]

theorem countP_adding : (.adding event callback :: frames).countP (·.adds id) =
    frames.countP (·.adds id) + if callback.wraps id = true then 1 else 0 :=
  List.countP_cons ..

theorem mentions_of_pends (h : frame.Pends id) :
    ∃ event listener, frame.Mentions event (.wrapper id listener) := by
  cases frame with
  | emitting e pending inBody =>
    obtain ⟨callback, hmem, hwraps⟩ := h
    obtain ⟨listener, rfl⟩ := wraps_iff.mp hwraps
    exact ⟨e, listener, rfl, hmem⟩
  | adding e waiting => exact h.elim
  | firing made => exact h.elim

theorem mentions_of_adds (h : frame.adds id = true) :
    ∃ event listener, frame.Mentions event (.wrapper id listener) := by
  cases frame with
  | emitting e pending inBody => cases h
  | adding e waiting =>
    obtain ⟨listener, rfl⟩ := wraps_iff.mp h
    exact ⟨e, listener, rfl, rfl⟩
  | firing made => cases h

theorem removeLast_sublist (h : removeLast callbacks callback = some rest) : rest.Sublist callbacks := by
  unfold removeLast at h
  split at h
  · obtain rfl := Option.some.inj h
    have hsublist : (callbacks.reverse.eraseP (·.is callback)).Sublist callbacks.reverse :=
      List.eraseP_sublist
    simpa using hsublist.reverse
  · cases h

theorem is_wrapper_iff {entry : Callback} :
    entry.is (.wrapper id listener) = true ↔ entry = .wrapper id listener := by
  cases entry with
  | listener l => simp [Callback.is]
  | wrapper made l => simp [Callback.is]

/-- A wrapper that is there is taken out. -/
theorem countP_removeLast (h : removeLast callbacks (.wrapper id listener) = some rest) :
    rest.countP (·.wraps id) + 1 = callbacks.countP (·.wraps id) := by
  unfold removeLast at h
  split at h
  · rename_i hany
    obtain ⟨entry, hmem, his⟩ := List.any_eq_true.mp hany
    have herase := List.exists_of_eraseP (p := fun entry => entry.is (.wrapper id listener))
      (List.mem_reverse.mpr hmem) his
    obtain ⟨found, before, after, -, hfound, hsplit, herase⟩ := herase
    obtain rfl := is_wrapper_iff.mp hfound
    obtain rfl := Option.some.inj h
    rw [List.countP_reverse, herase, ← List.countP_reverse (l := callbacks), hsplit]
    simp only [List.countP_append, List.countP_cons, Callback.wraps, decide_true, if_true]
    omega
  · cases h

theorem removeLast_eq_none (h : removeLast callbacks (.wrapper id listener) = none) :
    .wrapper id listener ∉ callbacks := by
  unfold removeLast at h
  split at h
  · cases h
  · rename_i hnone
    intro hmem
    exact hnone (List.any_eq_true.mpr ⟨_, hmem, is_wrapper_iff.mpr rfl⟩)

/-- Fewer calls, or calls with less before them. -/
structure Less (frames next : List Frame) : Prop where
  mentions : ∀ frame ∈ next, ∀ event callback, frame.Mentions event callback →
    ∃ g ∈ frames, g.Mentions event callback
  pends : ∀ frame ∈ next, ∀ id, frame.Pends id → ∃ g ∈ frames, g.Pends id
  adds : ∀ id, next.countP (·.adds id) ≤ frames.countP (·.adds id)
  firing : ∀ id, .firing id ∈ next → .firing id ∈ frames
  removed : frames.Pairwise Removed → next.Pairwise Removed

theorem less_of_sublist {next : List Frame} (h : next.Sublist frames) : Less frames next where
  mentions frame hmem _ _ hmentions := ⟨frame, h.subset hmem, hmentions⟩
  pends frame hmem _ hpends := ⟨frame, h.subset hmem, hpends⟩
  adds _ := h.countP_le
  firing _ hmem := h.subset hmem
  removed hpairwise := hpairwise.sublist h

/-- The innermost emission goes on. -/
theorem less_emitting (hpending : ∀ callback ∈ rest, callback ∈ pending) (body : Bool) :
    Less (.emitting event pending inBody :: frames) (.emitting event rest body :: frames) where
  mentions frame hmem e c hmentions := by
    obtain rfl | hmem := List.mem_cons.mp hmem
    · exact ⟨_, List.mem_cons_self, hmentions.1, hpending c hmentions.2⟩
    · exact ⟨frame, List.mem_cons_of_mem _ hmem, hmentions⟩
  pends frame hmem id hpends := by
    obtain rfl | hmem := List.mem_cons.mp hmem
    · obtain ⟨c, hc, hwraps⟩ := hpends
      exact ⟨_, List.mem_cons_self, c, hpending c hc, hwraps⟩
    · exact ⟨frame, List.mem_cons_of_mem _ hmem, hpends⟩
  adds id := by
    rw [List.countP_cons, List.countP_cons]
    exact Nat.le_refl _
  firing id hmem := by
    rw [List.mem_cons] at hmem ⊢
    exact hmem.imp_left fun h => by cases h
  removed hpairwise := by
    rw [List.pairwise_cons] at hpairwise ⊢
    refine ⟨fun outer houter made hfiring => ?_, hpairwise.2⟩
    obtain ⟨-, hnot⟩ := hpairwise.1 outer houter made hfiring
    refine ⟨(fun h => by cases h), fun hpends => hnot ?_⟩
    obtain ⟨c, hc, hwraps⟩ := hpends
    exact ⟨c, hpending c hc, hwraps⟩

theorem unwind_sublist (frames : List Frame) : (unwind frames).Sublist frames := by
  induction frames using unwind.induct with
  | case1 => exact .slnil
  | case2 event pending frames => exact .refl _
  | case3 frame frames hnot ih =>
    rw [unwind]
    · exact ih.trans (List.sublist_cons_self ..)
    · exact hnot

/-- Listeners are taken out, and calls come to an end. -/
theorem Once.less (h : Once home self) (hevents : ∀ e, (next.events e).Sublist (self.events e))
    (hwrappers : next.wrappers = self.wrappers) (hfired : next.fired = self.fired)
    (hframes : Less self.frames next.frames) : Once home next := by
  have hplaces (event : EventName) (id : Nat) : next.places event id ≤ self.places event id :=
    Nat.add_le_add (hevents event).countP_le (hframes.adds id)
  constructor
  · intro event id listener hmem
    rw [hwrappers]
    exact h.registered event id listener ((hevents event).subset hmem)
  · intro frame hmem event id listener hmentions
    obtain ⟨g, hg, hmentions⟩ := hframes.mentions frame hmem event _ hmentions
    rw [hwrappers]
    exact h.mentioned g hg event id listener hmentions
  · exact fun id => Nat.le_trans (hplaces _ id) (h.sole id)
  · intro id frame hmem hpends
    obtain ⟨g, hg, hpends⟩ := hframes.pends frame hmem id hpends
    exact Nat.le_zero.mp (h.added id g hg hpends ▸ hframes.adds id)
  · intro id hgone
    rw [hfired] at hgone
    obtain ⟨hlt, hnone⟩ := h.gone id (hgone.imp_left (hframes.firing id))
    exact ⟨hwrappers ▸ hlt, Nat.le_zero.mp (hnone ▸ hplaces _ id)⟩
  · exact hframes.removed h.removed
  · intro id hmem
    rw [hfired]
    exact h.unfired id (hframes.firing id hmem)
  · rw [hfired]
    exact h.nodup

theorem Once.same (h : Once home self) (hevents : next.events = self.events)
    (hwrappers : next.wrappers = self.wrappers) (hfired : next.fired = self.fired)
    (hframes : next.frames = self.frames) : Once home next :=
  h.less (fun _ => hevents ▸ .refl _) hwrappers hfired (hframes ▸ less_of_sublist (.refl _))

/-- A wrapper that is a listener is not waiting to be one, and is not on its way out. -/
theorem Once.listening (h : Once home self) (hmem : .wrapper id listener ∈ self.events event) :
    self.frames.countP (·.adds id) = 0 ∧ .firing id ∉ self.frames ∧ id ∉ self.fired := by
  obtain ⟨-, hhome⟩ := h.registered event id listener hmem
  have hcount : 0 < (self.events event).countP (·.wraps id) :=
    List.countP_pos_iff.mpr ⟨_, hmem, wraps_iff.mpr ⟨listener, rfl⟩⟩
  have hsole := h.sole id
  have hgone (hgone : .firing id ∈ self.frames ∨ id ∈ self.fired) : False := by
    have hnone := (h.gone id hgone).2
    simp only [NativeEmitter.places, hhome] at hnone
    omega
  simp only [NativeEmitter.places, hhome] at hsole
  exact ⟨by omega, fun hmem => hgone (.inl hmem), fun hmem => hgone (.inr hmem)⟩

/-- An emission begins, with the listeners that there are. -/
theorem Once.startEmit (h : Once home self) (event : EventName) : Once home (self.startEmit event) := by
  unfold NativeEmitter.startEmit
  split
  · exact h
  · have hpends {id : Nat} (hpends : (Frame.emitting event (self.events event) false).Pends id) :
        ∃ listener, .wrapper id listener ∈ self.events event := by
      obtain ⟨callback, hmem, hwraps⟩ := hpends
      obtain ⟨listener, rfl⟩ := wraps_iff.mp hwraps
      exact ⟨listener, hmem⟩
    constructor
    · exact h.registered
    · intro frame hmem e id listener hmentions
      obtain rfl | hmem := List.mem_cons.mp hmem
      · obtain ⟨rfl, hpending⟩ := hmentions
        exact h.registered _ id listener hpending
      · exact h.mentioned frame hmem e id listener hmentions
    · exact h.sole
    · intro id frame hmem hframe
      obtain rfl | hmem := List.mem_cons.mp hmem
      · obtain ⟨listener, hmem⟩ := hpends hframe
        exact (h.listening hmem).1
      · exact h.added id frame hmem hframe
    · intro id hgone
      exact h.gone id (hgone.imp_left fun hmem => (List.mem_cons.mp hmem).resolve_left (fun h => by cases h))
    · refine List.pairwise_cons.mpr ⟨fun outer houter id hfiring => ⟨(fun h => by cases h), fun hframe => ?_⟩,
        h.removed⟩
      subst hfiring
      obtain ⟨listener, hmem⟩ := hpends hframe
      exact (h.listening hmem).2.1 houter
    · intro id hmem
      exact h.unfired id ((List.mem_cons.mp hmem).resolve_left (fun h => by cases h))
    · exact h.nodup

/-- The callback has no place yet, and may be given its one. -/
structure Addable (home : Nat → EventName × Nat) (s : NativeEmitter) (event : EventName)
    (id listener : Nat) : Prop where
  made : id < s.wrappers
  belongs : home id = (event, listener)
  unplaced : s.places event id = 0
  unpended : ∀ frame ∈ s.frames, ¬ frame.Pends id
  unfiring : .firing id ∉ s.frames
  unfired : id ∉ s.fired

theorem Once.adding (h : Once home self)
    (hadd : ∀ id listener, callback = .wrapper id listener → Addable home self event id listener) :
    Once home { self with frames := .adding event callback :: self.frames } := by
  have hwaits {id : Nat} (hwraps : callback.wraps id = true) :
      ∃ listener, Addable home self event id listener := by
    obtain ⟨listener, rfl⟩ := wraps_iff.mp hwraps
    exact ⟨listener, hadd id listener rfl⟩
  constructor
  · exact h.registered
  · intro frame hmem e id listener hmentions
    obtain rfl | hmem := List.mem_cons.mp hmem
    · obtain ⟨rfl, rfl⟩ := hmentions
      have hcallback := hadd id listener rfl
      exact ⟨hcallback.made, hcallback.belongs⟩
    · exact h.mentioned frame hmem e id listener hmentions
  · intro id
    have hsole := h.sole id
    simp only [NativeEmitter.places, countP_adding] at hsole ⊢
    split
    · next hwraps =>
      obtain ⟨listener, hcallback⟩ := hwaits hwraps
      have hunplaced := hcallback.unplaced
      simp only [NativeEmitter.places] at hunplaced
      simp only [hcallback.belongs]
      omega
    · omega
  · intro id frame hmem hpends
    obtain rfl | hmem := List.mem_cons.mp hmem
    · exact hpends.elim
    · rw [countP_adding, h.added id frame hmem hpends, if_neg]
      intro hwraps
      obtain ⟨listener, hcallback⟩ := hwaits hwraps
      exact hcallback.unpended frame hmem hpends
  · intro id hgone
    have hgone := hgone.imp_left fun hmem => (List.mem_cons.mp hmem).resolve_left (fun h => by cases h)
    refine ⟨(h.gone id hgone).1, ?_⟩
    have hnone := (h.gone id hgone).2
    simp only [NativeEmitter.places, countP_adding] at hnone ⊢
    rw [if_neg]
    · exact hnone
    · intro hwraps
      obtain ⟨listener, hcallback⟩ := hwaits hwraps
      exact hgone.elim hcallback.unfiring hcallback.unfired
  · exact List.pairwise_cons.mpr ⟨fun _ _ _ _ => ⟨(fun h => by cases h), fun hpends => hpends⟩, h.removed⟩
  · intro id hmem
    exact h.unfired id ((List.mem_cons.mp hmem).resolve_left (fun h => by cases h))
  · exact h.nodup

theorem append_events (self : NativeEmitter) (event e : EventName) (callback : Callback) :
    (self.append event callback).events e =
      if e = event then self.events event ++ [callback] else self.events e :=
  Function.update_apply ..

theorem Once.append (h : Once home self)
    (hadd : ∀ id listener, callback = .wrapper id listener → Addable home self event id listener) :
    Once home (self.append event callback) := by
  have hplaces (e : EventName) (id : Nat) : (self.append event callback).places e id =
      self.places e id + if e = event ∧ callback.wraps id = true then 1 else 0 := by
    simp only [NativeEmitter.places, append_events]
    by_cases he : e = event
    · subst he
      rw [if_pos rfl, List.countP_append, List.countP_singleton]
      simp only [true_and]
      have hframes : (self.append e callback).frames = self.frames := rfl
      rw [hframes]
      omega
    · rw [if_neg he, if_neg fun hboth => he hboth.1]
      rfl
  have hwaits {id : Nat} (hwraps : callback.wraps id = true) :
      ∃ listener, Addable home self event id listener := by
    obtain ⟨listener, rfl⟩ := wraps_iff.mp hwraps
    exact ⟨listener, hadd id listener rfl⟩
  constructor
  · intro e id listener hmem
    rw [append_events] at hmem
    split at hmem
    · next he =>
      subst he
      obtain hmem | hmem := List.mem_append.mp hmem
      · exact h.registered e id listener hmem
      · have hcallback := hadd id listener (List.mem_singleton.mp hmem).symm
        exact ⟨hcallback.made, hcallback.belongs⟩
    · exact h.registered e id listener hmem
  · exact h.mentioned
  · intro id
    rw [hplaces]
    split
    · next hboth =>
      obtain ⟨listener, hcallback⟩ := hwaits hboth.2
      have hunplaced := hcallback.unplaced
      simp only [hcallback.belongs]
      omega
    · exact h.sole id
  · exact h.added
  · intro id hgone
    obtain ⟨hmade, hnone⟩ := h.gone id hgone
    refine ⟨hmade, ?_⟩
    rw [hplaces, hnone, if_neg]
    rintro ⟨-, hwraps⟩
    obtain ⟨listener, hcallback⟩ := hwaits hwraps
    exact Or.elim hgone hcallback.unfiring hcallback.unfired
  · exact h.removed
  · exact h.unfired
  · exact h.nodup

theorem Once.on (h : Once home self)
    (hadd : ∀ id listener, callback = .wrapper id listener → Addable home self event id listener) :
    Once home (NativeEmitter.on self event callback) := by
  unfold NativeEmitter.on
  split
  · exact h.append hadd
  · exact (h.adding hadd).startEmit _

/-- `removeListener` takes at most one listener out. -/
theorem sublist_removed (hremove : removeLast (self.events event) callback = some rest) (e : EventName) :
    (Function.update self.events event rest e).Sublist (self.events e) := by
  by_cases he : e = event
  · subst he
    rw [Function.update_self]
    exact removeLast_sublist hremove
  · rw [Function.update_of_ne he]

theorem Once.removeListener (h : Once home self) :
    Once home (NativeEmitter.removeListener self event callback) := by
  unfold NativeEmitter.removeListener
  split
  · exact h
  · next hremove =>
    refine Once.startEmit ?_ _
    exact h.less (sublist_removed hremove) rfl rfl (less_of_sublist (.refl _))

theorem Once.removes {thrown : NativeEmitter} (h : Once home self) (hthrown : Once home thrown)
    (hnext : EventEmitter.Removes self thrown event callback next) : Once home next := by
  rw [EventEmitter.Removes, EventEmitter.removeListener_eq] at hnext
  obtain hnext | ⟨-, rfl⟩ := hnext
  · split at hnext
    · cases hnext
    · exact Option.some.inj hnext ▸ Once.removeListener (h.same rfl rfl rfl rfl)
  · exact hthrown

/-- `once` makes a wrapper, of which nothing knows. -/
theorem Once.made (h : Once home self) (event : EventName) (listener : Nat) :
    ∃ home, Once home { self with wrappers := self.wrappers + 1 } ∧
      Addable home { self with wrappers := self.wrappers + 1 } event self.wrappers listener := by
  have hold {id : Nat} (hid : id < self.wrappers) :
      Function.update home self.wrappers (event, listener) id = home id :=
    Function.update_of_ne (Nat.ne_of_lt hid) ..
  have hnew : Function.update home self.wrappers (event, listener) self.wrappers = (event, listener) :=
    Function.update_self ..
  have hplaces (e : EventName) : self.places e self.wrappers = 0 := by
    rw [NativeEmitter.places, Nat.add_eq_zero_iff, List.countP_eq_zero, List.countP_eq_zero]
    refine ⟨fun callback hmem hwraps => ?_, fun frame hmem hadds => ?_⟩
    · obtain ⟨listener, rfl⟩ := wraps_iff.mp hwraps
      exact absurd (h.registered e _ listener hmem).1 (Nat.lt_irrefl _)
    · obtain ⟨e, listener, hmentions⟩ := mentions_of_adds hadds
      exact absurd (h.mentioned frame hmem e _ listener hmentions).1 (Nat.lt_irrefl _)
  refine ⟨Function.update home self.wrappers (event, listener), ⟨?_, ?_, ?_, h.added, ?_, h.removed,
    h.unfired, h.nodup⟩, Nat.lt_succ_self _, hnew, hplaces event, ?_, ?_, ?_⟩
  · intro e id listener hmem
    obtain ⟨hid, hhome⟩ := h.registered e id listener hmem
    exact ⟨Nat.lt_succ_of_lt hid, (hold hid).trans hhome⟩
  · intro frame hmem e id listener hmentions
    obtain ⟨hid, hhome⟩ := h.mentioned frame hmem e id listener hmentions
    exact ⟨Nat.lt_succ_of_lt hid, (hold hid).trans hhome⟩
  · intro id
    by_cases hid : id = self.wrappers
    · subst hid
      exact Nat.le_trans (Nat.le_of_eq (hplaces _)) (Nat.zero_le 1)
    · rw [Function.update_of_ne hid]
      exact h.sole id
  · intro id hgone
    obtain ⟨hid, hnone⟩ := h.gone id hgone
    rw [hold hid]
    exact ⟨Nat.lt_succ_of_lt hid, hnone⟩
  · intro frame hmem hpends
    obtain ⟨e, listener, hmentions⟩ := mentions_of_pends hpends
    exact absurd (h.mentioned frame hmem e _ listener hmentions).1 (Nat.lt_irrefl _)
  · exact fun hmem => absurd (h.gone _ (.inl hmem)).1 (Nat.lt_irrefl _)
  · exact fun hmem => absurd (h.gone _ (.inr hmem)).1 (Nat.lt_irrefl _)

/-- A wrapper that has been taken out calls its function next. -/
theorem Once.firing (h : Once home self) (hmade : id < self.wrappers)
    (hplaces : self.places (home id).1 id = 0) (hfired : id ∉ self.fired)
    (hfiring : .firing id ∉ self.frames) : Once home { self with frames := .firing id :: self.frames } := by
  constructor
  · exact h.registered
  · intro frame hmem e made listener hmentions
    obtain rfl | hmem := List.mem_cons.mp hmem
    · exact hmentions.elim
    · exact h.mentioned frame hmem e made listener hmentions
  · exact h.sole
  · intro made frame hmem hpends
    obtain rfl | hmem := List.mem_cons.mp hmem
    · exact hpends.elim
    · exact h.added made frame hmem hpends
  · intro made hgone
    obtain hmem | hmem := hgone
    · obtain hmade' | hmem := List.mem_cons.mp hmem
      · obtain rfl := Frame.firing.inj hmade'
        exact ⟨hmade, hplaces⟩
      · exact h.gone made (.inl hmem)
    · exact h.gone made (.inr hmem)
  · refine List.pairwise_cons.mpr ⟨fun outer houter made hmade' => ⟨fun heq => ?_, fun hpends => hpends⟩,
      h.removed⟩
    obtain rfl := Frame.firing.inj heq
    exact hfiring (hmade' ▸ houter)
  · intro made hmem
    obtain hmade' | hmem := List.mem_cons.mp hmem
    · obtain rfl := Frame.firing.inj hmade'
      exact hfired
    · exact h.unfired made hmem
  · exact h.nodup

/-- The function of a wrapper is called. -/
theorem Once.called (h : Once home self) (hmade : id < self.wrappers)
    (hplaces : self.places (home id).1 id = 0) (hfired : id ∉ self.fired)
    (hfiring : .firing id ∉ self.frames) : Once home { self with fired := id :: self.fired } := by
  refine ⟨h.registered, h.mentioned, h.sole, h.added, fun made hgone => ?_, h.removed,
    fun made hmem hagain => ?_, List.nodup_cons.mpr ⟨hfired, h.nodup⟩⟩
  · obtain hmem | hmem := hgone
    · exact h.gone made (.inl hmem)
    · obtain rfl | hmem := List.mem_cons.mp hmem
      · exact ⟨hmade, hplaces⟩
      · exact h.gone made (.inr hmem)
  · obtain rfl | hagain := List.mem_cons.mp hagain
    · exact hfiring hmem
    · exact h.unfired made hmem hagain

namespace EventEmitter

/-- An emission comes to a wrapper that has not fired. -/
theorem once_fires {thrown : EventEmitter} (h : Once home self)
    (hframes : self.frames = .emitting event (.wrapper id listener :: pending) inBody :: frames)
    (hfired : id ∉ self.fired) (hthrown : Once home thrown)
    (hnext : Removes { self with frames := .firing id :: .emitting event pending false :: frames }
      thrown event (.wrapper id listener) next) : Once home next := by
  have hmem : .emitting event (.wrapper id listener :: pending) inBody ∈ self.frames :=
    hframes ▸ List.mem_cons_self
  have hpends : Frame.Pends id (.emitting event (.wrapper id listener :: pending) inBody) :=
    ⟨_, List.mem_cons_self, wraps_iff.mpr ⟨listener, rfl⟩⟩
  obtain ⟨hmade, hhome⟩ := h.mentioned _ hmem event id listener ⟨rfl, List.mem_cons_self⟩
  have hadds := h.added id _ hmem hpends
  have hsole := h.sole id
  simp only [NativeEmitter.places, hhome] at hsole
  have hfiring : .firing id ∉ .emitting event pending false :: frames := by
    intro hmem
    have hremoved := h.removed
    rw [hframes, List.pairwise_cons] at hremoved
    obtain heq | hmem := List.mem_cons.mp hmem
    · cases heq
    · exact (hremoved.1 _ hmem id rfl).2 hpends
  -- the list of the event without the wrapper, whether it has just been taken out or was not there
  have hout (events : EventName → List Callback) (hevents : ∀ e, (events e).Sublist (self.events e))
      (hcount : (events event).countP (·.wraps id) = 0) : Once home
        { self with events, frames := .firing id :: .emitting event pending false :: frames } := by
    have hadvanced : Less self.frames (.emitting event pending false :: frames) := by
      rw [hframes]
      exact less_emitting (fun callback hmem => List.mem_cons_of_mem _ hmem) false
    have hplaces : NativeEmitter.places
        { self with events, frames := .emitting event pending false :: frames } (home id).1 id = 0 := by
      have hle := hadvanced.adds id
      simp only [NativeEmitter.places, hhome]
      omega
    have hbefore : Once home { self with events, frames := .emitting event pending false :: frames } :=
      h.less hevents rfl rfl hadvanced
    exact hbefore.firing hmade hplaces hfired hfiring
  rw [Removes, removeListener_eq] at hnext
  obtain hnext | ⟨-, rfl⟩ := hnext
  · split at hnext
    · cases hnext
    obtain rfl := Option.some.inj hnext
    unfold NativeEmitter.removeListener
    split
    · next hremove =>
      refine (hout self.events (fun _ => .refl _) ?_).same rfl rfl rfl rfl
      refine List.countP_eq_zero.mpr fun callback hlistens hwraps => ?_
      obtain ⟨other, rfl⟩ := wraps_iff.mp hwraps
      obtain ⟨-, hother⟩ := h.registered event id other hlistens
      obtain rfl : other = listener := by
        rw [hhome] at hother
        exact (Prod.mk.inj hother).2.symm
      exact removeLast_eq_none hremove hlistens
    · next rest hremove =>
      refine Once.startEmit ?_ _
      refine (hout (Function.update self.events event rest) (sublist_removed hremove) ?_).same rfl rfl rfl rfl
      rw [Function.update_self]
      have hone := countP_removeLast hremove
      simp only at hone
      omega
  · exact hthrown

/-- The function of a wrapper is called, in the emission that came to it. -/
theorem once_fire (h : Once home self) (hframes : self.frames = .firing id :: frames) :
    Once home (fire self id frames) := by
  obtain ⟨hmade, hplaces⟩ := h.gone id (.inl (hframes ▸ List.mem_cons_self))
  have hfired := h.unfired id (hframes ▸ List.mem_cons_self)
  have hremoved := h.removed
  rw [hframes, List.pairwise_cons] at hremoved
  have hfiring : .firing id ∉ frames := fun hmem => (hremoved.1 _ hmem id rfl).1 rfl
  have hsublist : frames.Sublist self.frames := hframes ▸ List.sublist_cons_self ..
  have hreturned : Once home { self with frames } :=
    h.less (fun _ => .refl _) rfl rfl (less_of_sublist hsublist)
  have hnone : NativeEmitter.places { self with frames } (home id).1 id = 0 :=
    Nat.le_zero.mp (hplaces ▸ Nat.add_le_add_left hsublist.countP_le _)
  have hcalled := hreturned.called hmade hnone hfired hfiring
  cases frames with
  | nil => exact hcalled
  | cons frame frames =>
    cases frame with
    | emitting event pending inBody =>
      exact hcalled.less (fun _ => .refl _) rfl rfl (less_emitting (fun _ hmem => hmem) true)
    | adding event callback => exact hcalled
    | firing made => exact hcalled

theorem once_step {action : Action} (h : ∃ home, Once home self) (hstep : step self action = some next) :
    ∃ home, Once home next := by
  obtain ⟨home, h⟩ := h
  have hthrown {frames : List Frame} {trace : List Occurrence} (hframes : frames.Sublist self.frames) :
      Once home { self with frames, trace } :=
    h.less (fun _ => .refl _) rfl rfl (less_of_sublist hframes)
  have hon (event : EventName) (listener : Nat) (maxListeners : Option Nat) :
      Once home (NativeEmitter.on { self with maxListeners } event (.listener listener)) :=
    Once.on (h.same rfl rfl rfl rfl) fun _ _ heq => by cases heq
  cases effect_of_step hstep with
  | on hruns listener => exact ⟨home, hon _ listener _⟩
  | addListener hruns listener => exact ⟨home, hon _ listener _⟩
  | @once event hruns listener =>
    obtain ⟨home, hmade, hadd⟩ := h.made event listener
    refine ⟨home, Once.on (hmade.same rfl rfl rfl rfl) fun id l heq => ?_⟩
    obtain ⟨rfl, rfl⟩ := Callback.wrapper.inj heq
    exact ⟨hadd.made, hadd.belongs, hadd.unplaced, hadd.unpended, hadd.unfiring, hadd.unfired⟩
  | off hruns hnext => exact ⟨home, h.removes (hthrown (.refl _)) hnext⟩
  | removeListener hruns hnext => exact ⟨home, h.removes (hthrown (.refl _)) hnext⟩
  | emit hruns event =>
    refine ⟨home, ?_⟩
    unfold NativeEmitter.emit
    split
    · exact hthrown (.refl _)
    · exact h.startEmit event
  | calls hframes =>
    refine ⟨home, h.less (fun _ => .refl _) rfl rfl ?_⟩
    rw [hframes]
    exact less_emitting (fun _ hmem => List.mem_cons_of_mem _ hmem) true
  | passes hframes hfired =>
    refine ⟨home, h.less (fun _ => .refl _) rfl rfl ?_⟩
    rw [hframes]
    exact less_emitting (fun _ hmem => List.mem_cons_of_mem _ hmem) false
  | fires hframes hfired hnext =>
    refine ⟨home, once_fires h hframes hfired (hthrown ?_) hnext⟩
    rw [hframes]
    exact (unwind_sublist _).trans (List.sublist_cons_self ..)
  | emitted hframes => exact ⟨home, hthrown (hframes ▸ List.sublist_cons_self ..)⟩
  | @added event callback frames hframes =>
    have hpopped : Once home { self with frames } := hthrown (hframes ▸ List.sublist_cons_self ..)
    refine ⟨home, hpopped.append fun id listener heq => ?_⟩
    subst heq
    have hmem : .adding event (.wrapper id listener) ∈ self.frames := hframes ▸ List.mem_cons_self
    obtain ⟨hmade, hhome⟩ := h.mentioned _ hmem event id listener ⟨rfl, rfl⟩
    have hsole := h.sole id
    have hgone := h.gone id
    have hadds := h.added id
    have hwaits : (Callback.wrapper id listener).wraps id = true := wraps_iff.mpr ⟨listener, rfl⟩
    simp only [NativeEmitter.places, hframes, hhome, countP_adding, if_pos hwaits] at hsole hgone hadds
    refine ⟨hmade, hhome, ?_, fun frame hframe hpends => ?_, fun hfiring => ?_, fun hfired => ?_⟩
    · simp only [NativeEmitter.places]
      omega
    · have hnone := hadds frame (List.mem_cons_of_mem _ hframe) hpends
      omega
    · have hnone := (hgone (.inl (List.mem_cons_of_mem _ hfiring))).2
      omega
    · have hnone := (hgone (.inr hfired)).2
      omega
  | fired hframes => exact ⟨home, once_fire h hframes⟩
  | throws hframes =>
    refine ⟨home, hthrown ?_⟩
    rw [hframes]
    exact (unwind_sublist _).trans (List.sublist_cons_self ..)

theorem once_fresh (maxListeners : Option Nat) :
    Once (fun _ => (.name "", 0)) (NativeEmitter.fresh maxListeners) where
  registered _ _ _ hmem := absurd hmem List.not_mem_nil
  mentioned _ hmem := absurd hmem List.not_mem_nil
  sole _ := Nat.zero_le 1
  added _ _ hmem := absurd hmem List.not_mem_nil
  gone _ hgone := hgone.elim (absurd · List.not_mem_nil) (absurd · List.not_mem_nil)
  removed := .nil
  unfired _ hmem := absurd hmem List.not_mem_nil
  nodup := .nil

/-- For every limit to start with, and every sequence of calls, made by listeners or not: a function
    given to `once` is called at most once, and by then its wrapper is a listener of no event and will
    not be one again. -/
theorem once_fires_once (maxListeners : Option Nat) (actions : List Action) :
    machine.Always (fun s => s.fired.Nodup ∧ ∀ id ∈ s.fired, id < s.wrappers ∧
      ∀ event listener, .wrapper id listener ∉ s.events event) (NativeEmitter.fresh maxListeners) actions := by
  have halways : machine.Always (fun s => ∃ home, Once home s) (NativeEmitter.fresh maxListeners) actions :=
    Machine.always_of_step (fun _ _ _ h hstep => once_step h hstep) ⟨_, once_fresh maxListeners⟩
  refine halways.imp fun s hs => ?_
  obtain ⟨home, h⟩ := hs
  exact ⟨h.nodup, fun id hfired => ⟨(h.gone id (.inr hfired)).1, fun event listener hmem =>
    (h.listening hmem).2.2 hfired⟩⟩

end EventEmitter

end anisa.eventEmitter
