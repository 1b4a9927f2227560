import Anisa.P2p.SocketServer.Tracking

open anisa.transition

namespace anisa.p2p

/-- How often the loops come to the socket: a request that the middleware lets through
    waits twice. -/
def ServerSocket.work (self : ServerSocket) : Nat :=
  2 * self.inbound.pending.length + self.customProc.pending.length

namespace SocketServer

/-- No event is waiting for a loop. -/
structure Quiet (s : SocketServer) : Prop where
  connections : s.connections.pending = []
  errors : s.errors.pending = []
  sockets : ∀ socket ∈ s.sockets, socket.inbound.pending = [] ∧ socket.customProc.pending = []

/-- Every error event has been logged, and every request of `customProc` answered
    once. -/
structure Complete (s : SocketServer) : Prop where
  logged : s.logged = s.emitted
  answered : ∀ id, s.requests[id]? = some "customProc" → s.responses.countP (·.1 = id) = 1

/-- The open server emits no error event, and a request with data passes the
    middleware only when the loop over the connections has come to its socket. -/
def InTime (s : SocketServer) : Action → Prop
  | .error _ => s.closed = true
  | .middleware i => ∀ socket request inbound, s.sockets[i]? = some socket →
      socket.inbound.next? = some (.invoke "customProc" request, inbound) → request.data.truthy = true →
        socket.customProc.begun = true
  | _ => True

/-- The loops can go on until nothing is left for them and all is done. -/
def Settled (s : SocketServer) : Prop :=
  ∃ loops t, (∀ a ∈ loops, a.ofLoop = true) ∧ machine.run s loops = some t ∧ Quiet t ∧ Complete t

/-- Nothing is lost. -/
structure Lossless (s : SocketServer) : Prop where
  emitted : s.emitted = []
  held : ∀ id, s.requests[id]? = some "customProc" → s.held id = 1

variable {s t : SocketServer} {a : Action} {i : Nat} {socket other : ServerSocket}

theorem inTime_iff (ha : ∀ message, a ≠ .error message) :
    InTime s a ↔ ∀ request, ¬ Loses s a "customProc" request := by
  cases a with
  | error message => exact absurd rfl (ha message)
  | middleware i =>
    refine ⟨?_, ?_⟩
    · rintro hintime request ⟨⟨j, socket, inbound, hmiddleware, hsocket, hnext, hnone⟩, hdata⟩
      obtain rfl := Action.middleware.inj hmiddleware
      have hbegun := hintime socket request inbound hsocket hnext hdata
      rw [hnone rfl] at hbegun
      cases hbegun
    · intro hloses socket request inbound hsocket hnext hdata
      by_contra hnot
      exact hloses request ⟨⟨i, socket, inbound, rfl, hsocket, hnext, fun _ => by simpa using hnot⟩, hdata⟩
  | _ => exact ⟨fun _ => not_loses (fun i h => by cases h) "customProc", fun _ => trivial⟩

theorem emitted_effect (h : Effect s a t) :
    (∃ message, a = .error message ∧ s.closed = false ∧ t.emitted = s.emitted ++ [message]) ∨
      (∀ message, a ≠ .error message) ∧ t.emitted = s.emitted := by
  cases h with
  | error message hopen => exact .inl ⟨message, rfl, hopen, rfl⟩
  | received action hnoLoop hnoError => exact .inr ⟨hnoError, rfl⟩
  | _ => exact .inr ⟨nofun, rfl⟩

theorem Loses.named {procedure : String} {request : SocketRequest} (hs : Tracked s)
    (h : Loses s a procedure request) : s.requests[request.id]? = some procedure := by
  obtain ⟨⟨i, socket, inbound, -, hsocket, hnext, -⟩, -⟩ := h
  refine (hs.listens hsocket).named procedure request ?_
  rw [(EventStream.next?_eq_some hnext).1]
  exact List.mem_cons_self

theorem Loses.unique {procedure other : String} {request request' : SocketRequest}
    (h : Loses s a procedure request) (hother : Loses s a other request') : other = procedure := by
  obtain ⟨⟨i, socket, inbound, rfl, hsocket, hnext, -⟩, -⟩ := h
  exact (InboundAction.invoke.inj (hother.at hsocket hnext).1).1.symm

/-- What one step loses is what was not in time. -/
theorem lossless_effect (hs : Tracked s) (hlossless : Lossless s) (h : Effect s a t) :
    Lossless t ↔ InTime s a := by
  obtain ⟨message, rfl, hopen, hemitted⟩ | ⟨hnoError, hemitted⟩ := emitted_effect h
  · refine iff_of_false (fun ht => ?_) (fun hclosed => ?_)
    · rw [ht.emitted] at hemitted
      exact List.concat_ne_nil message s.emitted hemitted.symm
    · rw [InTime, hopen] at hclosed
      cases hclosed
  · rw [inTime_iff hnoError]
    have hnone := hemitted.trans hlossless.emitted
    cases handles_effect hs h with
    | keeps hrequests hheld hloses =>
      refine iff_of_true ⟨hnone, fun id hid => ?_⟩ (hloses "customProc")
      rw [hheld]
      exact hlossless.held id (hrequests ▸ hid)
    | takes procedure hnoLoop hrequests hheld hloses =>
      refine iff_of_true ⟨hnone, fun id hid => ?_⟩ (hloses "customProc")
      rw [hheld]
      split
      · next heq => rw [hs.held_new id heq.ge]
      · next hne =>
        rw [hrequests] at hid
        have hlt := (List.getElem?_eq_some_iff.mp hid).1
        rw [List.length_append, List.length_singleton] at hlt
        rw [List.getElem?_append_left (by omega)] at hid
        exact hlossless.held id hid
    | loses procedure request hrequests hloses hheld =>
      have hnamed := hloses.named hs
      by_cases hprocedure : procedure = "customProc"
      · subst hprocedure
        refine iff_of_false (fun ht => ?_) (fun hnot => hnot request hloses)
        have hone := ht.held request.id (hrequests ▸ hnamed)
        have hle := hs.held_le request.id
        rw [hheld, hone, if_pos rfl] at hle
        omega
      · refine iff_of_true ⟨hnone, fun id hid => ?_⟩ fun request' hother => ?_
        · rw [hrequests] at hid
          have hone := hlossless.held id hid
          rw [hheld, if_neg] at hone
          · exact hone
          · rintro rfl
            exact hprocedure (Option.some.inj (hnamed.symm.trans hid))
        · exact hprocedure (hloses.unique hother).symm

theorem Quiet.held (h : Quiet s) (id : Nat) : s.held id = s.responses.countP (·.1 = id) := by
  have hnone : ∀ n ∈ s.sockets.map (ServerSocket.holds id), n = 0 := by
    intro n hn
    obtain ⟨socket, hsocket, rfl⟩ := List.mem_map.mp hn
    obtain ⟨hinbound, hcustomProc⟩ := h.sockets socket hsocket
    rw [ServerSocket.holds, hinbound, hcustomProc]
    rfl
  rw [SocketServer.held, List.sum_eq_zero hnone]
  rfl

theorem complete_of_lossless (hs : Tracked s) (hlossless : Lossless s) (hquiet : Quiet s) : Complete s where
  logged := hs.unlogged.1.trans hlossless.emitted.symm
  answered id hid := (hquiet.held id).symm.trans (hlossless.held id hid)

theorem lossless_of_complete (hs : Tracked s) (h : Complete s) : Lossless s where
  emitted := h.logged.symm.trans hs.unlogged.1
  held id hid := by
    have hanswered := h.answered id hid
    have hle := hs.held_le id
    simp only [SocketServer.held] at hle ⊢
    omega

def work (s : SocketServer) : Nat :=
  s.connections.pending.length + (if s.connections.begun then 1 else 0) + s.errors.pending.length +
    (s.sockets.map ServerSocket.work).sum

theorem work_set_lt (hsocket : s.sockets[i]? = some socket) (ht : t.sockets = s.sockets.set i other)
    (hconnections : t.connections = s.connections) (herrors : t.errors = s.errors)
    (hless : other.work < socket.work) : t.work < s.work := by
  have hsum := sum_map_set (f := ServerSocket.work) (b := other) hsocket
  rw [work, work, ht, hconnections, herrors]
  omega

theorem work_taken {action : InboundAction} {inbound : EventStream InboundAction}
    (hnext : socket.inbound.next? = some (action, inbound)) :
    socket.work = ServerSocket.work { socket with inbound } + 2 := by
  simp only [ServerSocket.work, (EventStream.next?_eq_some hnext).1, List.length_cons]
  omega

theorem work_emit_le (socket : ServerSocket) (request : SocketRequest) (inbound : EventStream InboundAction) :
    ServerSocket.work { inbound, customProc := socket.customProc.emit request } ≤
      ServerSocket.work { socket with inbound } + 1 := by
  cases hbegun : socket.customProc.begun with
  | false => simp [ServerSocket.work, EventStream.pending_emit_of_not_begun hbegun]
  | true => simp [ServerSocket.work, EventStream.pending_emit hbegun, Nat.add_assoc]

/-- Every loop comes to an end, whatever the order. -/
theorem work_effect (h : Effect s a t) (hloop : a.ofLoop = true) : t.work < s.work := by
  cases h with
  | connection hopen => cases hloop
  | received action hnoLoop =>
    rw [hnoLoop] at hloop
    cases hloop
  | invoked procedure data hopen hsocket => cases hloop
  | error message hopen => cases hloop
  | close hopen => cases hloop
  | @accept i socket connections hnext hsocket =>
    have hsum := sum_map_set (f := ServerSocket.work)
      (b := { socket with customProc := socket.customProc.iterate }) hsocket
    have hsame : ServerSocket.work { socket with customProc := socket.customProc.iterate } =
      socket.work := rfl
    obtain ⟨hpending, hbegun, hrest⟩ := EventStream.next?_eq_some hnext
    rw [work, work, hpending, hbegun, hrest, List.length_cons]
    dsimp only
    omega
  | connectionsEnd hclosed hbegun hnone =>
    simp only [work, hbegun, hnone, EventStream.pending_new, EventStream.begun_new,
      EventStream.pending_iterate, if_true, Bool.false_eq_true, if_false]
    omega
  | log hnext =>
    simp only [work, (EventStream.next?_eq_some hnext).1, List.length_cons]
    omega
  | passed hsocket hnext hother =>
    have htaken := work_taken hnext
    exact work_set_lt hsocket rfl rfl rfl (by omega)
  | blocked hsocket hnext hdata =>
    have htaken := work_taken hnext
    exact work_set_lt hsocket rfl rfl rfl (by omega)
  | @allowed i socket request inbound hsocket hnext hdata =>
    have htaken := work_taken hnext
    have hemit := work_emit_le socket request inbound
    exact work_set_lt hsocket rfl rfl rfl (by omega)
  | unserved hsocket hnext hdata hprocedure =>
    have htaken := work_taken hnext
    exact work_set_lt hsocket rfl rfl rfl (by omega)
  | respond hsocket hnext =>
    refine work_set_lt hsocket rfl rfl rfl ?_
    simp only [ServerSocket.work, (EventStream.next?_eq_some hnext).1, List.length_cons]
    omega

/-- What waits is taken by some loop, and in time if the connections come first. -/
theorem exists_loop_of_not_quiet (hs : Tracked s) (hnot : ¬ Quiet s) :
    ∃ a, a.ofLoop = true ∧ (machine.step s a).isSome = true ∧ InTime s a := by
  by_cases hconnections : s.connections.pending = []
  · have hbegun (i : Nat) (socket : ServerSocket) (hsocket : s.sockets[i]? = some socket) :
        socket.customProc.begun = true := by
      by_contra hunbegun
      have hwaits := hs.awaited i socket hsocket (by simpa using hunbegun)
      rw [hconnections] at hwaits
      cases hwaits
    have hsome : ∃ socket ∈ s.sockets, ¬ (socket.inbound.pending = [] ∧ socket.customProc.pending = []) := by
      by_contra hnone
      push Not at hnone
      exact hnot ⟨hconnections, hs.unlogged.2, hnone⟩
    obtain ⟨socket, hmem, hwaits⟩ := hsome
    obtain ⟨i, hsocket⟩ := List.mem_iff_getElem?.mp hmem
    by_cases hinbound : socket.inbound.pending = []
    · obtain ⟨request, requests, hnext⟩ := EventStream.exists_next? fun hnone => hwaits ⟨hinbound, hnone⟩
      exact ⟨.respond i, rfl, by simp [machine, step, hsocket, hnext], trivial⟩
    · obtain ⟨action, inbound, hnext⟩ := EventStream.exists_next? hinbound
      refine ⟨.middleware i, rfl, by simp [machine, step, hsocket, hnext], fun found _ _ hfound _ _ => ?_⟩
      exact hbegun i found hfound
  · obtain ⟨i, connections, hnext⟩ := EventStream.exists_next? hconnections
    have hlt : i < s.sockets.length := by
      refine hs.opened i ?_
      rw [(EventStream.next?_eq_some hnext).1]
      exact List.mem_cons_self
    exact ⟨.accept, rfl, by simp [machine, step, hnext, List.getElem?_eq_getElem hlt], trivial⟩

/-- The loops make up for nothing that is lost. -/
theorem lossless_of_loop (hs : Tracked s) (h : Effect s a t) (hloop : a.ofLoop = true) (ht : Lossless t) :
    Lossless s := by
  have hemitted : t.emitted = s.emitted := by
    obtain ⟨message, rfl, -⟩ | ⟨-, hemitted⟩ := emitted_effect h
    · cases hloop
    · exact hemitted
  refine ⟨hemitted.symm.trans ht.emitted, fun id hid => ?_⟩
  have hle := hs.held_le id
  cases handles_effect hs h with
  | keeps hrequests hheld =>
    rw [← hheld]
    exact ht.held id (hrequests ▸ hid)
  | takes procedure hnoLoop =>
    rw [hnoLoop] at hloop
    cases hloop
  | loses procedure request hrequests hloses hheld =>
    have hone := ht.held id (hrequests ▸ hid)
    rw [hheld] at hle ⊢
    omega

theorem lossless_of_loops {loops : List Action} (hs : Tracked s) (hloops : ∀ a ∈ loops, a.ofLoop = true)
    (hrun : machine.run s loops = some t) (ht : Lossless t) : Lossless s := by
  induction loops generalizing s with
  | nil =>
    obtain rfl : s = t := by simpa using hrun
    exact ht
  | cons a loops ih =>
    obtain ⟨m, hm, hrest⟩ := Machine.run_cons_eq_some.mp hrun
    rw [List.forall_mem_cons] at hloops
    exact lossless_of_loop hs (effect_of_step hm) hloops.1 (ih (tracked_step hs hm) hloops.2 hrest)

theorem tracked_loops {loops : List Action} (hs : Tracked s) (hrun : machine.run s loops = some t) :
    Tracked t :=
  Machine.run_invariant (fun _ _ _ => tracked_step) hs hrun

theorem settled_iff (hs : Tracked s) : Settled s ↔ Lossless s := by
  refine ⟨?_, fun hlossless => ?_⟩
  · rintro ⟨loops, t, hloops, hrun, -, hcomplete⟩
    exact lossless_of_loops hs hloops hrun (lossless_of_complete (tracked_loops hs hrun) hcomplete)
  · have hprogress (s : SocketServer) (h : Tracked s ∧ Lossless s) (hnot : ¬ Quiet s) :
        ∃ (a : Action) (t : SocketServer), a.ofLoop = true ∧ machine.step s a = some t ∧
          (Tracked t ∧ Lossless t) ∧ t.work < s.work := by
      obtain ⟨a, hloop, henabled, hintime⟩ := exists_loop_of_not_quiet h.1 hnot
      obtain ⟨t, hstep⟩ := Option.isSome_iff_exists.mp henabled
      have heffect := effect_of_step hstep
      exact ⟨a, t, hloop, hstep, ⟨h.1.effect heffect, (lossless_effect h.1 h.2 heffect).mpr hintime⟩,
        work_effect heffect hloop⟩
    obtain ⟨loops, t, hloops, hrun, ⟨ht, hkept⟩, hquiet⟩ :=
      Machine.exists_run_of_progress (L := fun a : Action => a.ofLoop = true) hprogress ⟨hs, hlossless⟩
    exact ⟨loops, t, hloops, hrun, hquiet, complete_of_lossless ht hkept hquiet⟩

theorem lossless_start : Lossless start where
  emitted := rfl
  held _ hid := by cases hid

theorem inTime_of_disabled (h : machine.step s a = none) : InTime s a := by
  cases a with
  | error message =>
    simp only [machine, step] at h
    split at h
    · next hclosed => exact hclosed
    · cases h
  | middleware i =>
    intro socket request inbound hsocket hnext
    simp [machine, step, hsocket, hnext] at h
  | _ => trivial

/-- Along a run that is in time, wherever the loops have nothing left every error
    event is logged and every request of `customProc` answered once. The runs that
    are in time are those in which the loops can always get there. -/
theorem events_served (actions : List Action) :
    (machine.Along InTime start actions →
      machine.Always (fun s => Quiet s → Complete s) start actions) ∧
    (machine.Always Settled start actions ↔ machine.Along InTime start actions) := by
  have hlossless : machine.Along InTime start actions →
      machine.Always (fun s => Tracked s ∧ Lossless s) start actions :=
    Machine.always_of_along (fun s a t hs hintime hstep =>
      ⟨tracked_step hs.1 hstep, (lossless_effect hs.1 hs.2 (effect_of_step hstep)).mpr hintime⟩)
      ⟨tracked_start, lossless_start⟩
  refine ⟨fun halong => (hlossless halong).imp fun s hs => complete_of_lossless hs.1 hs.2, ?_⟩
  refine Machine.always_iff_along (fun s a t => tracked_step) (fun s a t hs hsettled hstep => ?_)
    (fun s a => inTime_of_disabled) ((settled_iff tracked_start).mpr lossless_start) tracked_start
  rw [settled_iff (tracked_step hs hstep)]
  exact lossless_effect hs ((settled_iff hs).mp hsettled) (effect_of_step hstep)

/-- An error event of the open server: the loop over them has not begun. -/
theorem error_event_not_logged :
    ¬ machine.Always (fun s => Quiet s → Complete s) start [.error "socket hung up"] := by
  intro halways
  have hlast := halways.last rfl
  have hcomplete := hlast ⟨rfl, rfl, fun _ hmem => by cases hmem⟩
  exact absurd hcomplete.logged (by decide)

end SocketServer

end anisa.p2p
