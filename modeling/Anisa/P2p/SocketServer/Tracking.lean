import Anisa.P2p.SocketServer

open anisa.js anisa.transition

namespace anisa.p2p

def InboundAction.hasId (id : Nat) : InboundAction → Bool
  | .invoke _ request => request.id = id
  | _ => false

/-- How often a request with this id waits at the socket. -/
def ServerSocket.holds (id : Nat) (self : ServerSocket) : Nat :=
  self.inbound.pending.countP (InboundAction.hasId id) + self.customProc.pending.countP (·.id = id)

namespace SocketServer

/-- How often a request with this id is answered or waits. -/
def held (s : SocketServer) (id : Nat) : Nat :=
  s.responses.countP (·.1 = id) + (s.sockets.map (ServerSocket.holds id)).sum

/-- The middleware lets a request through to where no loop takes it. -/
structure Loses (s : SocketServer) (a : Action) (procedure : String) (request : SocketRequest) : Prop where
  next : ∃ i socket inbound, a = .middleware i ∧ s.sockets[i]? = some socket ∧
    socket.inbound.next? = some (.invoke procedure request, inbound) ∧
    (procedure = "customProc" → socket.customProc.begun = false)
  data : request.data.truthy = true

/-- The middleware's loop goes over the actions of the socket, and a request has its
    place among all of them. -/
structure Listens (requests : List String) (socket : ServerSocket) : Prop where
  begun : socket.inbound.begun = true
  named : ∀ procedure request, .invoke procedure request ∈ socket.inbound.pending →
    requests[request.id]? = some procedure

/-- The loop over the connections has come to the socket, or will. -/
def Awaited (s : SocketServer) : Prop :=
  ∀ i socket, s.sockets[i]? = some socket → socket.customProc.begun = false → i ∈ s.connections.pending

/-- What is true of the server in every run. -/
structure Tracked (s : SocketServer) : Prop where
  sockets : ∀ socket ∈ s.sockets, Listens s.requests socket
  opened : ∀ i ∈ s.connections.pending, i < s.sockets.length
  awaited : Awaited s
  listening : s.closed = false → s.connections.begun = true ∧ s.errors.begun = false
  unlogged : s.logged = [] ∧ s.errors.pending = []
  held_le : ∀ id, s.held id ≤ 1
  held_new : ∀ id, s.requests.length ≤ id → s.held id = 0

variable {s t : SocketServer} {a : Action} {i id : Nat} {socket other : ServerSocket}
  {responses : List (Nat × SocketResponse)}

theorem held_set (hsocket : s.sockets[i]? = some socket) (other : ServerSocket)
    (responses : List (Nat × SocketResponse)) (id : Nat) :
    held { s with sockets := s.sockets.set i other, responses } id + socket.holds id +
        s.responses.countP (·.1 = id) =
      s.held id + other.holds id + responses.countP (·.1 = id) := by
  have hsum := sum_map_set (f := ServerSocket.holds id) (b := other) hsocket
  simp only [held]
  omega

/-- What a socket no longer holds is answered. -/
theorem held_set_eq (hsocket : s.sockets[i]? = some socket)
    (hsame : other.holds id + responses.countP (·.1 = id) = socket.holds id + s.responses.countP (·.1 = id)) :
    held { s with sockets := s.sockets.set i other, responses } id = s.held id := by
  have hset := held_set hsocket other responses id
  omega

theorem holds_receive (hbegun : socket.inbound.begun = true) (action : InboundAction) (id : Nat) :
    ServerSocket.holds id { socket with inbound := socket.inbound.emit action } =
      socket.holds id + if action.hasId id then 1 else 0 := by
  simp only [ServerSocket.holds, EventStream.pending_emit hbegun, List.countP_append, List.countP_singleton]
  omega

theorem holds_taken {action : InboundAction} {inbound : EventStream InboundAction}
    (hnext : socket.inbound.next? = some (action, inbound)) (id : Nat) :
    socket.holds id = ServerSocket.holds id { socket with inbound } + if action.hasId id then 1 else 0 := by
  simp only [ServerSocket.holds, (EventStream.next?_eq_some hnext).1, List.countP_cons]
  omega

theorem holds_respond {request : SocketRequest} {requests : EventStream SocketRequest}
    (hnext : socket.customProc.next? = some (request, requests)) (id : Nat) :
    socket.holds id = ServerSocket.holds id { socket with customProc := requests } +
      if request.id = id then 1 else 0 := by
  simp only [ServerSocket.holds, (EventStream.next?_eq_some hnext).1, List.countP_cons, decide_eq_true_eq]
  omega

theorem holds_emit (request : SocketRequest) (inbound : EventStream InboundAction) (id : Nat) :
    ServerSocket.holds id { inbound, customProc := socket.customProc.emit request } =
      ServerSocket.holds id { socket with inbound } +
        if socket.customProc.begun = true ∧ request.id = id then 1 else 0 := by
  rw [ServerSocket.holds, ServerSocket.holds]
  cases hbegun : socket.customProc.begun with
  | false =>
    rw [EventStream.pending_emit_of_not_begun hbegun]
    simp
  | true =>
    rw [EventStream.pending_emit hbegun, List.countP_append, List.countP_singleton]
    simp only [decide_eq_true_eq, true_and]
    omega

theorem countP_answered (responses : List (Nat × SocketResponse)) (answered : Nat) (answer : SocketResponse)
    (id : Nat) : (responses ++ [(answered, answer)]).countP (·.1 = id) =
      responses.countP (·.1 = id) + if answered = id then 1 else 0 := by
  rw [List.countP_append, List.countP_singleton]
  simp only [decide_eq_true_eq]

theorem hasId_invoke {procedure : String} {request : SocketRequest} :
    (InboundAction.invoke procedure request).hasId id = true ↔ request.id = id := decide_eq_true_iff

theorem hasId_other {action : InboundAction} (h : ∀ procedure request, action ≠ .invoke procedure request)
    (id : Nat) : action.hasId id = false := by
  cases action with
  | invoke procedure request => exact absurd rfl (h procedure request)
  | _ => rfl

/-- What a step does with the requests: it keeps them, takes up a new one, or loses
    one. -/
inductive Handles (s : SocketServer) (a : Action) (t : SocketServer) : Prop
  | keeps (hrequests : t.requests = s.requests) (hheld : ∀ id, t.held id = s.held id)
      (hloses : ∀ procedure request, ¬ Loses s a procedure request)
  | takes (procedure : String) (hnoLoop : a.ofLoop = false)
      (hrequests : t.requests = s.requests ++ [procedure])
      (hheld : ∀ id, t.held id = s.held id + if id = s.requests.length then 1 else 0)
      (hloses : ∀ procedure request, ¬ Loses s a procedure request)
  | loses (procedure : String) (request : SocketRequest) (hrequests : t.requests = s.requests)
      (hloses : Loses s a procedure request)
      (hheld : ∀ id, s.held id = t.held id + if request.id = id then 1 else 0)

theorem not_loses (h : ∀ i, a ≠ .middleware i) (procedure : String) (request : SocketRequest) :
    ¬ Loses s a procedure request := by
  rintro ⟨⟨i, _, _, hmiddleware, -⟩, -⟩
  exact h i hmiddleware

/-- At a socket the middleware has one action next. -/
theorem Loses.at {procedure : String} {request : SocketRequest} {action : InboundAction}
    {inbound : EventStream InboundAction} (h : Loses s (.middleware i) procedure request)
    (hsocket : s.sockets[i]? = some socket) (hnext : socket.inbound.next? = some (action, inbound)) :
    action = .invoke procedure request ∧ (procedure = "customProc" → socket.customProc.begun = false) := by
  obtain ⟨⟨j, found, rest, hmiddleware, hfound, hfoundNext, hnone⟩, -⟩ := h
  obtain rfl := Action.middleware.inj hmiddleware
  obtain rfl := Option.some.inj (hsocket.symm.trans hfound)
  exact ⟨(Prod.mk.inj (Option.some.inj (hnext.symm.trans hfoundNext))).1, hnone⟩

theorem handles_effect (hs : Tracked s) (h : Effect s a t) : Handles s a t := by
  have hbegun {i : Nat} {socket : ServerSocket} (hsocket : s.sockets[i]? = some socket) :
      socket.inbound.begun = true :=
    (hs.sockets socket (List.mem_of_getElem? hsocket)).begun
  cases h with
  | connection hopen =>
    refine .keeps rfl (fun id => ?_) (not_loses nofun)
    simp [held, newSocket, ServerSocket.holds]
  | received action hnoLoop hnoError hother hopen hsocket =>
    refine .keeps rfl (fun id => held_set_eq hsocket ?_) (not_loses fun j hmiddleware => ?_)
    · rw [holds_receive (hbegun hsocket), hasId_other hother, if_neg Bool.false_ne_true, Nat.add_zero]
    · rw [hmiddleware] at hnoLoop
      cases hnoLoop
  | @invoked i socket procedure data hopen hsocket =>
    refine .takes procedure rfl rfl (fun id => ?_) (not_loses nofun)
    have hset := held_set hsocket
      { socket with inbound := socket.inbound.emit (.invoke procedure ⟨s.requests.length, data⟩) }
      s.responses id
    rw [holds_receive (hbegun hsocket)] at hset
    simp only [hasId_invoke, eq_comm (b := id)] at hset
    simp only [held] at hset ⊢
    omega
  | error message hopen => exact .keeps rfl (fun id => rfl) (not_loses nofun)
  | close hopen => exact .keeps rfl (fun id => rfl) (not_loses nofun)
  | accept hnext hsocket => exact .keeps rfl (fun id => held_set_eq hsocket rfl) (not_loses nofun)
  | connectionsEnd hclosed hends hnone => exact .keeps rfl (fun id => rfl) (not_loses nofun)
  | log hnext => exact .keeps rfl (fun id => rfl) (not_loses nofun)
  | passed hsocket hnext hother =>
    refine .keeps rfl (fun id => held_set_eq hsocket ?_) fun procedure request hloses => ?_
    · rw [holds_taken hnext, hasId_other hother, if_neg Bool.false_ne_true, Nat.add_zero]
    · exact hother procedure request (hloses.at hsocket hnext).1
  | blocked hsocket hnext hdata =>
    refine .keeps rfl (fun id => held_set_eq hsocket ?_) fun procedure request hloses => ?_
    · rw [holds_taken hnext, countP_answered]
      simp only [hasId_invoke]
      omega
    · obtain ⟨-, rfl⟩ := InboundAction.invoke.inj (hloses.at hsocket hnext).1
      rw [hloses.data] at hdata
      cases hdata
  | @allowed i socket request inbound hsocket hnext hdata =>
    have htaken := holds_taken hnext
    simp only [hasId_invoke] at htaken
    cases hstarted : socket.customProc.begun with
    | true =>
      refine .keeps rfl (fun id => held_set_eq hsocket ?_) fun procedure request' hloses => ?_
      · rw [htaken, holds_emit]
        simp only [hstarted, true_and]
      · obtain ⟨hsame, hnone⟩ := hloses.at hsocket hnext
        rw [hnone (InboundAction.invoke.inj hsame).1.symm] at hstarted
        cases hstarted
    | false =>
      refine .loses "customProc" request rfl
        ⟨⟨i, socket, inbound, rfl, hsocket, hnext, fun _ => hstarted⟩, hdata⟩ fun id => ?_
      have hset := held_set hsocket { inbound, customProc := socket.customProc.emit request } s.responses id
      rw [htaken, holds_emit] at hset
      simp only [hstarted, Bool.false_eq_true, false_and, if_false] at hset
      omega
  | @unserved i socket procedure request inbound hsocket hnext hdata hprocedure =>
    refine .loses procedure request rfl
      ⟨⟨i, socket, inbound, rfl, hsocket, hnext, fun heq => absurd heq hprocedure⟩, hdata⟩ fun id => ?_
    have hset := held_set hsocket { socket with inbound } s.responses id
    rw [holds_taken hnext] at hset
    simp only [hasId_invoke] at hset
    omega
  | respond hsocket hnext =>
    refine .keeps rfl (fun id => held_set_eq hsocket ?_) (not_loses nofun)
    rw [holds_respond hnext, countP_answered]
    omega

theorem Listens.set {requests : List String} {sockets : List ServerSocket}
    (hall : ∀ x ∈ sockets, Listens requests x) (hother : Listens requests other) :
    ∀ x ∈ sockets.set i other, Listens requests x := by
  intro x hx
  obtain hx | rfl := List.mem_or_eq_of_mem_set hx
  · exact hall x hx
  · exact hother

theorem Listens.taken {requests : List String} {action : InboundAction}
    {inbound : EventStream InboundAction} (h : Listens requests socket)
    (hnext : socket.inbound.next? = some (action, inbound)) (customProc : EventStream SocketRequest) :
    Listens requests ⟨inbound, customProc⟩ := by
  obtain ⟨hpending, -, hbegun⟩ := EventStream.next?_eq_some hnext
  refine ⟨hbegun, fun procedure request hmem => h.named procedure request ?_⟩
  rw [hpending]
  exact List.mem_cons_of_mem _ hmem

theorem Listens.mono {requests : List String} (h : Listens requests socket) (procedure : String) :
    Listens (requests ++ [procedure]) socket := by
  refine ⟨h.begun, fun procedure' request hmem => ?_⟩
  have hget := h.named procedure' request hmem
  rw [List.getElem?_append_left (List.getElem?_eq_some_iff.mp hget).1, hget]

/-- Another action of the socket, and the request in it if there is one. -/
theorem Listens.receive {requests : List String} {action : InboundAction} (h : Listens requests socket)
    (haction : ∀ procedure request, action = .invoke procedure request →
      requests[request.id]? = some procedure) :
    Listens requests { socket with inbound := socket.inbound.emit action } := by
  refine ⟨EventStream.begun_emit.trans h.begun, fun procedure request hmem => ?_⟩
  dsimp only at hmem
  rw [EventStream.pending_emit h.begun, List.mem_append, List.mem_singleton] at hmem
  obtain hmem | heq := hmem
  · exact h.named procedure request hmem
  · exact haction procedure request heq.symm

theorem Tracked.listens (hs : Tracked s) (hsocket : s.sockets[i]? = some socket) :
    Listens s.requests socket :=
  hs.sockets socket (List.mem_of_getElem? hsocket)

theorem listens_effect (hs : Tracked s) (h : Effect s a t) : ∀ x ∈ t.sockets, Listens t.requests x := by
  cases h with
  | connection hopen =>
    intro x hx
    obtain hx | rfl := mem_append_singleton.mp hx
    · exact hs.sockets x hx
    · exact ⟨rfl, fun _ _ hmem => absurd hmem List.not_mem_nil⟩
  | received action hnoLoop hnoError hother hopen hsocket =>
    exact Listens.set hs.sockets ((hs.listens hsocket).receive fun procedure request heq =>
      absurd heq (hother procedure request))
  | invoked procedure data hopen hsocket =>
    refine Listens.set (fun x hx => (hs.sockets x hx).mono procedure) ?_
    refine ((hs.listens hsocket).mono procedure).receive fun procedure' request heq => ?_
    obtain ⟨rfl, rfl⟩ := InboundAction.invoke.inj heq
    exact List.getElem?_concat_length
  | error message hopen => exact hs.sockets
  | close hopen => exact hs.sockets
  | accept hnext hsocket =>
    exact Listens.set hs.sockets ⟨(hs.listens hsocket).begun, (hs.listens hsocket).named⟩
  | connectionsEnd hclosed hbegun hnone => exact hs.sockets
  | log hnext => exact hs.sockets
  | passed hsocket hnext hother => exact Listens.set hs.sockets ((hs.listens hsocket).taken hnext _)
  | blocked hsocket hnext hdata => exact Listens.set hs.sockets ((hs.listens hsocket).taken hnext _)
  | allowed hsocket hnext hdata => exact Listens.set hs.sockets ((hs.listens hsocket).taken hnext _)
  | unserved hsocket hnext hdata hprocedure =>
    exact Listens.set hs.sockets ((hs.listens hsocket).taken hnext _)
  | respond hsocket hnext =>
    exact Listens.set hs.sockets ⟨(hs.listens hsocket).begun, (hs.listens hsocket).named⟩

/-- Sockets whose loop has begun stay so. -/
theorem Awaited.set (h : Awaited s) (hsocket : s.sockets[i]? = some socket)
    (ht : t.sockets = s.sockets.set i other) (hconnections : t.connections = s.connections)
    (hbegun : socket.customProc.begun = true → other.customProc.begun = true) : Awaited t := by
  intro j x hx hnot
  rw [ht] at hx
  rw [hconnections]
  obtain ⟨rfl, rfl⟩ | ⟨-, hx⟩ := set_cases hx
  · refine h j socket hsocket ?_
    by_contra hstarted
    rw [hbegun (by simpa using hstarted)] at hnot
    cases hnot
  · exact h j x hx hnot

theorem awaited_effect (hs : Tracked s) (h : Effect s a t) : Awaited t := by
  cases h with
  | connection hopen =>
    intro j x hx hnot
    dsimp only at hx ⊢
    rw [EventStream.pending_emit (hs.listening hopen).1, List.mem_append, List.mem_singleton]
    rw [List.getElem?_append] at hx
    split at hx
    · exact .inl (hs.awaited j x hx hnot)
    · obtain ⟨hlt, -⟩ := List.getElem?_eq_some_iff.mp hx
      rw [List.length_singleton] at hlt
      exact .inr (by omega)
  | received action hnoLoop hnoError hother hopen hsocket => exact hs.awaited.set hsocket rfl rfl id
  | invoked procedure data hopen hsocket => exact hs.awaited.set hsocket rfl rfl id
  | error message hopen => exact hs.awaited
  | close hopen => exact hs.awaited
  | @accept i socket connections hnext hsocket =>
    intro j x hx hnot
    dsimp only at hx ⊢
    obtain ⟨rfl, rfl⟩ | ⟨hne, hx⟩ := set_cases hx
    · cases hnot
    · have hwaits := hs.awaited j x hx hnot
      rw [(EventStream.next?_eq_some hnext).1] at hwaits
      exact (List.mem_cons.mp hwaits).resolve_left hne
  | connectionsEnd hclosed hbegun hnone =>
    intro j x hx hnot
    have hwaits := hs.awaited j x hx hnot
    rw [hnone] at hwaits
    cases hwaits
  | log hnext => exact hs.awaited
  | passed hsocket hnext hother => exact hs.awaited.set hsocket rfl rfl id
  | blocked hsocket hnext hdata => exact hs.awaited.set hsocket rfl rfl id
  | allowed hsocket hnext hdata =>
    exact hs.awaited.set hsocket rfl rfl fun hbegun => EventStream.begun_emit.trans hbegun
  | unserved hsocket hnext hdata hprocedure => exact hs.awaited.set hsocket rfl rfl id
  | respond hsocket hnext =>
    exact hs.awaited.set hsocket rfl rfl fun _ => (EventStream.next?_eq_some hnext).2.2

theorem opened_effect (hs : Tracked s) (h : Effect s a t) :
    ∀ i ∈ t.connections.pending, i < t.sockets.length := by
  have hset {i : Nat} {other : ServerSocket} : (s.sockets.set i other).length = s.sockets.length :=
    List.length_set
  cases h with
  | connection hopen =>
    dsimp only
    intro i hi
    rw [EventStream.pending_emit (hs.listening hopen).1, List.mem_append, List.mem_singleton] at hi
    rw [List.length_append, List.length_singleton]
    obtain hi | rfl := hi
    · have hlt := hs.opened i hi
      omega
    · omega
  | accept hnext hsocket =>
    intro j hj
    have hold := hs.opened j
    rw [(EventStream.next?_eq_some hnext).1] at hold
    exact hset.symm ▸ hold (List.mem_cons_of_mem _ hj)
  | connectionsEnd hclosed hbegun hnone => exact fun _ hi => absurd hi List.not_mem_nil
  | error message hopen => exact hs.opened
  | close hopen => exact hs.opened
  | log hnext => exact hs.opened
  | _ => exact hset.symm ▸ hs.opened

theorem listening_effect (hs : Tracked s) (h : Effect s a t) (hopen : t.closed = false) :
    t.connections.begun = true ∧ t.errors.begun = false := by
  cases h with
  | connection hclosed =>
    obtain ⟨hconnections, herrors⟩ := hs.listening hclosed
    exact ⟨EventStream.begun_emit.trans hconnections, herrors⟩
  | error message hclosed =>
    obtain ⟨hconnections, herrors⟩ := hs.listening hclosed
    exact ⟨hconnections, EventStream.begun_emit.trans herrors⟩
  | close hclosed => cases hopen
  | accept hnext hsocket => exact ⟨(EventStream.next?_eq_some hnext).2.2, (hs.listening hopen).2⟩
  | connectionsEnd hclosed hbegun hnone =>
    rw [hclosed] at hopen
    cases hopen
  | log hnext =>
    have hbegun := (EventStream.next?_eq_some hnext).2.1
    rw [(hs.listening hopen).2] at hbegun
    cases hbegun
  | _ => exact hs.listening hopen

/-- While the server is open nobody goes over the error events, and then there are
    none. -/
theorem unlogged_effect (hs : Tracked s) (h : Effect s a t) : t.logged = [] ∧ t.errors.pending = [] := by
  cases h with
  | error message hopen =>
    exact ⟨hs.unlogged.1, (EventStream.pending_emit_of_not_begun (hs.listening hopen).2).trans hs.unlogged.2⟩
  | log hnext =>
    have hnone := hs.unlogged.2
    rw [(EventStream.next?_eq_some hnext).1] at hnone
    cases hnone
  | _ => exact hs.unlogged

theorem held_effect (hs : Tracked s) (h : Effect s a t) :
    (∀ id, t.held id ≤ 1) ∧ ∀ id, t.requests.length ≤ id → t.held id = 0 := by
  cases handles_effect hs h with
  | keeps hrequests hheld =>
    rw [hrequests]
    exact ⟨fun id => hheld id ▸ hs.held_le id, fun id hid => hheld id ▸ hs.held_new id hid⟩
  | takes procedure hnoLoop hrequests hheld =>
    rw [hrequests]
    refine ⟨fun id => ?_, fun id hid => ?_⟩
    · rw [hheld]
      split
      · next heq => rw [hs.held_new id heq.ge]
      · exact hs.held_le id
    · rw [List.length_append, List.length_singleton] at hid
      rw [hheld, if_neg (by omega), hs.held_new id (by omega)]
  | loses procedure request hrequests hloses hheld =>
    rw [hrequests]
    refine ⟨fun id => ?_, fun id hid => ?_⟩
    · have hle := hs.held_le id
      rw [hheld] at hle
      exact (Nat.le_add_right _ _).trans hle
    · have hnone := hs.held_new id hid
      rw [hheld] at hnone
      exact (Nat.add_eq_zero_iff.mp hnone).1

theorem Tracked.effect (hs : Tracked s) (h : Effect s a t) : Tracked t where
  sockets := listens_effect hs h
  opened := opened_effect hs h
  awaited := awaited_effect hs h
  listening := listening_effect hs h
  unlogged := unlogged_effect hs h
  held_le := (held_effect hs h).1
  held_new := (held_effect hs h).2

theorem tracked_step (hs : Tracked s) (h : machine.step s a = some t) : Tracked t :=
  hs.effect (effect_of_step h)

theorem tracked_start : Tracked start where
  sockets := nofun
  opened := nofun
  awaited := nofun
  listening _ := ⟨rfl, rfl⟩
  unlogged := ⟨rfl, rfl⟩
  held_le _ := Nat.zero_le 1
  held_new _ _ := rfl

end SocketServer

end anisa.p2p
