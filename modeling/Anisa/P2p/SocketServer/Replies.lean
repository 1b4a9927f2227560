import Anisa.P2p.SocketServer
import Anisa.Transition.Observations

open anisa.js anisa.transition

namespace anisa.p2p

/-- A request as its client made it. -/
structure Invocation where
  socket : Nat
  procedure : String
  data : JsValue

/-- What may be the response to a request: the error of the middleware if it has no data, and what
    the loop over `customProc` makes of its data otherwise, if it was made on that. -/
def Invocation.Gets (invocation : Invocation) (response : SocketResponse) : Prop :=
  if invocation.data.truthy then
    invocation.procedure = "customProc" ∧ response = SocketServer.customProcResponse invocation.data
  else response = .error "InvalidActionError" "Invoke action must have a data object"

/-- Both requests were made on one socket, and are answered in one place. -/
def Alongside (log : List Invocation) (id other : Nat) : Prop :=
  ∃ a b, log[id]? = some a ∧ log[other]? = some b ∧
    a.socket = b.socket ∧ a.data.truthy = b.data.truthy

def InboundAction.requestId? : InboundAction → Option Nat
  | .invoke _ request => some request.id
  | _ => none

namespace ServerSocket

/-- The requests that the middleware has before it. -/
def inboundIds (self : ServerSocket) : List Nat := self.inbound.pending.filterMap InboundAction.requestId?

/-- The requests that the loop over `customProc` has before it. -/
def customProcIds (self : ServerSocket) : List Nat := self.customProc.pending.map SocketRequest.id

end ServerSocket

namespace SocketServer

def invocation? (_ : SocketServer) : Action → Option Invocation
  | .invoke i procedure data => some ⟨i, procedure, data⟩
  | _ => none

/-- What waits at the socket are requests made on it, in their order. -/
structure Queues (log : List Invocation) (i : Nat) (socket : ServerSocket) : Prop where
  inbound : ∀ procedure request, .invoke procedure request ∈ socket.inbound.pending →
    log[request.id]? = some ⟨i, procedure, request.data⟩
  customProc : ∀ request ∈ socket.customProc.pending,
    log[request.id]? = some ⟨i, "customProc", request.data⟩ ∧ request.data.truthy = true
  ordered : (socket.customProcIds ++ socket.inboundIds).Pairwise (· < ·)

/-- The request of this id came before all that still wait where it was answered. -/
def Before (invocation : Invocation) (id : Nat) (socket : ServerSocket) : Prop :=
  (∀ waiting ∈ socket.inboundIds, id < waiting) ∧
    (invocation.data.truthy = true → ∀ waiting ∈ socket.customProcIds, id < waiting)

/-- Every response is one that its request gets, and responses come in the order of the requests. -/
structure Replies (s : SocketServer) (log : List Invocation) : Prop where
  requests : s.requests.length = log.length
  queues : ∀ i socket, s.sockets[i]? = some socket → Queues log i socket
  gets : ∀ answer ∈ s.responses, ∃ invocation,
    log[answer.1]? = some invocation ∧ invocation.Gets answer.2
  before : ∀ answer ∈ s.responses, ∀ invocation, log[answer.1]? = some invocation →
    ∀ socket, s.sockets[invocation.socket]? = some socket → Before invocation answer.1 socket
  ordered : s.responses.Pairwise fun first second => Alongside log first.1 second.1 → first.1 < second.1

variable {s t : SocketServer} {a : Action} {i id : Nat} {socket other : ServerSocket}
  {log : List Invocation} {invocation : Invocation} {response : SocketResponse}

theorem pending_emit_sublist {α : Type} (stream : EventStream α) (event : α) :
    (stream.emit event).pending.Sublist (stream.pending ++ [event]) := by
  cases hbegun : stream.begun with
  | true =>
    rw [EventStream.pending_emit hbegun]
  | false =>
    rw [EventStream.pending_emit_of_not_begun hbegun]
    exact List.sublist_append_left ..

theorem Replies.lt_length (h : Replies s log) {answer : Nat × SocketResponse}
    (hmem : answer ∈ s.responses) : answer.1 < log.length := by
  obtain ⟨invocation, hinvocation, -⟩ := h.gets answer hmem
  exact (List.getElem?_eq_some_iff.mp hinvocation).1

theorem Queues.lt_length (h : Queues log i socket) (hid : id ∈ socket.customProcIds ++ socket.inboundIds) :
    id < log.length := by
  obtain hid | hid := List.mem_append.mp hid
  · obtain ⟨request, hmem, rfl⟩ := List.mem_map.mp hid
    exact (List.getElem?_eq_some_iff.mp (h.customProc request hmem).1).1
  · obtain ⟨action, hmem, hid⟩ := List.mem_filterMap.mp hid
    cases action with
    | invoke procedure request =>
      obtain rfl := Option.some.inj hid
      exact (List.getElem?_eq_some_iff.mp (h.inbound procedure request hmem)).1
    | transmit data => cases hid
    | other => cases hid

/-- Something else waits at one socket. -/
theorem Replies.set (h : Replies s log) (hsockets : t.sockets = s.sockets.set i other)
    (hrequests : t.requests = s.requests) (hresponses : t.responses = s.responses)
    (hqueues : Queues log i other)
    (hbefore : ∀ answer ∈ s.responses, ∀ invocation, log[answer.1]? = some invocation →
      invocation.socket = i → Before invocation answer.1 other) : Replies t log := by
  refine ⟨hrequests ▸ h.requests, fun j x hx => ?_, hresponses ▸ h.gets,
    fun answer hmem invocation hinvocation x hx => ?_, hresponses ▸ h.ordered⟩
  · rw [hsockets] at hx
    obtain ⟨rfl, rfl⟩ | ⟨-, hx⟩ := set_cases hx
    · exact hqueues
    · exact h.queues j x hx
  · rw [hresponses] at hmem
    rw [hsockets] at hx
    obtain ⟨hsocket, rfl⟩ | ⟨-, hx⟩ := set_cases hx
    · exact hbefore answer hmem invocation hinvocation hsocket
    · exact h.before answer hmem invocation hinvocation x hx

/-- Requests are taken up, or passed on from the middleware. -/
theorem Replies.taken (h : Replies s log) (hsocket : s.sockets[i]? = some socket)
    (hsockets : t.sockets = s.sockets.set i other) (hrequests : t.requests = s.requests)
    (hresponses : t.responses = s.responses) (hqueues : Queues log i other)
    (hinbound : ∀ id ∈ other.inboundIds, id ∈ socket.inboundIds)
    (hcustomProc : ∀ id ∈ other.customProcIds, id ∈ socket.customProcIds ∨ id ∈ socket.inboundIds) :
    Replies t log := by
  refine h.set hsockets hrequests hresponses hqueues fun answer hmem invocation hinvocation hi => ?_
  obtain ⟨hfirst, hsecond⟩ := h.before answer hmem invocation hinvocation socket (hi ▸ hsocket)
  refine ⟨fun id hid => hfirst id (hinbound id hid), fun htruthy id hid => ?_⟩
  obtain hid | hid := hcustomProc id hid
  · exact hsecond htruthy id hid
  · exact hfirst id hid

/-- A request is answered where it was the next, after those that came before it. -/
theorem Replies.answered (h : Replies s log) (hsocket : s.sockets[i]? = some socket)
    (hsockets : t.sockets = s.sockets.set i other) (hrequests : t.requests = s.requests)
    (hresponses : t.responses = s.responses ++ [(id, response)])
    (hinvocation : log[id]? = some invocation) (hi : invocation.socket = i) (hgets : invocation.Gets response)
    (hwaits : id ∈ socket.inboundIds ∨ invocation.data.truthy = true ∧ id ∈ socket.customProcIds)
    (hqueues : Queues log i other) (hinbound : ∀ id ∈ other.inboundIds, id ∈ socket.inboundIds)
    (hcustomProc : ∀ id ∈ other.customProcIds, id ∈ socket.customProcIds)
    (hafter : Before invocation id other) :
    Replies t log := by
  have htaken : Replies { s with sockets := s.sockets.set i other } log :=
    h.taken hsocket rfl rfl rfl hqueues hinbound fun id hid => .inl (hcustomProc id hid)
  refine ⟨hrequests ▸ h.requests, hsockets ▸ htaken.queues, ?_, ?_, ?_⟩
  · rw [hresponses]
    intro answer hmem
    obtain hmem | rfl := mem_append_singleton.mp hmem
    · exact h.gets answer hmem
    · exact ⟨invocation, hinvocation, hgets⟩
  · rw [hresponses, hsockets]
    intro answer hmem asked hasked x hx
    obtain hmem | rfl := mem_append_singleton.mp hmem
    · exact htaken.before answer hmem asked hasked x hx
    · obtain rfl := Option.some.inj (hinvocation.symm.trans hasked)
      obtain ⟨-, rfl⟩ | ⟨hnot, -⟩ := set_cases hx
      · exact hafter
      · exact absurd hi hnot
  · rw [hresponses, List.pairwise_append]
    refine ⟨h.ordered, List.pairwise_singleton .., fun first hfirst second hsecond halongside => ?_⟩
    obtain rfl := List.mem_singleton.mp hsecond
    obtain ⟨asked, last, hasked, hlast, hsame, htruthy⟩ := halongside
    obtain rfl := Option.some.inj (hinvocation.symm.trans hlast)
    have hbefore := h.before first hfirst asked hasked socket (by rw [hsame, hi, hsocket])
    obtain hid | ⟨hdata, hid⟩ := hwaits
    · exact hbefore.1 id hid
    · exact hbefore.2 (htruthy.trans hdata) id hid

theorem getElem?_concat_cases {α : Type} {l : List α} {x y : α} (h : (l ++ [x])[i]? = some y) :
    l[i]? = some y ∨ y = x := by
  rw [List.getElem?_append] at h
  split at h
  · exact .inl h
  · exact .inr (List.mem_singleton.mp (List.mem_of_getElem? h))

theorem getElem?_grow (h : log[id]? = some invocation) (more : Invocation) :
    (log ++ [more])[id]? = some invocation := by
  rw [List.getElem?_append_left (List.getElem?_eq_some_iff.mp h).1, h]

theorem getElem?_shrink {more : Invocation} (hlt : id < log.length)
    (h : (log ++ [more])[id]? = some invocation) : log[id]? = some invocation := by
  rwa [List.getElem?_append_left hlt] at h

theorem Queues.grow (h : Queues log i socket) (more : Invocation) : Queues (log ++ [more]) i socket :=
  ⟨fun procedure request hmem => getElem?_grow (h.inbound procedure request hmem) more,
    fun request hmem => ⟨getElem?_grow (h.customProc request hmem).1 more, (h.customProc request hmem).2⟩,
    h.ordered⟩

/-- A request is made. -/
theorem Replies.grow (h : Replies s log) (more : Invocation) (hsockets : t.sockets = s.sockets)
    (hrequests : t.requests.length = s.requests.length + 1) (hresponses : t.responses = s.responses) :
    Replies t (log ++ [more]) := by
  refine ⟨?_, fun j x hx => ?_, ?_, ?_, ?_⟩
  · rw [hrequests, h.requests, List.length_append, List.length_singleton]
  · rw [hsockets] at hx
    exact (h.queues j x hx).grow more
  · rw [hresponses]
    intro answer hmem
    obtain ⟨invocation, hinvocation, hgets⟩ := h.gets answer hmem
    exact ⟨invocation, getElem?_grow hinvocation more, hgets⟩
  · rw [hresponses, hsockets]
    intro answer hmem invocation hinvocation
    exact h.before answer hmem invocation (getElem?_shrink (h.lt_length hmem) hinvocation)
  · rw [hresponses]
    refine h.ordered.imp_of_mem fun {first second} hfirst hsecond hbefore halongside => ?_
    obtain ⟨a, b, ha, hb, halongside⟩ := halongside
    exact hbefore ⟨a, b, getElem?_shrink (h.lt_length hfirst) ha, getElem?_shrink (h.lt_length hsecond) hb,
      halongside⟩

/-- What the middleware comes to next. -/
theorem inboundIds_next {action : InboundAction} {inbound : EventStream InboundAction}
    (hnext : socket.inbound.next? = some (action, inbound)) (customProc : EventStream SocketRequest) :
    socket.inboundIds = action.requestId?.toList ++ ServerSocket.inboundIds ⟨inbound, customProc⟩ := by
  rw [ServerSocket.inboundIds, (EventStream.next?_eq_some hnext).1, ServerSocket.inboundIds]
  cases hid : action.requestId? with
  | none => rw [List.filterMap_cons_none hid, Option.toList_none, List.nil_append]
  | some id => rw [List.filterMap_cons_some hid, Option.toList_some, List.singleton_append]

/-- The middleware is done with an action. -/
theorem Queues.passed {action : InboundAction} {inbound : EventStream InboundAction} (h : Queues log i socket)
    (hnext : socket.inbound.next? = some (action, inbound)) : Queues log i { socket with inbound } := by
  refine ⟨fun procedure request hmem => h.inbound procedure request ?_, h.customProc, ?_⟩
  · rw [(EventStream.next?_eq_some hnext).1]
    exact List.mem_cons_of_mem _ hmem
  · have hordered := h.ordered
    rw [inboundIds_next hnext socket.customProc] at hordered
    exact hordered.sublist ((List.Sublist.refl _).append (List.sublist_append_right ..))

/-- The middleware lets a request on `customProc` through. -/
theorem Queues.allowed {request : SocketRequest} {inbound : EventStream InboundAction}
    (h : Queues log i socket) (hnext : socket.inbound.next? = some (.invoke "customProc" request, inbound))
    (hdata : request.data.truthy = true) :
    Queues log i { inbound, customProc := socket.customProc.emit request } := by
  have hmem : .invoke "customProc" request ∈ socket.inbound.pending := by
    rw [(EventStream.next?_eq_some hnext).1]
    exact List.mem_cons_self
  have hemit := pending_emit_sublist socket.customProc request
  refine ⟨(h.passed hnext).inbound, fun other hother => ?_, ?_⟩
  · obtain hother | rfl := mem_append_singleton.mp (hemit.subset hother)
    · exact h.customProc other hother
    · exact ⟨h.inbound _ _ hmem, hdata⟩
  · have hordered := h.ordered
    rw [inboundIds_next hnext socket.customProc, ← List.append_assoc] at hordered
    have hids := hemit.map SocketRequest.id
    rw [List.map_append] at hids
    exact hordered.sublist (hids.append (.refl _))

/-- The loop over `customProc` is done with a request. -/
theorem Queues.responded {request : SocketRequest} {customProc : EventStream SocketRequest}
    (h : Queues log i socket) (hnext : socket.customProc.next? = some (request, customProc)) :
    Queues log i { socket with customProc } := by
  have hpending := (EventStream.next?_eq_some hnext).1
  refine ⟨h.inbound, fun other hother => h.customProc other ?_, ?_⟩
  · rw [hpending]
    exact List.mem_cons_of_mem _ hother
  · have hordered := h.ordered
    rw [ServerSocket.customProcIds, hpending] at hordered
    exact (List.pairwise_cons.mp hordered).2

/-- Another action of the socket, a request only with the next id. -/
theorem Queues.received {action : InboundAction} (h : Queues log i socket)
    (haction : ∀ procedure request, action = .invoke procedure request →
      log[request.id]? = some ⟨i, procedure, request.data⟩)
    (hlast : ∀ id ∈ socket.customProcIds ++ socket.inboundIds,
      ∀ last, action.requestId? = some last → id < last) :
    Queues log i { socket with inbound := socket.inbound.emit action } := by
  have hemit := pending_emit_sublist socket.inbound action
  refine ⟨fun procedure request hmem => ?_, h.customProc, ?_⟩
  · obtain hmem | heq := mem_append_singleton.mp (hemit.subset hmem)
    · exact h.inbound procedure request hmem
    · exact haction procedure request heq.symm
  · have hids := hemit.filterMap InboundAction.requestId?
    rw [List.filterMap_append] at hids
    refine List.Pairwise.sublist ((List.Sublist.refl socket.customProcIds).append hids) ?_
    rw [← List.append_assoc, List.pairwise_append]
    refine ⟨h.ordered, ?_, fun id hid last hmem => ?_⟩
    · cases hid : action.requestId? with
      | none => simp [hid]
      | some id => simp [hid]
    · obtain ⟨entry, hentry, hlast'⟩ := List.mem_filterMap.mp hmem
      obtain rfl := List.mem_singleton.mp hentry
      exact hlast id hid last hlast'

/-- The middleware is done with an action that it does not answer. -/
theorem Replies.passed {action : InboundAction} {inbound : EventStream InboundAction} (h : Replies s log)
    (hsocket : s.sockets[i]? = some socket) (hnext : socket.inbound.next? = some (action, inbound))
    (hsockets : t.sockets = s.sockets.set i { socket with inbound }) (hrequests : t.requests = s.requests)
    (hresponses : t.responses = s.responses) : Replies t log := by
  refine h.taken hsocket hsockets hrequests hresponses ((h.queues i socket hsocket).passed hnext)
    (fun id hid => ?_) fun _ hid => .inl hid
  rw [inboundIds_next hnext socket.customProc]
  exact List.mem_append_right _ hid

/-- Whatever reaches the socket, it is after all that waits there. -/
theorem Replies.received {action : InboundAction} (h : Replies s log) (hsocket : s.sockets[i]? = some socket)
    (hsockets : t.sockets = s.sockets.set i { socket with inbound := socket.inbound.emit action })
    (hrequests : t.requests = s.requests) (hresponses : t.responses = s.responses)
    (haction : ∀ procedure request, action = .invoke procedure request →
      log[request.id]? = some ⟨i, procedure, request.data⟩)
    (hlast : ∀ id ∈ socket.customProcIds ++ socket.inboundIds,
      ∀ last, action.requestId? = some last → id < last)
    (hunanswered : ∀ answer ∈ s.responses, ∀ last, action.requestId? = some last → answer.1 < last) :
    Replies t log := by
  refine h.set hsockets hrequests hresponses ((h.queues i socket hsocket).received haction hlast)
    fun answer hmem invocation hinvocation hi => ?_
  obtain ⟨hinbound, hcustomProc⟩ := h.before answer hmem invocation hinvocation socket (hi ▸ hsocket)
  refine ⟨fun id hid => ?_, hcustomProc⟩
  have hids := (pending_emit_sublist socket.inbound action).filterMap InboundAction.requestId?
  rw [List.filterMap_append] at hids
  obtain hid | hnew := List.mem_append.mp (hids.subset hid)
  · exact hinbound id hid
  · obtain ⟨entry, hentry, hlast'⟩ := List.mem_filterMap.mp hnew
    obtain rfl := List.mem_singleton.mp hentry
    exact hunanswered answer hmem id hlast'

/-- Every step but a request. -/
theorem replies_effect (h : Replies s log) (heffect : Effect s a t) (hinvokes : invocation? s a = none) :
    Replies t log := by
  cases heffect with
  | connection hopen =>
    refine ⟨h.requests, fun j x hx => ?_, h.gets, fun answer hmem invocation hinvocation x hx => ?_,
      h.ordered⟩
    · obtain hx | rfl := getElem?_concat_cases hx
      · exact h.queues j x hx
      · exact ⟨fun _ _ hmem => absurd hmem List.not_mem_nil,
          fun _ hmem => absurd hmem List.not_mem_nil, .nil⟩
    · obtain hx | rfl := getElem?_concat_cases hx
      · exact h.before answer hmem invocation hinvocation x hx
      · exact ⟨fun _ hmem => absurd hmem List.not_mem_nil, fun _ _ hmem => absurd hmem List.not_mem_nil⟩
  | @received _ i socket action hnoLoop hnoError hother hopen hsocket =>
    have hid : action.requestId? = none := by
      cases action with
      | invoke procedure request => exact absurd rfl (hother procedure request)
      | transmit data => rfl
      | other => rfl
    exact h.received hsocket rfl rfl rfl (fun procedure request heq => absurd heq (hother procedure request))
      (fun _ _ last hlast => by cases hid.symm.trans hlast)
      fun _ _ last hlast => by cases hid.symm.trans hlast
  | invoked procedure data hopen hsocket => cases hinvokes
  | error message hopen => exact ⟨h.requests, h.queues, h.gets, h.before, h.ordered⟩
  | close hopen => exact ⟨h.requests, h.queues, h.gets, h.before, h.ordered⟩
  | @accept i socket connections hnext hsocket =>
    have hqueues := h.queues i socket hsocket
    exact h.taken hsocket rfl rfl rfl ⟨hqueues.inbound, hqueues.customProc, hqueues.ordered⟩
      (fun _ hid => hid) fun _ hid => .inl hid
  | connectionsEnd hclosed hbegun hpending => exact ⟨h.requests, h.queues, h.gets, h.before, h.ordered⟩
  | log hnext => exact ⟨h.requests, h.queues, h.gets, h.before, h.ordered⟩
  | @passed i socket action inbound hsocket hnext hother => exact h.passed hsocket hnext rfl rfl rfl
  | @blocked i socket procedure request inbound hsocket hnext hdata =>
    have hmem : .invoke procedure request ∈ socket.inbound.pending := by
      rw [(EventStream.next?_eq_some hnext).1]
      exact List.mem_cons_self
    have hids := inboundIds_next hnext socket.customProc
    have hqueues := h.queues i socket hsocket
    have hordered := hqueues.ordered
    rw [hids, List.pairwise_append] at hordered
    refine h.answered hsocket rfl rfl rfl (hqueues.inbound procedure request hmem) rfl
      (by simp [Invocation.Gets, hdata]) (.inl ?_) (hqueues.passed hnext) (fun id hid => ?_)
      (fun _ hid => hid)
      ⟨(List.pairwise_cons.mp hordered.2.1).1,
        fun htruthy => absurd (hdata.symm.trans htruthy) Bool.false_ne_true⟩
    · rw [hids]
      exact List.mem_append_left _ (List.mem_singleton_self _)
    · rw [hids]
      exact List.mem_append_right _ hid
  | @allowed i socket request inbound hsocket hnext hdata =>
    have hids := inboundIds_next hnext (socket.customProc.emit request)
    refine h.taken hsocket rfl rfl rfl ((h.queues i socket hsocket).allowed hnext hdata) (fun id hid => ?_)
      fun id hid => ?_
    · rw [hids]
      exact List.mem_append_right _ hid
    · have hsublist := (pending_emit_sublist socket.customProc request).map SocketRequest.id
      rw [List.map_append] at hsublist
      refine (List.mem_append.mp (hsublist.subset hid)).imp_right fun hid => ?_
      rw [hids]
      exact List.mem_append_left _ hid
  | @unserved i socket procedure request inbound hsocket hnext hdata hprocedure =>
    exact h.passed hsocket hnext rfl rfl rfl
  | @respond i socket request requests hsocket hnext =>
    have hids : socket.customProcIds =
        request.id :: ServerSocket.customProcIds ⟨socket.inbound, requests⟩ := by
      rw [ServerSocket.customProcIds, (EventStream.next?_eq_some hnext).1]
      rfl
    have hmem : request ∈ socket.customProc.pending := by
      rw [(EventStream.next?_eq_some hnext).1]
      exact List.mem_cons_self
    have hqueues := h.queues i socket hsocket
    obtain ⟨hinvocation, hdata⟩ := hqueues.customProc request hmem
    have hordered := hqueues.ordered
    rw [hids, List.cons_append, List.pairwise_cons] at hordered
    refine h.answered hsocket rfl rfl rfl hinvocation rfl (by simp [Invocation.Gets, hdata])
      (.inr ⟨hdata, ?_⟩)
      (hqueues.responded hnext) (fun _ hid => hid) (fun id hid => ?_)
      ⟨fun id hid => hordered.1 id (List.mem_append_right _ hid),
        fun _ id hid => hordered.1 id (List.mem_append_left _ hid)⟩
    · rw [hids]
      exact List.mem_cons_self
    · rw [hids]
      exact List.mem_cons_of_mem _ hid

theorem replies_step (h : Replies s log) (hstep : machine.step s a = some t) :
    Replies t (log ++ (invocation? s a).toList) := by
  cases hinvokes : invocation? s a with
  | none =>
    rw [Option.toList_none, List.append_nil]
    exact replies_effect h (effect_of_step hstep) hinvokes
  | some invocation =>
    cases a with
    | invoke i procedure data =>
      obtain rfl := Option.some.inj hinvokes
      obtain ⟨server, hserver, rfl⟩ := Option.map_eq_some_iff.mp hstep
      obtain ⟨-, socket, hsocket, rfl⟩ := receive_eq_some hserver
      have hgrown : Replies { s with requests := s.requests ++ [procedure] }
          (log ++ [⟨i, procedure, data⟩]) :=
        h.grow _ rfl List.length_append rfl
      refine hgrown.received hsocket rfl rfl rfl (fun procedure' request heq => ?_)
        (fun id hid last hlast => ?_) (fun answer hmem last hlast => ?_)
      · obtain ⟨rfl, rfl⟩ := InboundAction.invoke.inj heq
        rw [h.requests]
        exact List.getElem?_concat_length
      · obtain rfl := Option.some.inj hlast
        rw [h.requests]
        exact (h.queues i socket hsocket).lt_length hid
      · obtain rfl := Option.some.inj hlast
        rw [h.requests]
        exact h.lt_length hmem
    | _ => cases hinvokes

theorem replies_start : Replies start [] where
  requests := rfl
  queues _ _ hsocket := by cases hsocket
  gets _ hmem := absurd hmem List.not_mem_nil
  before _ hmem := absurd hmem List.not_mem_nil
  ordered := .nil

theorem Replies.nodup (h : Replies s log) : (s.responses.map Prod.fst).Nodup := by
  refine List.pairwise_map.mpr (h.ordered.imp_of_mem fun {first second} hfirst _ hbefore heq => ?_)
  obtain ⟨invocation, hinvocation, -⟩ := h.gets first hfirst
  exact absurd (hbefore ⟨invocation, invocation, hinvocation, heq ▸ hinvocation, rfl, rfl⟩) (by omega)

/-- In every run, with what the clients asked in it: every response is to a request that was made and
    is what its data calls for, no request gets two, and the requests of a socket that are answered in
    one place are answered in their order. -/
theorem replies_in_order (actions : List Action) (hrun : machine.run start actions = some t) :
    (∀ answer ∈ t.responses, ∃ invocation,
      (machine.observe invocation? start actions)[answer.1]? = some invocation ∧ invocation.Gets answer.2) ∧
    (t.responses.map Prod.fst).Nodup ∧ t.responses.Pairwise fun first second =>
      Alongside (machine.observe invocation? start actions) first.1 second.1 → first.1 < second.1 := by
  have hreplies : Replies t ([] ++ machine.observe invocation? start actions) :=
    Machine.observe_invariant (fun _ _ _ _ h hstep => replies_step h hstep) replies_start hrun
  rw [List.nil_append] at hreplies
  exact ⟨hreplies.gets, hreplies.nodup, hreplies.ordered⟩

/-- Two requests of one socket, the second without data: it is answered first. -/
theorem replies_in_order_blocked :
    ∃ t, machine.run start [.connection, .accept, .invoke 0 "customProc" (.obj []),
        .invoke 0 "customProc" .null, .middleware 0, .middleware 0, .respond 0] = some t ∧
      t.responses.map Prod.fst = [1, 0] ∧ (t.responses.map Prod.fst).Nodup :=
  ⟨_, rfl, rfl, (replies_in_order [.connection, .accept, .invoke 0 "customProc" (.obj []),
    .invoke 0 "customProc" .null, .middleware 0, .middleware 0, .respond 0] rfl).2.1⟩

end SocketServer

end anisa.p2p
