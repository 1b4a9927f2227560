import Anisa.EventStream
import Anisa.Js.Value
import Anisa.Transition

open anisa.js anisa.transition

namespace anisa.p2p

structure SocketRequest where
  id : Nat
  data : JsValue

/-- What the middleware gets. An action of another type goes through. -/
inductive InboundAction where
  | transmit (data : JsValue)
  | invoke (procedure : String) (request : SocketRequest)
  | other

inductive SocketResponse where
  | error (name message : String)
  | success (data : String)

/-- A socket of the server: the actions that the middleware has not come to, and the
    requests of `customProc`. -/
structure ServerSocket where
  inbound : EventStream InboundAction
  customProc : EventStream SocketRequest

/-- The server after `startSocketServer`, with the error events and requests that
    there have been and what has become of them. -/
structure SocketServer where
  sockets : List ServerSocket
  connections : EventStream Nat
  errors : EventStream String
  closed : Bool
  emitted : List String
  logged : List String
  requests : List String
  responses : List (Nat × SocketResponse)

namespace SocketServer

/-- The server and its clients act first, up to `close`; what follows are the loops
    going on. -/
inductive Action where
  | connection
  | transmit (socket : Nat) (data : JsValue)
  | invoke (socket : Nat) (procedure : String) (data : JsValue)
  | other (socket : Nat)
  | error (message : String)
  | close
  | accept
  | connectionsEnd
  | log
  | middleware (socket : Nat)
  | respond (socket : Nat)

/-- The loops that go on are those of `startSocketServer`. -/
def Action.ofLoop : Action → Bool
  | .accept | .connectionsEnd | .log | .middleware _ | .respond _ => true
  | _ => false

/-- The loop over the connections has begun, and the one over the errors comes after
    it. -/
def start : SocketServer := ⟨[], EventStream.new.iterate, .new, false, [], [], [], []⟩

/-- The middleware has a loop for every socket from the outset. -/
def newSocket : ServerSocket := ⟨EventStream.new.iterate, .new⟩

/-- The body of the loop over the requests of `customProc`. -/
def customProcResponse (data : JsValue) : SocketResponse :=
  if data.truthy && (data.get "bad").toOption.any JsValue.truthy then
    .error "BadCustomError" "Server failed to execute the procedure"
  else .success "Success"

/-- The body of the middleware's loop. An `INVOKE` that is blocked is answered with
    the error; one that is allowed is a request on its procedure. -/
def inboundMiddleware (self : SocketServer) (i : Nat) (socket : ServerSocket) :
    InboundAction → SocketServer
  | .invoke procedure request =>
    if !request.data.truthy then
      { self with
        sockets := self.sockets.set i socket
        responses := self.responses ++
          [(request.id, .error "InvalidActionError" "Invoke action must have a data object")] }
    else if procedure = "customProc" then
      { self with sockets := self.sockets.set i { socket with customProc := socket.customProc.emit request } }
    else { self with sockets := self.sockets.set i socket }
  | .transmit _ | .other => { self with sockets := self.sockets.set i socket }

/-- An action reaches the server. -/
def receive (self : SocketServer) (i : Nat) (action : InboundAction) : Option SocketServer :=
  if self.closed then none
  else self.sockets[i]?.map fun socket =>
    { self with sockets := self.sockets.set i { socket with inbound := socket.inbound.emit action } }

def step (self : SocketServer) : Action → Option SocketServer
  | .connection =>
    if self.closed then none
    else some { self with
      sockets := self.sockets ++ [newSocket]
      connections := self.connections.emit self.sockets.length }
  | .transmit i data => self.receive i (.transmit data)
  | .invoke i procedure data =>
    (self.receive i (.invoke procedure ⟨self.requests.length, data⟩)).map fun server =>
      { server with requests := server.requests ++ [procedure] }
  | .other i => self.receive i .other
  | .error message =>
    if self.closed then none
    else some { self with errors := self.errors.emit message, emitted := self.emitted ++ [message] }
  | .close => if self.closed then none else some { self with closed := true }
  | .accept =>
    self.connections.next?.bind fun next =>
      self.sockets[next.1]?.map fun socket =>
        { self with
          connections := next.2
          sockets := self.sockets.set next.1 { socket with customProc := socket.customProc.iterate } }
  | .connectionsEnd =>
    if self.closed && self.connections.begun && self.connections.pending.isEmpty then
      some { self with connections := .new, errors := self.errors.iterate }
    else none
  | .log => self.errors.next?.map fun next =>
    { self with errors := next.2, logged := self.logged ++ [next.1] }
  | .middleware i =>
    self.sockets[i]?.bind fun socket => socket.inbound.next?.map fun next =>
      self.inboundMiddleware i { socket with inbound := next.2 } next.1
  | .respond i =>
    self.sockets[i]?.bind fun socket => socket.customProc.next?.map fun next =>
      { self with
        sockets := self.sockets.set i { socket with customProc := next.2 }
        responses := self.responses ++ [(next.1.id, customProcResponse next.1.data)] }

def machine : Machine SocketServer Action := ⟨step⟩

example : (machine.run start [.connection, .accept, .invoke 0 "customProc" (.obj []), .middleware 0,
    .respond 0]).map (fun s => s.responses.map Prod.fst) = some [0] := by decide

variable {s t : SocketServer} {a : Action} {i : Nat} {socket : ServerSocket}

/-- What a step can do. -/
inductive Effect (s : SocketServer) : Action → SocketServer → Prop
  | connection (hopen : s.closed = false) :
      Effect s .connection { s with
        sockets := s.sockets ++ [newSocket]
        connections := s.connections.emit s.sockets.length }
  | received {a : Action} {i : Nat} {socket : ServerSocket} (action : InboundAction)
      (hnoLoop : a.ofLoop = false) (hnoError : ∀ message, a ≠ .error message)
      (hother : ∀ procedure request, action ≠ .invoke procedure request) (hopen : s.closed = false)
      (hsocket : s.sockets[i]? = some socket) :
      Effect s a { s with
        sockets := s.sockets.set i { socket with inbound := socket.inbound.emit action } }
  | invoked {i : Nat} {socket : ServerSocket} (procedure : String) (data : JsValue)
      (hopen : s.closed = false) (hsocket : s.sockets[i]? = some socket) :
      Effect s (.invoke i procedure data) { s with
        sockets := s.sockets.set i
          { socket with inbound := socket.inbound.emit (.invoke procedure ⟨s.requests.length, data⟩) }
        requests := s.requests ++ [procedure] }
  | error (message : String) (hopen : s.closed = false) :
      Effect s (.error message) { s with
        errors := s.errors.emit message
        emitted := s.emitted ++ [message] }
  | close (hopen : s.closed = false) : Effect s .close { s with closed := true }
  | accept {i : Nat} {socket : ServerSocket} {connections : EventStream Nat}
      (hnext : s.connections.next? = some (i, connections)) (hsocket : s.sockets[i]? = some socket) :
      Effect s .accept { s with
        connections
        sockets := s.sockets.set i { socket with customProc := socket.customProc.iterate } }
  | connectionsEnd (hclosed : s.closed = true) (hbegun : s.connections.begun = true)
      (hnone : s.connections.pending = []) :
      Effect s .connectionsEnd { s with connections := .new, errors := s.errors.iterate }
  | log {message : String} {errors : EventStream String} (hnext : s.errors.next? = some (message, errors)) :
      Effect s .log { s with errors, logged := s.logged ++ [message] }
  | passed {i : Nat} {socket : ServerSocket} {action : InboundAction} {inbound : EventStream InboundAction}
      (hsocket : s.sockets[i]? = some socket) (hnext : socket.inbound.next? = some (action, inbound))
      (hother : ∀ procedure request, action ≠ .invoke procedure request) :
      Effect s (.middleware i) { s with sockets := s.sockets.set i { socket with inbound } }
  | blocked {i : Nat} {socket : ServerSocket} {procedure : String} {request : SocketRequest}
      {inbound : EventStream InboundAction} (hsocket : s.sockets[i]? = some socket)
      (hnext : socket.inbound.next? = some (.invoke procedure request, inbound))
      (hdata : request.data.truthy = false) :
      Effect s (.middleware i) { s with
        sockets := s.sockets.set i { socket with inbound }
        responses := s.responses ++
          [(request.id, .error "InvalidActionError" "Invoke action must have a data object")] }
  | allowed {i : Nat} {socket : ServerSocket} {request : SocketRequest}
      {inbound : EventStream InboundAction} (hsocket : s.sockets[i]? = some socket)
      (hnext : socket.inbound.next? = some (.invoke "customProc" request, inbound))
      (hdata : request.data.truthy = true) :
      Effect s (.middleware i) { s with
        sockets := s.sockets.set i { inbound, customProc := socket.customProc.emit request } }
  | unserved {i : Nat} {socket : ServerSocket} {procedure : String} {request : SocketRequest}
      {inbound : EventStream InboundAction} (hsocket : s.sockets[i]? = some socket)
      (hnext : socket.inbound.next? = some (.invoke procedure request, inbound))
      (hdata : request.data.truthy = true) (hprocedure : procedure ≠ "customProc") :
      Effect s (.middleware i) { s with sockets := s.sockets.set i { socket with inbound } }
  | respond {i : Nat} {socket : ServerSocket} {request : SocketRequest}
      {requests : EventStream SocketRequest} (hsocket : s.sockets[i]? = some socket)
      (hnext : socket.customProc.next? = some (request, requests)) :
      Effect s (.respond i) { s with
        sockets := s.sockets.set i { socket with customProc := requests }
        responses := s.responses ++ [(request.id, customProcResponse request.data)] }

theorem open_of_eq_some {closed : Bool} {u : SocketServer} (h : (if closed then none else some u) = some t) :
    closed = false ∧ u = t := by
  cases closed with
  | false => exact ⟨rfl, Option.some.inj h⟩
  | true => cases h

theorem receive_eq_some {action : InboundAction} (h : s.receive i action = some t) :
    s.closed = false ∧ ∃ socket, s.sockets[i]? = some socket ∧
      t = { s with sockets := s.sockets.set i { socket with inbound := socket.inbound.emit action } } := by
  unfold receive at h
  split at h
  · cases h
  · next hopen =>
    obtain ⟨socket, hsocket, rfl⟩ := Option.map_eq_some_iff.mp h
    exact ⟨by simpa using hopen, socket, hsocket, rfl⟩

theorem effect_of_step (h : machine.step s a = some t) : Effect s a t := by
  cases a with
  | connection =>
    obtain ⟨hopen, rfl⟩ := open_of_eq_some h
    exact .connection hopen
  | transmit i data =>
    obtain ⟨hopen, socket, hsocket, rfl⟩ := receive_eq_some h
    exact .received _ rfl nofun nofun hopen hsocket
  | invoke i procedure data =>
    obtain ⟨server, hserver, rfl⟩ := Option.map_eq_some_iff.mp h
    obtain ⟨hopen, socket, hsocket, rfl⟩ := receive_eq_some hserver
    exact .invoked procedure data hopen hsocket
  | other i =>
    obtain ⟨hopen, socket, hsocket, rfl⟩ := receive_eq_some h
    exact .received _ rfl nofun nofun hopen hsocket
  | error message =>
    obtain ⟨hopen, rfl⟩ := open_of_eq_some h
    exact .error message hopen
  | close =>
    obtain ⟨hopen, rfl⟩ := open_of_eq_some h
    exact .close hopen
  | accept =>
    obtain ⟨⟨i, connections⟩, hnext, h⟩ := Option.bind_eq_some_iff.mp h
    obtain ⟨socket, hsocket, rfl⟩ := Option.map_eq_some_iff.mp h
    exact .accept hnext hsocket
  | connectionsEnd =>
    simp only [machine, step] at h
    split at h
    · next hends =>
      obtain rfl := Option.some.inj h
      simp only [Bool.and_eq_true, List.isEmpty_iff] at hends
      exact .connectionsEnd hends.1.1 hends.1.2 hends.2
    · cases h
  | log =>
    obtain ⟨⟨message, errors⟩, hnext, rfl⟩ := Option.map_eq_some_iff.mp h
    exact .log hnext
  | middleware i =>
    obtain ⟨socket, hsocket, h⟩ := Option.bind_eq_some_iff.mp h
    obtain ⟨⟨action, inbound⟩, hnext, rfl⟩ := Option.map_eq_some_iff.mp h
    cases action with
    | transmit data => exact .passed hsocket hnext nofun
    | other => exact .passed hsocket hnext nofun
    | invoke procedure request =>
      dsimp only [inboundMiddleware]
      cases hdata : request.data.truthy with
      | false => exact .blocked hsocket hnext hdata
      | true =>
        by_cases hprocedure : procedure = "customProc"
        · subst hprocedure
          exact .allowed hsocket hnext hdata
        · rw [if_neg hprocedure]
          exact .unserved hsocket hnext hdata hprocedure
  | respond i =>
    obtain ⟨socket, hsocket, h⟩ := Option.bind_eq_some_iff.mp h
    obtain ⟨⟨request, requests⟩, hnext, rfl⟩ := Option.map_eq_some_iff.mp h
    exact .respond hsocket hnext

end SocketServer

end anisa.p2p
