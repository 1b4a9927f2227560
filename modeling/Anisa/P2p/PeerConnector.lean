import Anisa.P2p.PeerStorage
import Anisa.Transition

open anisa.js anisa.transition

namespace anisa.p2p

/-- A reference to an `AGClientSocket` opened by `PeerConnector.create`. -/
abbrev SocketRef := Nat

/-- A client socket. Its handlers close over the peer it was created for, of
    which they read only the ip, kept here as `hostname`; the error listener
    answers once. A terminated socket stays so unless the client library
    re-connects it, which `Reconnecting` has. -/
structure AGClientSocket where
  hostname : String
  port : Nat
  terminated : Bool
  errorListening : Bool
deriving DecidableEq

instance : Inhabited AGClientSocket := ⟨⟨"", 0, true, false⟩⟩

inductive SocketEvent where
  | ping
  | pong
  | error
deriving DecidableEq

structure PeerConnector where
  connections : PeerRepository SocketRef
  errors : OrderedMap String String
  sockets : Heap AGClientSocket

namespace PeerConnector

def new : PeerConnector := ⟨.new, .empty, .empty⟩

def connection (self : PeerConnector) (ip : String) : Option SocketRef := self.connections.get ip

/-- Opens a socket and installs its handlers. -/
def create (self : PeerConnector) (lib : ThirdParty) (peer : Peer) :
    Except JsError (SocketRef × PeerConnector) :=
  if lib.opens peer.ip then
    .ok (self.sockets.size,
      { self with sockets := self.sockets.alloc ⟨peer.ip, peer.port, false, true⟩ })
  else .error (.error "Invalid URL")

/-- The connection registered for the peer, created if there is none. -/
def connect (self : PeerConnector) (lib : ThirdParty) (peer : Peer) :
    Except JsError (SocketRef × PeerConnector) := do
  let (connection, self) ← match self.connection peer.ip with
    | some connection => .ok (connection, self)
    | none => self.create lib peer
  .ok (connection, { self with connections := self.connections.set peer.ip connection })

def disconnect (self : PeerConnector) (ip : String) : PeerConnector :=
  match self.connection ip with
  | some _ => { self with connections := self.connections.forget ip }
  | none => self

def terminate (self : PeerConnector) (ip : String) : PeerConnector :=
  match self.connection ip with
  | some connection =>
    { self with
      sockets := self.sockets.write connection { self.sockets.read connection with terminated := true }
      connections := self.connections.forget ip }
  | none => self

def forgetError (self : PeerConnector) (ip : String) : PeerConnector :=
  { self with errors := self.errors.erase ip }

/-- The handlers installed by `create` on the socket. -/
def fires (self : PeerConnector) (socket : SocketRef) (event : SocketEvent) : PeerConnector :=
  let s := self.sockets.read socket
  match event with
  | .ping | .pong => self.terminate s.hostname
  | .error =>
    if s.errorListening then
      { self with sockets := self.sockets.write socket { s with errorListening := false } }.terminate
        s.hostname
    else self

/-- A socket that has been opened and not terminated. `disconnect` does not
    close the socket it drops. That the client library re-connects a terminated
    socket is left out here; `Reconnecting` has it. -/
def Open (self : PeerConnector) (socket : SocketRef) : Prop :=
  socket < self.sockets.size ∧ (self.sockets.read socket).terminated = false

instance (self : PeerConnector) (socket : SocketRef) : Decidable (self.Open socket) :=
  inferInstanceAs (Decidable (_ ∧ _))

/-- The calls made on a connector and the events of its sockets. A failed
    handshake is the catch branch of `acceptNewPeer`, `disconnectPeer` the
    event listener; both call `disconnect`. -/
inductive Action where
  | connect (peer : Peer)
  | disconnect (ip : String)
  | terminate (ip : String)
  | handshakeFailed (ip : String)
  | disconnectPeer (ip : String)
  | fires (socket : SocketRef) (event : SocketEvent)
  | forgetError (ip : String)

/-- One call or event. A `connect` that throws leaves the connector as it was,
    and only an open socket fires. -/
def step (lib : ThirdParty) (self : PeerConnector) : Action → Option PeerConnector
  | .connect peer =>
    match self.connect lib peer with
    | .ok (_, self) => some self
    | .error _ => some self
  | .disconnect ip | .handshakeFailed ip | .disconnectPeer ip => some (self.disconnect ip)
  | .terminate ip => some (self.terminate ip)
  | .fires socket event => if self.Open socket then some (self.fires socket event) else none
  | .forgetError ip => some (self.forgetError ip)

def machine (lib : ThirdParty) : Machine PeerConnector Action := ⟨step lib⟩

variable {lib : ThirdParty} {self next : PeerConnector} {peer : Peer} {ip key : String}
  {socket other : SocketRef} {event : SocketEvent}

theorem reaches_forgetError (ip : String) :
    (machine lib).Reaches self (self.forgetError ip) :=
  Machine.Reaches.step (a := .forgetError ip) rfl

theorem reaches_disconnect (ip : String) : (machine lib).Reaches self (self.disconnect ip) :=
  Machine.Reaches.step (a := .disconnect ip) rfl

@[simp] theorem connection_new : new.connection ip = none := rfl

/-- `connect` reuses the registered connection, opens and registers a new
    socket, or throws without effect. -/
theorem connect_cases (h : self.connect lib peer = .ok (socket, next)) :
    (self.connection peer.ip = some socket ∧ next = self) ∨
      (self.connection peer.ip = none ∧ lib.opens peer.ip = true ∧ socket = self.sockets.size ∧
        next = { self with
          connections := self.connections.set peer.ip self.sockets.size
          sockets := self.sockets.alloc ⟨peer.ip, peer.port, false, true⟩ }) := by
  unfold connect at h
  cases hconn : self.connection peer.ip with
  | some connection =>
    have hsame : self.connections.set peer.ip connection = self.connections := by
      have hget : self.connections.repository.get peer.ip = some connection := hconn
      simp only [PeerRepository.set, OrderedMap.set_of_get_eq_some hget]
    simp only [hconn, ok_bind, Except.ok.injEq, Prod.mk.injEq, hsame] at h
    obtain ⟨rfl, rfl⟩ := h
    exact .inl ⟨rfl, rfl⟩
  | none =>
    unfold create at h
    by_cases hopens : lib.opens peer.ip
    · simp only [hconn, hopens, if_true, ok_bind, Except.ok.injEq, Prod.mk.injEq] at h
      obtain ⟨rfl, rfl⟩ := h
      exact .inr ⟨rfl, hopens, rfl, rfl⟩
    · simp [hconn, hopens] at h

/-- A connection is there for the ip or can be opened. -/
def Connects (lib : ThirdParty) (self : PeerConnector) (ip : String) : Prop :=
  self.connection ip ≠ none ∨ lib.opens ip = true

theorem connect_ok_iff : (∃ result, self.connect lib peer = .ok result) ↔ self.Connects lib peer.ip := by
  unfold connect Connects
  cases hconn : self.connection peer.ip with
  | some connection => simp
  | none => by_cases hopens : lib.opens peer.ip <;> simp [create, hopens]

/-- To connect takes no other connection away. -/
theorem connects_of_connect (h : self.connect lib peer = .ok (socket, next)) :
    next.Connects lib ip ↔ self.Connects lib ip := by
  obtain ⟨-, rfl⟩ | ⟨-, hopens, -, rfl⟩ := connect_cases h
  · exact Iff.rfl
  · by_cases hip : ip = peer.ip
    · subst hip
      exact iff_of_true (.inr hopens) (.inr hopens)
    · simp only [Connects, connection, PeerRepository.get_set, if_neg hip]

theorem connection_disconnect :
    (self.disconnect key).connection ip = if ip = key then none else self.connection ip := by
  unfold disconnect
  cases h : self.connection key with
  | some connection => exact PeerRepository.get_forget
  | none =>
    by_cases hip : ip = key
    · simp [hip, h]
    · simp [hip]

@[simp] theorem sockets_disconnect : (self.disconnect key).sockets = self.sockets := by
  unfold disconnect
  cases self.connection key <;> rfl

theorem connection_terminate :
    (self.terminate key).connection ip = if ip = key then none else self.connection ip := by
  unfold terminate
  cases h : self.connection key with
  | some connection => exact PeerRepository.get_forget
  | none =>
    by_cases hip : ip = key
    · simp [hip, h]
    · simp [hip]

/-- What ending the connection of an ip does to the registry and the sockets. -/
structure Terminated (before : PeerConnector) (key : String) (after : PeerConnector) : Prop where
  connection : ∀ ip, after.connection ip = if ip = key then none else before.connection ip
  isOpen : ∀ socket, after.Open socket ↔ before.Open socket ∧ before.connection key ≠ some socket
  hostname : ∀ socket, (after.sockets.read socket).hostname = (before.sockets.read socket).hostname

theorem terminate_terminated (self : PeerConnector) (key : String) : Terminated self key (self.terminate key) where
  connection _ := connection_terminate
  isOpen socket := by
    unfold terminate Open
    cases h : self.connection key with
    | none => simp
    | some connection =>
      by_cases heq : socket = connection
      · subst heq
        simp
      · simp [Heap.read_write_of_ne heq, Ne.symm heq]
  hostname socket := by
    unfold terminate
    cases self.connection key with
    | none => rfl
    | some connection => exact Heap.field_write AGClientSocket.hostname rfl

/-- An event ends the connection registered under its socket's host name. Only
    a second error of one socket is ignored. -/
theorem fires_terminated (self : PeerConnector) (socket : SocketRef) (event : SocketEvent) :
    Terminated self (self.sockets.read socket).hostname (self.fires socket event) ∨
      (event = .error ∧ self.fires socket event = self) := by
  cases event with
  | ping => exact .inl (terminate_terminated _ _)
  | pong => exact .inl (terminate_terminated _ _)
  | error =>
    by_cases hlisten : (self.sockets.read socket).errorListening
    · left
      let s := self.sockets.read socket
      let heard : PeerConnector :=
        { self with sockets := self.sockets.write socket { s with errorListening := false } }
      have hfires : self.fires socket .error = heard.terminate s.hostname := by
        simp only [fires, hlisten, if_true, heard, s]
      have hended := terminate_terminated heard s.hostname
      rw [hfires]
      refine ⟨hended.connection, fun t => ?_, fun t => ?_⟩
      · have hopen : heard.Open t ↔ self.Open t := by
          have hflag := Heap.field_write (h := self.sockets) (r := socket) (q := t)
            (a := { s with errorListening := false }) AGClientSocket.terminated rfl
          simp only [Open, heard, Heap.size_write, hflag]
        rw [hended.isOpen, hopen]
        rfl
      · rw [hended.hostname]
        exact Heap.field_write AGClientSocket.hostname rfl
    · right
      exact ⟨rfl, by simp [fires, hlisten]⟩

/-- The ip an action passes to `disconnect`. -/
def Action.drops : Action → Option String
  | .disconnect ip | .handshakeFailed ip | .disconnectPeer ip => some ip
  | _ => none

/-- Everything a call or event can do, guards included. -/
inductive Effect (lib : ThirdParty) (self : PeerConnector) : Action → PeerConnector → Prop
  | quiet {a : Action} {next : PeerConnector}
      (hconnections : next.connections = self.connections) (hsockets : next.sockets = self.sockets)
      (hconnect : ∀ peer, a = .connect peer →
        self.connection peer.ip ≠ none ∨ lib.opens peer.ip = false)
      (hdrops : ∀ ip, a.drops = some ip → self.connection ip = none) : Effect lib self a next
  | opened {peer : Peer} (hnone : self.connection peer.ip = none)
      (hopens : lib.opens peer.ip = true) :
      Effect lib self (.connect peer) { self with
        connections := self.connections.set peer.ip self.sockets.size
        sockets := self.sockets.alloc ⟨peer.ip, peer.port, false, true⟩ }
  | dropped {a : Action} {ip : String} {socket : SocketRef} (hdrops : a.drops = some ip)
      (hsome : self.connection ip = some socket) :
      Effect lib self a { self with connections := self.connections.forget ip }
  | ended {a : Action} {key : String} {next : PeerConnector} (hended : Terminated self key next)
      (hconnect : ∀ peer, a ≠ .connect peer) (hdrops : a.drops = none) : Effect lib self a next

theorem disconnect_effect {a : Action} (hdrops : a.drops = some ip)
    (hconnect : ∀ peer, a ≠ .connect peer) : Effect lib self a (self.disconnect ip) := by
  unfold disconnect
  cases hconn : self.connection ip with
  | some socket => exact .dropped hdrops hconn
  | none =>
    apply Effect.quiet rfl rfl (fun peer h => absurd h (hconnect peer))
    intro key hkey
    obtain rfl : ip = key := by rw [hdrops] at hkey; simpa using hkey
    exact hconn

theorem step_effect {a : Action} (h : step lib self a = some next) : Effect lib self a next := by
  cases a with
  | connect peer =>
    simp only [step] at h
    cases hconn : self.connect lib peer with
    | ok result =>
      obtain ⟨socket, after⟩ := result
      simp only [hconn, Option.some.injEq] at h
      subst h
      obtain ⟨hsome, rfl⟩ | ⟨hnone, hopens, -, rfl⟩ := connect_cases hconn
      · refine .quiet rfl rfl (fun p hp => ?_) (by simp [Action.drops])
        obtain rfl : peer = p := by simpa using hp
        exact .inl (by simp [hsome])
      · exact .opened hnone hopens
    | error e =>
      simp only [hconn, Option.some.injEq] at h
      subst h
      refine .quiet rfl rfl (fun p hp => ?_) (by simp [Action.drops])
      obtain rfl : peer = p := by simpa using hp
      cases hsome : self.connection peer.ip with
      | some connection => exact .inl (by simp)
      | none =>
        right
        by_contra hopens
        simp only [Bool.not_eq_false] at hopens
        simp [connect, create, hsome, hopens] at hconn
  | disconnect ip | handshakeFailed ip | disconnectPeer ip =>
    obtain rfl : self.disconnect ip = next := by simpa [step] using h
    exact disconnect_effect rfl (by simp)
  | terminate ip =>
    obtain rfl : self.terminate ip = next := by simpa [step] using h
    exact .ended (terminate_terminated _ _) (by simp) rfl
  | fires socket event =>
    simp only [step] at h
    split at h
    · obtain rfl : self.fires socket event = next := by simpa using h
      obtain hended | ⟨-, hsame⟩ := fires_terminated self socket event
      · exact .ended hended (by simp) rfl
      · rw [hsame]
        exact .quiet rfl rfl (by simp) (by simp [Action.drops])
    · cases h
  | forgetError ip =>
    obtain rfl : self.forgetError ip = next := by simpa [step] using h
    exact .quiet rfl rfl (by simp) (by simp [Action.drops])

/-- What the registry and the sockets owe each other in every run: a
    registered socket is open and registered under its own host name. -/
def Registered (self : PeerConnector) : Prop :=
  ∀ ip socket, self.connection ip = some socket →
    self.Open socket ∧ (self.sockets.read socket).hostname = ip

theorem registered_new : Registered new := by
  intro ip socket h
  cases h

theorem registered_step {a : Action} (hreg : Registered self) (h : step lib self a = some next) :
    Registered next := by
  intro ip socket hconn
  cases step_effect h with
  | quiet hconnections hsockets =>
    simp only [connection, hconnections] at hconn
    simpa only [Open, hsockets] using hreg ip socket hconn
  | @opened peer hnone hopens =>
    simp only [connection, PeerRepository.get_set] at hconn
    split at hconn
    · obtain rfl : self.sockets.size = socket := by simpa using hconn
      simp [Open, *]
    · have hconn : self.connection ip = some socket := hconn
      obtain ⟨⟨hlt, hopen⟩, hname⟩ := hreg ip socket hconn
      simp only [Open, Heap.size_alloc, Heap.read_alloc_of_lt hlt]
      exact ⟨⟨Nat.lt_succ_of_lt hlt, hopen⟩, hname⟩
  | dropped hdrops hsome =>
    simp only [connection, PeerRepository.get_forget] at hconn
    split at hconn
    · cases hconn
    · exact hreg ip socket hconn
  | @ended _ key _ hended =>
    rw [hended.connection] at hconn
    split at hconn
    · cases hconn
    · rename_i hne
      obtain ⟨hopen, hname⟩ := hreg ip socket hconn
      refine ⟨(hended.isOpen socket).mpr ⟨hopen, fun hkey => hne ?_⟩, by rw [hended.hostname, hname]⟩
      rw [← hname, (hreg key socket hkey).2]

end PeerConnector

end anisa.p2p
