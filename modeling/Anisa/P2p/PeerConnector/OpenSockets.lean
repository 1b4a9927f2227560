import Anisa.P2p.PeerConnector
import Mathlib.Data.List.Perm.Subperm

open anisa.js anisa.transition

namespace anisa.p2p.PeerConnector

variable {lib : ThirdParty} {self next : PeerConnector}

/-- The sockets `create` has opened that have not been terminated. -/
def openSockets (self : PeerConnector) : List SocketRef :=
  (List.range self.sockets.size).filter fun socket => self.Open socket

theorem mem_openSockets {socket : SocketRef} : socket ∈ self.openSockets ↔ self.Open socket := by
  simp only [openSockets, List.mem_filter, List.mem_range, decide_eq_true_eq]
  exact ⟨fun h => h.2, fun h => ⟨h.1, h⟩⟩

/-- Every open socket is the one registered under its host name. -/
def OpenRegistered (self : PeerConnector) : Prop :=
  ∀ socket, self.Open socket →
    self.connection (self.sockets.read socket).hostname = some socket

/-- No orphaned sockets: every open socket is registered, no two open sockets
    share a host name, and the registry is as large as the set of open sockets. -/
structure NoOrphans (connector : PeerConnector) : Prop where
  registered : connector.OpenRegistered
  sole : ∀ socket other, connector.Open socket → connector.Open other →
    (connector.sockets.read socket).hostname = (connector.sockets.read other).hostname →
      socket = other
  count : connector.openSockets.length = connector.connections.count

/-- In every run a registered socket has only one entry. -/
theorem nodup_registered (hreg : Registered self) : self.connections.values.Nodup := by
  have hpair := List.pairwise_map.mp self.connections.repository.nodup
  refine List.pairwise_map.mpr (hpair.imp_of_mem ?_)
  intro e f he hf hne heq
  have hname := (hreg e.1 e.2 (OrderedMap.get_eq_some_iff_mem.mpr he)).2
  rw [heq, (hreg f.1 f.2 (OrderedMap.get_eq_some_iff_mem.mpr hf)).2] at hname
  exact hne hname.symm

theorem noOrphans_iff (hreg : Registered self) : self.NoOrphans ↔ self.OpenRegistered := by
  refine ⟨fun h => h.registered, fun h => ⟨h, ?_, ?_⟩⟩
  · intro socket other hsocket hother hname
    have hfirst := h socket hsocket
    rw [hname, h other hother] at hfirst
    exact (Option.some.inj hfirst).symm
  · have hperm : self.openSockets.Perm self.connections.values := by
      have hnodup : self.openSockets.Nodup := List.nodup_range.filter _
      rw [List.perm_ext_iff_of_nodup hnodup (nodup_registered hreg)]
      intro socket
      rw [mem_openSockets, PeerRepository.mem_values_iff]
      refine ⟨?_, ?_⟩
      · intro hopen
        exact ⟨_, h socket hopen⟩
      · rintro ⟨ip, hconn⟩
        exact (hreg ip socket hconn).1
    rw [hperm.length_eq]
    exact List.length_map _

/-- The step does not drop a registered connection through `disconnect`. -/
def DropsNothing (self : PeerConnector) (a : Action) : Prop :=
  ∀ ip, a.drops = some ip → self.connection ip = none

theorem openRegistered_step_iff {a : Action} (hreg : Registered self) (hopen : self.OpenRegistered)
    (h : step lib self a = some next) : next.OpenRegistered ↔ DropsNothing self a := by
  cases step_effect h with
  | quiet hconnections hsockets hconnect hdrops =>
    refine iff_of_true (fun socket hsocket => ?_) hdrops
    rw [Open, hsockets] at hsocket
    rw [connection, hconnections, hsockets]
    exact hopen socket hsocket
  | @opened peer hnone hopens =>
    refine iff_of_true (fun socket hsocket => ?_) (by simp [DropsNothing, Action.drops])
    by_cases hold : socket < self.sockets.size
    · simp only [Open, Heap.read_alloc_of_lt hold] at hsocket
      have hconn := hopen socket ⟨hold, hsocket.2⟩
      have hne : (self.sockets.read socket).hostname ≠ peer.ip := by
        intro heq
        rw [heq, hnone] at hconn
        cases hconn
      simp only [Heap.read_alloc_of_lt hold, connection, PeerRepository.get_set, if_neg hne]
      exact hconn
    · obtain rfl : socket = self.sockets.size :=
        Nat.le_antisymm (Nat.le_of_lt_succ hsocket.1) (Nat.le_of_not_lt hold)
      simp [connection, PeerRepository.get_set]
  | @dropped _ ip socket hdrops hsome =>
    refine iff_of_false (fun hnext => ?_) (fun hnothing => ?_)
    · obtain ⟨hsocket, hname⟩ := hreg ip socket hsome
      have hkept := hnext socket hsocket
      simp only [connection, PeerRepository.get_forget, hname, if_true] at hkept
      cases hkept
    · have hnone := hnothing ip hdrops
      rw [hsome] at hnone
      cases hnone
  | @ended _ key _ hended hconnect hdrops =>
    refine iff_of_true (fun socket hsocket => ?_) (by simp [DropsNothing, hdrops])
    obtain ⟨hsocket, hkey⟩ := (hended.isOpen socket).mp hsocket
    have hconn := hopen socket hsocket
    rw [hended.hostname, hended.connection, if_neg, hconn]
    rintro heq
    rw [heq] at hconn
    exact hkey hconn

/-- A connector whose client sockets re-connect by themselves, as `create` leaves
    `autoReconnect` at its default. A socket that has re-connected runs on a new
    transport: the ping and pong handlers stayed with the one it lost. -/
structure Reconnecting where
  connector : PeerConnector
  reconnected : List SocketRef

/-- A call or event of the connector, or a terminated socket that the client
    library opens anew. -/
inductive ClientEvent where
  | calls (a : Action)
  | reconnects (socket : SocketRef)

namespace Reconnecting

def new : Reconnecting := ⟨.new, []⟩

/-- The event comes from a transport on which `create` installed no handler. -/
def unheard (self : Reconnecting) : Action → Bool
  | .fires socket .ping | .fires socket .pong => decide (socket ∈ self.reconnected)
  | _ => false

/-- A socket that `create` opened and that has been terminated. -/
def Ended (self : Reconnecting) (socket : SocketRef) : Prop :=
  socket < self.connector.sockets.size ∧ (self.connector.sockets.read socket).terminated = true

instance (self : Reconnecting) (socket : SocketRef) : Decidable (self.Ended socket) :=
  inferInstanceAs (Decidable (_ ∧ _))

/-- The terminated socket is open again. The connector learns nothing of it. -/
def reopen (self : PeerConnector) (socket : SocketRef) : PeerConnector :=
  { self with sockets := self.sockets.write socket { self.sockets.read socket with terminated := false } }

def step (lib : ThirdParty) (self : Reconnecting) : ClientEvent → Option Reconnecting
  | .calls a =>
    if self.unheard a then some self
    else (PeerConnector.step lib self.connector a).map fun connector => { self with connector }
  | .reconnects socket =>
    if self.Ended socket then
      some ⟨reopen self.connector socket, socket :: self.reconnected⟩
    else none

def machine (lib : ThirdParty) : Machine Reconnecting ClientEvent := ⟨step lib⟩

/-- The step neither drops a registered connection through `disconnect` nor opens
    a terminated socket anew. -/
def KeepsRegistry (self : Reconnecting) : ClientEvent → Prop
  | .calls a => DropsNothing self.connector a
  | .reconnects socket => ¬ self.Ended socket

variable {self next : Reconnecting} {socket : SocketRef} {event : ClientEvent}

/-- Nothing happens, the connector takes a step of its own, or a socket that is
    registered nowhere is open again. -/
theorem step_cases (h : step lib self event = some next) :
    (∃ a, event = .calls a ∧ a.drops = none ∧ next = self) ∨
      (∃ a connector, event = .calls a ∧ PeerConnector.step lib self.connector a = some connector ∧
        next = { self with connector }) ∨
      (∃ socket, event = .reconnects socket ∧ self.Ended socket ∧
        next.connector = reopen self.connector socket) := by
  cases event with
  | calls a =>
    simp only [step] at h
    by_cases hunheard : self.unheard a
    · rw [if_pos hunheard] at h
      obtain rfl : self = next := by simpa using h
      refine .inl ⟨a, rfl, ?_, rfl⟩
      cases a with
      | fires socket event => rfl
      | _ => exact absurd hunheard (by simp [unheard])
    · rw [if_neg hunheard] at h
      obtain ⟨connector, hstep, rfl⟩ := Option.map_eq_some_iff.mp h
      exact .inr (.inl ⟨a, connector, rfl, hstep, rfl⟩)
  | reconnects socket =>
    simp only [step] at h
    split at h
    · rename_i hended
      obtain rfl : _ = next := by simpa using h
      exact .inr (.inr ⟨socket, rfl, hended, rfl⟩)
    · cases h

theorem hostname_reopen (self : PeerConnector) (socket other : SocketRef) :
    ((reopen self socket).sockets.read other).hostname = (self.sockets.read other).hostname :=
  Heap.field_write AGClientSocket.hostname rfl

/-- A terminated socket is registered under no ip, and its return changes no
    registered one. -/
theorem registered_reopen (hreg : Registered self.connector) (hended : self.Ended socket) :
    Registered (reopen self.connector socket) := by
  intro ip other hconn
  obtain ⟨⟨hlt, hopen⟩, hname⟩ := hreg ip other hconn
  have hne : other ≠ socket := by
    rintro rfl
    rw [hended.2] at hopen
    cases hopen
  refine ⟨⟨by simpa [reopen] using hlt, ?_⟩, by rw [hostname_reopen, hname]⟩
  simp only [reopen, Heap.read_write_of_ne hne, hopen]

/-- The socket that is open again is registered nowhere. -/
theorem not_openRegistered_reopen (hreg : Registered self.connector) (hended : self.Ended socket) :
    ¬ (reopen self.connector socket).OpenRegistered := by
  intro hregistered
  have hopen : (reopen self.connector socket).Open socket :=
    ⟨by simpa [reopen] using hended.1, by simp [reopen]⟩
  have hconn : self.connector.connection ((reopen self.connector socket).sockets.read socket).hostname =
      some socket := hregistered socket hopen
  have hclosed := (hreg _ socket hconn).1.2
  rw [hended.2] at hclosed
  cases hclosed

theorem registered_step (hreg : Registered self.connector) (h : step lib self event = some next) :
    Registered next.connector := by
  obtain ⟨a, -, -, rfl⟩ | ⟨a, connector, -, hstep, rfl⟩ | ⟨socket, -, hended, hnext⟩ := step_cases h
  · exact hreg
  · exact PeerConnector.registered_step hreg hstep
  · rw [hnext]
    exact registered_reopen hreg hended

theorem openRegistered_step_iff (hreg : Registered self.connector)
    (hopen : self.connector.OpenRegistered) (h : step lib self event = some next) :
    next.connector.OpenRegistered ↔ self.KeepsRegistry event := by
  obtain ⟨a, rfl, hdrops, rfl⟩ | ⟨a, connector, rfl, hstep, rfl⟩ | ⟨socket, rfl, hended, hnext⟩ :=
    step_cases h
  · refine iff_of_true hopen fun ip hip => ?_
    rw [hdrops] at hip
    cases hip
  · exact PeerConnector.openRegistered_step_iff hreg hopen hstep
  · rw [hnext]
    exact iff_of_false (not_openRegistered_reopen hreg hended) fun hkeeps => hkeeps hended

/-- A call that drops a connection is always possible, and only a terminated
    socket re-connects. -/
theorem keepsRegistry_of_step_eq_none (h : step lib self event = none) : self.KeepsRegistry event := by
  cases event with
  | calls a =>
    simp only [step] at h
    split at h
    · cases h
    · intro ip hdrops
      have hnone := Option.map_eq_none_iff.mp h
      cases a with
      | disconnect ip | handshakeFailed ip | disconnectPeer ip => cases hnone
      | _ => cases hdrops
  | reconnects socket =>
    intro hended
    rw [step, if_pos hended] at h
    cases h

end Reconnecting

/-- Throughout a run no socket is orphaned exactly if no `disconnect` of the
    run, direct or by a failed handshake or a `disconnectPeer` event, finds a
    registered connection, which it drops without closing it, and no terminated
    socket re-connects. -/
theorem no_orphaned_sockets_iff (lib : ThirdParty) (events : List ClientEvent) :
    (Reconnecting.machine lib).Always (fun self => self.connector.NoOrphans) .new events ↔
      (Reconnecting.machine lib).Along Reconnecting.KeepsRegistry .new events := by
  have hstart : new.OpenRegistered := fun socket hopen => absurd hopen.1 (Nat.not_lt_zero socket)
  refine Machine.always_iff_along (Q := fun self => Registered self.connector)
    (fun s event t hreg h => Reconnecting.registered_step hreg h) (fun s event t hreg horphans h => ?_)
    (fun s event h => Reconnecting.keepsRegistry_of_step_eq_none h)
    ((noOrphans_iff registered_new).mpr hstart) registered_new
  rw [noOrphans_iff (Reconnecting.registered_step hreg h)]
  exact Reconnecting.openRegistered_step_iff hreg ((noOrphans_iff hreg).mp horphans) h

/-- One failed handshake leaves its socket open and registered nowhere. -/
theorem failed_handshake_orphans_socket :
    ¬ (Reconnecting.machine sampleEnv.lib).Always (fun self => self.connector.NoOrphans) .new
      [.calls (.connect (.new sampleEnv.options "10.0.0.1")), .calls (.handshakeFailed "10.0.0.1")] := by
  intro halways
  have hlast := halways.last rfl
  have hcount := hlast.count
  revert hcount
  decide

end anisa.p2p.PeerConnector
