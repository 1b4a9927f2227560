import Anisa.P2p.PeerConnector

open anisa.js anisa.transition

namespace anisa.p2p.PeerConnector

variable {lib : ThirdParty} {self next : PeerConnector}

/-- No event of an open socket terminates or unregisters another socket. -/
def ActsOnOwnSocket (self : PeerConnector) : Prop :=
  ∀ socket event, self.Open socket → ∀ other, other ≠ socket →
    (self.Open other → (self.fires socket event).Open other) ∧
      ∀ ip, self.connection ip = some other →
        (self.fires socket event).connection ip = some other

/-- A registered socket is the only open one of its host name. -/
def SoleRegistered (self : PeerConnector) : Prop :=
  ∀ ip socket, self.connection ip = some socket →
    ∀ other, self.Open other → (self.sockets.read other).hostname = ip → other = socket

/-- Events are looked up by host name, so they stay with their own socket
    exactly if no other open socket shares a registered socket's host name. -/
theorem actsOnOwnSocket_iff : self.ActsOnOwnSocket ↔ self.SoleRegistered := by
  refine ⟨?_, ?_⟩
  · intro hown ip socket hconn other hopen hname
    by_contra hne
    have hended : Terminated self ip (self.fires other .ping) := by
      rw [← hname]
      exact terminate_terminated _ _
    have hkept := (hown other .ping hopen socket (Ne.symm hne)).2 ip hconn
    rw [hended.connection, if_pos rfl] at hkept
    cases hkept
  · intro hsole socket event hopen other hne
    obtain hended | ⟨-, hsame⟩ := fires_terminated self socket event
    · have hother : self.connection (self.sockets.read socket).hostname ≠ some other := fun hconn =>
        hne (hsole _ other hconn socket hopen rfl).symm
      refine ⟨fun h => (hended.isOpen other).mpr ⟨h, hother⟩, fun ip hconn => ?_⟩
      rw [hended.connection, if_neg, hconn]
      rintro rfl
      exact hother hconn
    · rw [hsame]
      exact ⟨id, fun _ => id⟩

/-- The step does not open a socket for an ip of which an earlier socket, then
    dropped by `disconnect`, is still open. -/
def OpensAfterClose (lib : ThirdParty) (self : PeerConnector) : Action → Prop
  | .connect peer => self.connection peer.ip = none → lib.opens peer.ip = true →
      ∀ other, self.Open other → (self.sockets.read other).hostname ≠ peer.ip
  | _ => True

theorem soleRegistered_step_iff {a : Action} (hsole : self.SoleRegistered)
    (h : step lib self a = some next) : next.SoleRegistered ↔ OpensAfterClose lib self a := by
  cases step_effect h with
  | quiet hconnections hsockets hconnect hdrops =>
    have hnext : next.SoleRegistered := by
      intro ip socket hconn other hopen hname
      rw [connection, hconnections] at hconn
      rw [Open, hsockets] at hopen
      rw [hsockets] at hname
      exact hsole ip socket hconn other hopen hname
    refine iff_of_true hnext ?_
    cases a with
    | connect peer =>
      intro hnone hopens
      obtain hsome | hclosed := hconnect peer rfl
      · exact absurd hnone hsome
      · rw [hclosed] at hopens
        cases hopens
    | _ => trivial
  | @opened peer hnone hopens =>
    refine ⟨?_, ?_⟩
    · intro hnext _ _ other hopen hname
      have hlt := hopen.1
      have heq := hnext peer.ip self.sockets.size (by simp [connection, PeerRepository.get_set]) other
        ⟨Nat.lt_succ_of_lt hlt, by simpa only [Heap.read_alloc_of_lt hlt] using hopen.2⟩
        (by simpa only [Heap.read_alloc_of_lt hlt] using hname)
      exact Nat.ne_of_lt hlt heq
    · intro hclosed ip socket hconn other hopen hname
      have hother : other < self.sockets.size + 1 := hopen.1
      by_cases hold : other < self.sockets.size
      · simp only [Open, Heap.read_alloc_of_lt hold] at hopen hname
        have hopen : self.Open other := ⟨hold, hopen.2⟩
        have hne : ip ≠ peer.ip := fun heq => hclosed hnone hopens other hopen (hname.trans heq)
        simp only [connection, PeerRepository.get_set, if_neg hne] at hconn
        exact hsole ip socket hconn other hopen hname
      · obtain rfl : other = self.sockets.size :=
          Nat.le_antisymm (Nat.le_of_lt_succ hother) (Nat.le_of_not_lt hold)
        simp only [Heap.read_alloc_self] at hname
        simp only [connection, PeerRepository.get_set, if_pos hname.symm] at hconn
        simpa using hconn
  | dropped hdrops hsome =>
    refine iff_of_true (fun ip socket hconn other hopen hname => ?_) ?_
    · simp only [connection, PeerRepository.get_forget] at hconn
      split at hconn
      · cases hconn
      · exact hsole ip socket hconn other hopen hname
    · cases a with
      | connect peer => cases hdrops
      | _ => trivial
  | ended hended hconnect hdrops =>
    refine iff_of_true (fun ip socket hconn other hopen hname => ?_) ?_
    · rw [hended.connection] at hconn
      rw [hended.hostname] at hname
      split at hconn
      · cases hconn
      · exact hsole ip socket hconn other ((hended.isOpen other).mp hopen).1 hname
    · cases a with
      | connect peer => exact absurd rfl (hconnect peer)
      | _ => trivial

/-- Throughout a run, events act on their own socket only exactly if the run
    never opens a socket beside one of the same ip that is still open. -/
theorem events_act_on_own_socket_iff (lib : ThirdParty) (actions : List Action) :
    (machine lib).Always ActsOnOwnSocket new actions ↔
      (machine lib).Along (OpensAfterClose lib) new actions := by
  have hstart : new.ActsOnOwnSocket := by
    intro socket event hopen
    exact absurd hopen.1 (Nat.not_lt_zero socket)
  refine Machine.always_iff_along (Q := fun _ => True) (fun _ _ _ _ _ => trivial)
    (fun s a t _ hown h => ?_) (fun s a h => ?_) hstart trivial
  · rw [actsOnOwnSocket_iff]
    exact soleRegistered_step_iff (actsOnOwnSocket_iff.mp hown) h
  · cases a with
    | connect peer =>
      simp only [machine, step] at h
      split at h <;> cases h
    | _ => trivial

/-- The first socket of an ip, dropped by `disconnect`, is still open when the
    second is registered, and its ping ends the second. -/
theorem dropped_socket_event_ends_successor :
    ¬ (machine sampleEnv.lib).Always ActsOnOwnSocket new
      [.connect (.new sampleEnv.options "10.0.0.1"), .disconnect "10.0.0.1",
        .connect (.new sampleEnv.options "10.0.0.1")] := by
  intro halways
  have hlast := halways.last rfl
  have hkept := (hlast 0 .ping (by decide) 1 (by decide)).2 "10.0.0.1" (by decide)
  revert hkept
  decide

end anisa.p2p.PeerConnector
