import Anisa.P2p.NetworkMonitor.Runs
import Anisa.Transition.Lifecycle

open anisa.js anisa.transition
open anisa.p2p.PeerProcessor (Admissible startHandshake)

namespace anisa.p2p

namespace PeerStorage

variable {self next : PeerStorage} {ip key : String} {peer : PeerRef} {candidate : JsValue}

/-- Where the storage has an ip. -/
def stage (self : PeerStorage) (ip : String) : Stage :=
  if self.hasPendingPeer ip then .pending else if (self.getPeer ip).isSome then .stored else .absent

theorem stage_eq_pending_iff : self.stage ip = .pending ↔ self.hasPendingPeer ip = true := by
  unfold stage
  repeat' split
  all_goals simp [*]

theorem stage_eq_stored (hpending : self.hasPendingPeer ip = false) (hstored : self.getPeer ip = some peer) :
    self.stage ip = .stored := by
  simp [stage, hpending, hstored]

theorem stage_eq_absent (hpending : self.hasPendingPeer ip = false) (hnone : self.getPeer ip = none) :
    self.stage ip = .absent := by
  simp [stage, hpending, hnone]

/-- The stage of an ip depends on its own entries only. -/
theorem stage_congr (hpending : next.hasPendingPeer ip = self.hasPendingPeer ip)
    (hpeer : next.getPeer ip = self.getPeer ip) : next.stage ip = self.stage ip := by
  simp only [stage, hpending, hpeer]

end PeerStorage

namespace Subsystem

variable {env : Env} {self next : Subsystem} {ip : String} {peer : JsValue} {options : AcceptNewPeerOptions}

/-- Where every primitive change of the subsystem is a run of `N` on a
    projection of the state, so is every step. -/
theorem Preserves.simulation {τ β : Type} {N : Machine τ β} {I : Subsystem → Prop} {proj : Subsystem → τ}
    (hI : Preserves env .any (fun _ => True) I)
    (hproj : ∀ start, Preserves env .any I fun s => N.Reaches start (proj s)) :
    Simulation (machine env) N I proj where
  invariant _ _ _ hs hstep := hI.step_any hs hstep
  step s _ _ hs hstep := ((hI.and (hproj (proj s))).step_any ⟨hs, .refl _⟩ hstep).2

theorem reaches_startPing {caller : Caller} {r : PeerRef} {force : Bool} :
    (PeerConnector.machine env.lib).Reaches self.connector (self.startPing env caller r force).connector := by
  rw [startPing_eq]
  exact PeerCommunicator.reaches_ping

theorem reaches_startHandshake : (PeerConnector.machine env.lib).Reaches self.connector
    (startHandshake env self ip peer options).connector := by
  unfold PeerProcessor.startHandshake
  rw [startPing_eq]
  exact PeerCommunicator.reaches_ping

/-- The subsystem uses its connector only through the connector's operations. -/
theorem connector_simulation (env : Env) :
    Simulation (machine env) (PeerConnector.machine env.lib) Valid Subsystem.connector := by
  apply (valid_preserves env .any).simulation
  intro start
  constructor
  · exact fun s t _ h hquiet => h.trans hquiet.connector
  · exact fun s ip _ h => h
  · exact fun s ip peer options _ h _ _ => h.trans reaches_startHandshake
  · exact fun s r force _ h _ => h.trans reaches_startPing
  · intro s i outcome t _ h _ hstep
    obtain ⟨_, _, _, _, _, _, -, -, rfl⟩ := emitSettles_cases hstep
    exact h
  · exact fun s i candidate r _ h _ _ => h
  · exact fun s i candidate r e _ h _ => h
  · exact fun s i since r phase _ h _ => h

/-- Where the storage has every ip. -/
def stages (self : Subsystem) : String → Stage := self.storage.stage

/-- Forgetting an ip moves it only if it was stored. -/
theorem Valid.reaches_forgetPeer (hvalid : Valid self) (ip : String) :
    (Lifecycle.machine String).Reaches self.stages (self.forgetPeer ip).stages := by
  have hother (j : String) (hj : j ≠ ip) : (self.forgetPeer ip).stages j = self.stages j :=
    PeerStorage.stage_congr rfl (PeerStorage.getPeer_forgetPeer.trans (if_neg hj))
  have hself : (self.forgetPeer ip).storage.getPeer ip = none :=
    PeerStorage.getPeer_forgetPeer.trans (if_pos rfl)
  cases hpeer : self.storage.getPeer ip with
  | none =>
    have hsame : (self.forgetPeer ip).stages = self.stages := by
      funext j
      by_cases hj : j = ip
      · subst hj
        exact PeerStorage.stage_congr rfl (hself.trans hpeer.symm)
      · exact hother j hj
    rw [hsame]
    exact .refl _
  | some r =>
    have hpending := hvalid.not_pending_of_stored hpeer
    exact Lifecycle.reaches_move (.forget ip) (PeerStorage.stage_eq_stored hpending hpeer)
      (PeerStorage.stage_eq_absent hpending hself) hother

/-- A handshake is an offer. -/
theorem reaches_offer (hadm : Admissible env self ip options) :
    (Lifecycle.machine String).Reaches self.stages (startHandshake env self ip peer options).stages := by
  have hstorage : (startHandshake env self ip peer options).storage = self.storage.setPendingPeer ip peer := by
    obtain ⟨phase, connector, -, heq⟩ := startHandshake_eq env self ip peer options
    rw [heq]
  unfold stages
  rw [hstorage]
  refine Lifecycle.reaches_move (.offer ip) (PeerStorage.stage_eq_absent hadm.pending hadm.absent) ?_
    fun j hj => PeerStorage.stage_congr ?_ PeerStorage.getPeer_setPendingPeer
  · exact PeerStorage.stage_eq_pending_iff.mpr (PeerStorage.hasPendingPeer_setPendingPeer.trans (by simp [Lifecycle.Move.key]))
  · exact PeerStorage.hasPendingPeer_setPendingPeer.trans (by simp [show j ≠ ip from hj])

/-- An object stored under a pending ip is an acceptance. -/
theorem Valid.reaches_afterAccept {i : Nat} {candidate : String} {r : PeerRef} (hvalid : Valid self)
    (hcall : self.calls[i]? = some ⟨.accept candidate, r, .returned⟩) :
    (Lifecycle.machine String).Reaches self.stages (self.afterAccept i candidate r).stages := by
  have hip := (hvalid.accept _ (List.mem_of_getElem? hcall) candidate rfl).1
  simp only [stages, hip]
  refine Lifecycle.reaches_move (.accept candidate)
    (PeerStorage.stage_eq_pending_iff.mpr (hvalid.hasPendingPeer_of_call hcall)) ?_
    fun j hj => PeerStorage.stage_congr ?_ ?_
  · exact PeerStorage.stage_eq_stored (PeerStorage.hasPendingPeer_forgetPendingPeer.trans (by simp [Lifecycle.Move.key]))
      (PeerStorage.getPeer_setPeer.trans (if_pos rfl))
  · exact PeerStorage.hasPendingPeer_forgetPendingPeer.trans (by simp [show j ≠ candidate from hj])
  · exact PeerStorage.getPeer_setPeer.trans (if_neg hj)

/-- A handshake that failed is a refusal. -/
theorem Valid.reaches_afterRefuse {i : Nat} {candidate : String} {r : PeerRef} {phase : PingPhase}
    (hvalid : Valid self) (hcall : self.calls[i]? = some ⟨.accept candidate, r, phase⟩) :
    (Lifecycle.machine String).Reaches self.stages (self.afterRefuse i candidate).stages := by
  have hpending := hvalid.hasPendingPeer_of_call hcall
  refine Lifecycle.reaches_move (.refuse candidate) (PeerStorage.stage_eq_pending_iff.mpr hpending) ?_
    fun j hj => PeerStorage.stage_congr ?_ rfl
  · exact PeerStorage.stage_eq_absent (PeerStorage.hasPendingPeer_forgetPendingPeer.trans (by simp [Lifecycle.Move.key]))
      (hvalid.disjoint candidate hpending)
  · exact PeerStorage.hasPendingPeer_forgetPendingPeer.trans (by simp [show j ≠ candidate from hj])

/-- The storage admits ips one handshake at a time: whatever the subsystem does
    moves each of them along its lifecycle. -/
theorem lifecycle_simulation (env : Env) :
    Simulation (machine env) (Lifecycle.machine String) Valid stages := by
  apply (valid_preserves env .any).simulation
  intro start
  constructor
  · intro s t _ h hquiet
    have hsame : t.stages = s.stages := by rw [stages, hquiet.storage, stages]
    rw [hsame]
    exact h
  · exact fun s ip hvalid h => h.trans (hvalid.reaches_forgetPeer ip)
  · exact fun s ip peer options _ h hadm _ => h.trans (reaches_offer hadm)
  · exact fun s r force _ h _ => h
  · intro s i outcome t _ h _ hstep
    obtain ⟨_, _, _, _, _, _, -, -, rfl⟩ := emitSettles_cases hstep
    exact h
  · exact fun s i candidate r hvalid h _ hcall => h.trans (hvalid.reaches_afterAccept hcall)
  · exact fun s i candidate r e hvalid h hcall => h.trans (hvalid.reaches_afterRefuse hcall)
  · exact fun s i since r phase _ h _ => h

end Subsystem

namespace NetworkMonitor

/-- Through the subsystem, every run of the monitor takes each ip along its
    lifecycle, and an ip is only ever stored after it was offered and accepted. -/
theorem stored_ip_offered_then_accepted (env : Env) {actions : List Action} {monitor : NetworkMonitor}
    (hrun : (machine env).run (idle .new) actions = some monitor) :
    ∃ moves, (Lifecycle.machine String).run (fun _ => .absent) moves = some monitor.subsystem.stages ∧
      ∀ ip r, monitor.subsystem.storage.getPeer ip = some r →
        List.Sublist [.offer ip, .accept ip] moves := by
  have hsim := (simulation env).trans (Subsystem.lifecycle_simulation env)
  obtain ⟨⟨-, hvalid⟩, moves, hmoves⟩ := hsim.run ⟨trivial, Subsystem.valid_new⟩ hrun
  refine ⟨moves, hmoves, fun ip r hstored => ?_⟩
  have hpending := hvalid.not_pending_of_stored hstored
  exact Lifecycle.offered_then_accepted hmoves rfl (PeerStorage.stage_eq_stored hpending hstored)

/-- In every state a monitor reaches, what its connector has registered are
    open sockets, each under its own host name. -/
theorem connector_registered (env : Env) {actions : List Action} {monitor : NetworkMonitor}
    (hrun : (machine env).run (idle .new) actions = some monitor) :
    monitor.subsystem.connector.Registered := by
  have hsim := (simulation env).trans (Subsystem.connector_simulation env)
  obtain ⟨-, hreaches⟩ := hsim.run ⟨trivial, Subsystem.valid_new⟩ hrun
  exact hreaches.invariant (fun _ _ _ => PeerConnector.registered_step) PeerConnector.registered_new

end NetworkMonitor

end anisa.p2p
