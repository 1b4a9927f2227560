import Anisa.P2p.Provenance

open anisa.js anisa.transition
open anisa.p2p.PeerProcessor (Whitelisted startHandshake)

namespace anisa.p2p.Subsystem

variable {env : Env} {self : Subsystem} {ip : String}

/-- No listed ip is stored or pending. The option `blacklist` is documented as
    the list of IPs that are not allowed into the peer list; no function reads
    it. -/
def Excludes (blacklist : List String) (s : Subsystem) : Prop :=
  ∀ ip ∈ blacklist, s.storage.getPeer ip = none ∧ s.storage.hasPendingPeer ip = false

/-- The same configuration with a whitelist that matches nothing. -/
def withoutWhitelist (env : Env) : Env := { env with options := { env.options with whitelist := none } }

/-- Where discovery is disabled the whitelist is never consulted. -/
theorem validatePeerIp_withoutWhitelist (hdisabled : env.options.disableDiscovery = true)
    (peer : JsValue) (options : AcceptNewPeerOptions) :
    PeerProcessor.validatePeerIp (withoutWhitelist env) self peer options =
      PeerProcessor.validatePeerIp env self peer options := by
  unfold PeerProcessor.validatePeerIp
  cases peer.get "ip" with
  | error e => rfl
  | ok v => by_cases hpending : self.storage.hasPendingPeerAt v <;> simp [hpending, hdisabled, withoutWhitelist]

theorem machine_withoutWhitelist (hdisabled : env.options.disableDiscovery = true) :
    machine (withoutWhitelist env) = machine env := by
  have hoffer (s : Subsystem) (peer : JsValue) (options : AcceptNewPeerOptions) :
      PeerProcessor.offer (withoutWhitelist env) s peer options = PeerProcessor.offer env s peer options := by
    unfold PeerProcessor.offer PeerProcessor.validateAndAcceptPeer
    rw [validatePeerIp_withoutWhitelist hdisabled]
    rfl
  have hstep (s : Subsystem) (a : Action) : step (withoutWhitelist env) s a = step env s a := by
    cases a with
    | validateAndAcceptPeer peer options => simp only [step, hoffer]
    | populateSeedPeers =>
      have hseeds : NetworkMonitor.populateSeeds (withoutWhitelist env) s =
          NetworkMonitor.populateSeeds env s := by
        funext seeds
        simp only [NetworkMonitor.populateSeeds, hoffer]
      simp only [step, NetworkMonitor.populateSeedPeers, hseeds]
      rfl
    | _ => rfl
  simp only [machine, funext fun s => funext (hstep s)]

/-- A seed on the whitelist of a subsystem that has just started is taken up. -/
theorem pending_of_offered (henabled : env.options.disableDiscovery = false)
    (hlisted : Whitelisted env ip = true) :
    ∃ s, (machine env).run new [.validateAndAcceptPeer (IPeerData.toJsValue ⟨ip⟩) { seed := true }] = some s ∧
      s.storage.hasPendingPeer ip = true := by
  have hip : (IPeerData.toJsValue ⟨ip⟩).get "ip" = .ok (.str ip) := rfl
  have hvalid : PeerProcessor.validatePeerIp env new (IPeerData.toJsValue ⟨ip⟩) { seed := true } =
      .ok true := by
    have hpending : new.storage.hasPendingPeer ip = false := rfl
    have hsubnet : new.storage.getSameSubnetPeers env.lib new.heap (.str ip) = .ok [] := rfl
    rw [PeerProcessor.validatePeerIp_str hip, henabled, hlisted, hpending, hsubnet]
    simp [Except.map]
  have hoffer : PeerProcessor.offer env new (IPeerData.toJsValue ⟨ip⟩) { seed := true } =
      (startHandshake env new ip (IPeerData.toJsValue ⟨ip⟩) { seed := true }, none) := by
    have habsent : new.storage.getPeer ip = none := rfl
    simp [PeerProcessor.offer, PeerProcessor.validateAndAcceptPeer, PeerProcessor.acceptNewPeer, hvalid,
      hip, habsent, pure, Except.pure]
  refine ⟨_, Machine.run_singleton rfl, ?_⟩
  obtain ⟨phase, connector, -, heq⟩ :=
    startHandshake_eq env new ip (IPeerData.toJsValue ⟨ip⟩) { seed := true }
  rw [hoffer, heq, PeerStorage.hasPendingPeer_setPendingPeer]
  simp

/-- Whatever the blacklist says, admission is decided by the whitelist alone:
    the blacklisted ips stay out in all runs exactly if none of them is on the
    whitelist, or discovery is disabled. -/
theorem blacklist_kept_out_iff (env : Env) (blacklist : List String) :
    (∀ actions, (machine env).Always (Excludes blacklist) new actions) ↔
      env.options.disableDiscovery = true ∨ ∀ ip ∈ blacklist, Whitelisted env ip = false := by
  refine ⟨?_, ?_⟩
  · intro halways
    by_contra hcondition
    simp only [not_or, Bool.not_eq_true, not_forall, Bool.not_eq_false] at hcondition
    obtain ⟨henabled, ip, hip, hlisted⟩ := hcondition
    obtain ⟨s, hrun, hpending⟩ := pending_of_offered henabled hlisted
    have hlast := (halways _).last hrun
    rw [(hlast ip hip).2] at hpending
    cases hpending
  · intro hcondition actions
    have hout : ∃ env', machine env' = machine env ∧ ∀ ip ∈ blacklist, Whitelisted env' ip = false := by
      obtain hdisabled | hlisted := hcondition
      · exact ⟨withoutWhitelist env, machine_withoutWhitelist hdisabled, fun _ _ => rfl⟩
      · exact ⟨env, rfl, hlisted⟩
    obtain ⟨env', hmachine, hlisted⟩ := hout
    have hpreserves := (valid_preserves env' .any).and (provenance_preserves env' .any)
    rw [← hmachine]
    refine (hpreserves.always_any ⟨valid_new, provenance_new⟩).imp ?_
    rintro s ⟨-, h⟩ ip hip
    have hnot := hlisted ip hip
    refine ⟨?_, ?_⟩
    · cases hstored : s.storage.getPeer ip with
      | none => rfl
      | some r =>
        rw [(h.peers ip r hstored).1] at hnot
        cases hnot
    · by_contra hpending
      rw [h.pending ip (by simpa using hpending)] at hnot
      cases hnot

/-- The default whitelist admits a blacklisted ip. -/
theorem blacklisted_ip_admitted :
    ¬ (machine sampleEnv).Always (Excludes ["10.0.0.1"]) new
      [.validateAndAcceptPeer (sampleCandidate "10.0.0.1") {}] := by
  intro halways
  have hlast := halways.last rfl
  have hpending := (hlast "10.0.0.1" List.mem_cons_self).2
  cases hpending

end anisa.p2p.Subsystem
