import Anisa.P2p.Handshake

open anisa.js anisa.transition
open anisa.p2p.PeerProcessor (Admissible startHandshake)

namespace anisa.p2p.Subsystem

open scoped List

variable {env : Env} {self next : Subsystem}

/-- Before it was stored the object was answered with a configuration that
    `validatePeerConfig` accepts, and the version it records is on the object. -/
def OfOwnNetwork (env : Env) (s : Subsystem) (r : PeerRef) : Prop :=
  ∃ reply config, [.answered r reply, .stored r] <+ s.trace ∧ reply.get "config" = .ok config ∧
    PeerCommunicator.validatePeerConfig env (s.peerAt r) config = .ok (s.peerAt r, true)

/-- Every stored peer is of the own network. -/
def AllOfOwnNetwork (env : Env) (s : Subsystem) : Prop :=
  ∀ r ∈ s.storage.getPeers, s.OfOwnNetwork env r

/-- No object ever gets a version. -/
def Unversioned (s : Subsystem) : Prop := ∀ r, (s.peerAt r).version = .undefined

theorem unversioned_new : Unversioned new := fun _ => rfl

theorem unversioned_preserves (env : Env) (G : Guard) :
    Preserves env G (fun _ => True) Unversioned where
  quiet s t _ h hquiet r := by
    obtain ⟨ports, latency, hread⟩ := hquiet.heap r
    simp only [peerAt, hread]
    exact h r
  forgetPeer _ _ _ h := h
  handshake s ip peer options _ h _ _ r := by
    obtain ⟨phase, connector, -, heq⟩ := startHandshake_eq env s ip peer options
    have hwrite := Heap.read_alloc (h := s.heap) (a := ⟨.new env.options ip, options⟩) (r := r)
    simp only [heq, peerAt, hwrite]
    split
    · rfl
    · exact h r
  cleanse _ _ _ _ h _ := h
  settle s i outcome t _ h _ hstep r := by
    obtain ⟨caller, q, _, settled, reply, phase, -, heffect, rfl⟩ := emitSettles_cases hstep
    have hversion := Heap.field_write (h := s.heap) (r := q) (q := r)
      (a := { s.heap.read q with peer := settled }) (fun object : PeerObject => object.peer.version)
      heffect.keeps.2
    exact hversion.trans (h r)
  stored _ _ _ _ _ h _ _ := h
  refused _ _ _ _ _ _ h _ := h
  finished _ _ _ _ _ _ h _ := h

/-- No handshake that succeeded ends. -/
def noAdmission : Guard where
  accept _ _ _ := True
  settle _ _ _ := True
  resume s i := ∀ candidate r, s.calls[i]? ≠ some ⟨.accept candidate, r, .returned⟩
  accept_seed _ _ := trivial

/-- Without such an end nothing gets stored. -/
theorem empty_preserves (env : Env) :
    Preserves env noAdmission (fun _ => True) (fun s => s.storage.getPeers = []) where
  quiet s t _ h hquiet := by
    rw [hquiet.storage]
    exact h
  forgetPeer _ _ _ h := PeerStorage.getPeers_forgetPeer_of_nil h
  handshake _ _ _ _ _ h _ _ := h
  cleanse _ _ _ _ h _ := h
  settle s i outcome t _ h _ hstep := by
    obtain ⟨_, _, _, _, _, _, -, -, rfl⟩ := emitSettles_cases hstep
    exact h
  stored _ _ _ _ _ _ hG hcall := absurd hcall (hG _ _)
  refused _ _ _ _ _ _ h _ := h
  finished _ _ _ _ _ _ h _ := h

/-- An object without a version is never of the own network, so only an empty
    storage meets the requirement. -/
theorem allOfOwnNetwork_iff (hsemver : env.lib.semverValid .undefined = false)
    (hversion : Unversioned self) : AllOfOwnNetwork env self ↔ self.storage.getPeers = [] := by
  refine ⟨?_, ?_⟩
  · intro hown
    apply List.eq_nil_iff_forall_not_mem.mpr
    intro r hr
    obtain ⟨reply, config, -, -, hvalidated⟩ := hown r hr
    obtain ⟨_, version, -, -, -, hvalid, hrecorded⟩ :=
      PeerCommunicator.validatePeerConfig_true_iff.mp hvalidated
    have hsame : version = .undefined := by
      rw [← hversion r, hrecorded]
    rw [hsame, hsemver] at hvalid
    cases hvalid
  · intro hempty r hr
    rw [hempty] at hr
    cases hr

/-- An empty storage stays empty in exactly the steps that admit no peer. -/
theorem empty_step_iff {a : Action} (hempty : self.storage.getPeers = [])
    (hstep : step env self a = some next) : next.storage.getPeers = [] ↔ noAdmission.Meets self a := by
  refine ⟨fun hnext => ?_, fun hmeets => (empty_preserves env).step hempty hmeets hstep⟩
  cases a with
  | resume i =>
    intro candidate r hcall
    simp only [step, resume, hcall, Option.some.injEq] at hstep
    subst hstep
    have hmem : r ∈ (self.storage.setPeer (self.peerAt r).ip r).getPeers := by
      apply PeerStorage.mem_getPeers_iff.mpr
      exact ⟨_, by rw [PeerStorage.getPeer_setPeer, if_pos rfl]⟩
    have hnext : (self.storage.setPeer (self.peerAt r).ip r).getPeers = [] := hnext
    rw [hnext] at hmem
    cases hmem
  | _ => simp [Guard.Meets, noAdmission]

/-- A step that cannot be taken admits no peer. -/
theorem meets_of_disabled {a : Action} (hstep : step env self a = none) : noAdmission.Meets self a := by
  cases a with
  | resume i =>
    intro candidate r hcall
    simp [step, resume, hcall] at hstep
  | _ => simp [Guard.Meets, noAdmission]

/-- No code calls `validatePeerConfig`, so throughout a run every stored peer
    is of the own network exactly if the run never admits one. -/
theorem own_network_iff_no_admission (env : Env) (hsemver : env.lib.semverValid .undefined = false)
    (actions : List Action) :
    (machine env).Always (AllOfOwnNetwork env) new actions ↔
      (machine env).Along noAdmission.Meets new actions := by
  have hkeeps (s : Subsystem) (a : Action) (t : Subsystem) (hversion : Unversioned s)
      (hstep : step env s a = some t) : Unversioned t :=
    (unversioned_preserves env .any).step_any hversion hstep
  have hstart : AllOfOwnNetwork env new := (allOfOwnNetwork_iff hsemver unversioned_new).mpr rfl
  refine Machine.always_iff_along hkeeps (fun s a t hversion hown hstep => ?_)
    (fun s a hstep => meets_of_disabled hstep) hstart unversioned_new
  rw [allOfOwnNetwork_iff hsemver hversion] at hown
  rw [allOfOwnNetwork_iff hsemver (hkeeps s a t hversion hstep)]
  exact empty_step_iff hown hstep

theorem own_network_iff_no_admission_failed_handshake :
    (machine sampleEnv).Always (AllOfOwnNetwork sampleEnv) new
        [.validateAndAcceptPeer (sampleCandidate "10.0.0.1") {}, .emitSettles 0 (.error .typeError),
          .resume 0] ↔
      (machine sampleEnv).Along noAdmission.Meets new
        [.validateAndAcceptPeer (sampleCandidate "10.0.0.1") {}, .emitSettles 0 (.error .typeError),
          .resume 0] :=
  own_network_iff_no_admission sampleEnv rfl _

/-- A peer of another network is admitted, without a version. -/
theorem foreign_network_admitted :
    ¬ (machine sampleEnv).Always (AllOfOwnNetwork sampleEnv) new
      [.validateAndAcceptPeer (sampleCandidate "10.0.0.1") {},
        .emitSettles 0 (.ok (.obj [("data", .obj [("state", .obj []),
          ("config", .obj [("network", .obj [("nethash", .str "another network")]),
            ("version", .str "2.6.0"), ("plugins", .obj [])])])])),
        .resume 0] := by
  intro halways
  have hlast := halways.last rfl
  obtain ⟨_, _, -, -, hvalidated⟩ := hlast 0 (by decide)
  obtain ⟨_, version, -, -, -, hvalid, hrecorded⟩ :=
    PeerCommunicator.validatePeerConfig_true_iff.mp hvalidated
  obtain rfl : version = .undefined := (congrArg Peer.version hrecorded).symm
  cases hvalid

end anisa.p2p.Subsystem
