import Anisa.P2p.Handshake

open anisa.js anisa.transition
open anisa.p2p.PeerProcessor (Admissible network startHandshake)

namespace anisa.p2p.Subsystem

variable {env : Env} {self next : Subsystem} {net : String}

/-- The object was admitted without the seed option and its ip lies in the
    given /24 network. -/
def CountsFor (env : Env) (s : Subsystem) (net : String) (r : PeerRef) : Bool :=
  !(s.heap.read r).admission.seed && (network env.lib (s.peerAt r).ip).toOption == some net

/-- The handshake has not failed, so its object may still be stored. -/
def UnderWay (call : Call) : Bool :=
  match call.caller, call.phase with
  | .accept _, .awaiting _ | .accept _, .returned => true
  | _, _ => false

def storedInSubnet (env : Env) (s : Subsystem) (net : String) : Nat :=
  s.storage.getPeers.countP (s.CountsFor env net)

def underWayInSubnet (env : Env) (s : Subsystem) (net : String) : Nat :=
  s.calls.countP fun call => UnderWay call && s.CountsFor env net call.peer

/-- No network has more stored peers than the limit, seeds not counted. -/
def SubnetCap (env : Env) (s : Subsystem) : Prop :=
  ∀ net, s.storedInSubnet env net ≤ env.options.maxSameSubnetPeers

/-- The limit kept with the handshakes that are under way counted in. -/
def Reserved (env : Env) (s : Subsystem) : Prop :=
  ∀ net, s.storedInSubnet env net + s.underWayInSubnet env net ≤ env.options.maxSameSubnetPeers

/-- Whenever a candidate that is not a seed passes the checks, its network has
    room for it besides the stored peers and the handshakes under way. -/
def roomForHandshakes (env : Env) : Guard where
  accept s ip options := Admissible env s ip options → options.seed = false →
    ∀ net, network env.lib ip = .ok net →
      s.storedInSubnet env net + s.underWayInSubnet env net < env.options.maxSameSubnetPeers
  settle _ _ _ := True
  resume _ _ := True
  accept_seed _ _ _ hseed := by cases hseed

theorem Reserved.subnetCap (h : Reserved env self) : SubnetCap env self := by
  intro net
  have hnet := h net
  omega

theorem reserved_new : Reserved env new := fun _ => Nat.zero_le _

/-- Objects keep the options and the ip that are counted by. -/
theorem countsFor_congr {r : PeerRef} (hadmission : (next.heap.read r).admission = (self.heap.read r).admission)
    (hip : (next.peerAt r).ip = (self.peerAt r).ip) : next.CountsFor env net r = self.CountsFor env net r := by
  simp only [CountsFor, hadmission, hip]

theorem countsFor_quiet (hquiet : Quiet env.lib self next) (r : PeerRef) :
    next.CountsFor env net r = self.CountsFor env net r := by
  obtain ⟨ports, latency, hread⟩ := hquiet.heap r
  exact countsFor_congr (by rw [hread]) (peerAt_ip_of_quiet hquiet r)

theorem Reserved.quiet (h : Reserved env self) (hquiet : Quiet env.lib self next) : Reserved env next := by
  intro net
  have hcounts : next.CountsFor env net = self.CountsFor env net := funext (countsFor_quiet hquiet)
  simp only [storedInSubnet, underWayInSubnet, hquiet.storage, hquiet.calls, hcounts]
  exact h net

theorem Reserved.forgetPeer (h : Reserved env self) (ip : String) : Reserved env (self.forgetPeer ip) := by
  intro net
  have hfewer : (self.forgetPeer ip).storedInSubnet env net ≤ self.storedInSubnet env net :=
    PeerStorage.getPeers_forgetPeer_sublist.countP_le
  have hsame : (self.forgetPeer ip).underWayInSubnet env net = self.underWayInSubnet env net := rfl
  have hnet := h net
  omega

/-- A new handshake takes one place, which the condition has set aside. -/
theorem Reserved.startHandshake {ip : String} {peer : JsValue} {options : AcceptNewPeerOptions}
    (hvalid : Valid self) (h : Reserved env self) (hadm : Admissible env self ip options)
    (hroom : (roomForHandshakes env).accept self ip options) :
    Reserved env (startHandshake env self ip peer options) := by
  intro net
  obtain ⟨phase, connector, -, heq⟩ := startHandshake_eq env self ip peer options
  have hold (r : PeerRef) (hr : r < self.heap.size) :
      (PeerProcessor.startHandshake env self ip peer options).CountsFor env net r =
        self.CountsFor env net r := by
    refine countsFor_congr ?_ ?_ <;> simp only [heq, peerAt, Heap.read_alloc_of_lt hr]
  have hstored : (PeerProcessor.startHandshake env self ip peer options).storedInSubnet env net =
      self.storedInSubnet env net := by
    have hpeers : (PeerProcessor.startHandshake env self ip peer options).storage.getPeers =
        self.storage.getPeers := by rw [heq]; rfl
    simp only [storedInSubnet, hpeers]
    apply List.countP_congr
    intro r hr
    obtain ⟨key, hkey⟩ := PeerStorage.mem_getPeers_iff.mp hr
    rw [hold r (hvalid.once r (hvalid.peers key r hkey).2)]
  have hcalls : (PeerProcessor.startHandshake env self ip peer options).underWayInSubnet env net =
      self.underWayInSubnet env net + if UnderWay ⟨.accept ip, self.heap.size, phase⟩ &&
        (PeerProcessor.startHandshake env self ip peer options).CountsFor env net self.heap.size
        then 1 else 0 := by
    have hsplit : (PeerProcessor.startHandshake env self ip peer options).calls =
        self.calls ++ [⟨.accept ip, self.heap.size, phase⟩] := by rw [heq]
    simp only [underWayInSubnet, hsplit, List.countP_append, List.countP_singleton]
    congr 1
    apply List.countP_congr
    intro call hcall
    rw [hold _ (hvalid.calls call hcall)]
  rw [hstored, hcalls]
  split
  · rename_i hcounted
    simp only [CountsFor, heq, peerAt, Heap.read_alloc_self, Peer.new, Bool.and_eq_true,
      Bool.not_eq_true', beq_iff_eq] at hcounted
    obtain ⟨-, hseed, hnet⟩ := hcounted
    have hnet : network env.lib ip = .ok net := by
      cases hcidr : network env.lib ip with
      | error e => simp [hcidr, Except.toOption] at hnet
      | ok found => simpa [hcidr, Except.toOption] using hnet
    exact hroom hadm hseed net hnet
  · exact h net

theorem Reserved.startPing {since : Nat} {r : PeerRef} {force : Bool} (h : Reserved env self) :
    Reserved env (self.startPing env (.cleanse since) r force) := by
  intro net
  have hcalls : (self.startPing env (.cleanse since) r force).underWayInSubnet env net =
      self.underWayInSubnet env net := by
    rw [startPing_eq]
    simp [underWayInSubnet, UnderWay, CountsFor, peerAt]
  rw [hcalls]
  exact h net

/-- A settled ping is under way still or has failed. -/
theorem Reserved.settle {i : Nat} {outcome : Except JsError JsValue} (h : Reserved env self)
    (hstep : self.emitSettles i outcome = some next) : Reserved env next := by
  obtain ⟨caller, r, t, settled, reply, phase, hcall, heffect, rfl⟩ := emitSettles_cases hstep
  intro net
  have hcounts : CountsFor env { self with
        heap := self.heap.write r { self.heap.read r with peer := settled }
        calls := self.calls.set i ⟨caller, r, phase⟩
        trace := self.trace ++ reply.toList.map (Event.answered r) } net = self.CountsFor env net :=
    funext fun q => countsFor_congr
      (Heap.field_write PeerObject.admission rfl)
      (Heap.field_write (fun object : PeerObject => object.peer.ip) heffect.keeps.1)
  simp only [storedInSubnet, underWayInSubnet, hcounts]
  have hfewer : (self.calls.set i ⟨caller, r, phase⟩).countP
        (fun call => UnderWay call && self.CountsFor env net call.peer) ≤
      self.underWayInSubnet env net := by
    apply countP_set_le hcall
    intro hcounted
    cases caller with
    | accept ip => simpa [UnderWay] using (Bool.and_eq_true_iff.mp hcounted).2
    | cleanse since => simp [UnderWay] at hcounted
  have hnet := h net
  rw [storedInSubnet] at hnet
  omega

theorem Reserved.eraseIdx {i : Nat} (h : Reserved env self) :
    Reserved env { self with calls := self.calls.eraseIdx i } := by
  intro net
  have hfewer : (self.calls.eraseIdx i).countP
      (fun call => UnderWay call && self.CountsFor env net call.peer) ≤ self.underWayInSubnet env net :=
    (List.eraseIdx_sublist _ _).countP_le
  have hnet := h net
  change self.storedInSubnet env net + (self.calls.eraseIdx i).countP
    (fun call => UnderWay call && self.CountsFor env net call.peer) ≤ _
  omega

/-- A handshake that succeeds turns its own place into a stored peer. -/
theorem Reserved.stored {i : Nat} {candidate : String} {r : PeerRef} (hvalid : Valid self)
    (h : Reserved env self) (hcall : self.calls[i]? = some ⟨.accept candidate, r, .returned⟩) :
    Reserved env (self.afterAccept i candidate r) := by
  intro net
  obtain ⟨hip, -⟩ := hvalid.accept _ (List.mem_of_getElem? hcall) candidate rfl
  have habsent := hvalid.disjoint candidate (hvalid.hasPendingPeer_of_call hcall)
  have hplace : self.underWayInSubnet env net = (self.calls.eraseIdx i).countP
        (fun call => UnderWay call && self.CountsFor env net call.peer) +
      if self.CountsFor env net r then 1 else 0 := countP_eraseIdx hcall
  have hpeers : ((self.storage.setPeer (self.peerAt r).ip r).forgetPendingPeer candidate).getPeers =
      self.storage.getPeers ++ [r] := by
    rw [hip]
    exact PeerStorage.getPeers_setPeer_of_getPeer_eq_none habsent
  have hstored : ((self.storage.setPeer (self.peerAt r).ip r).forgetPendingPeer candidate).getPeers.countP
        (self.CountsFor env net) =
      self.storedInSubnet env net + if self.CountsFor env net r then 1 else 0 := by
    rw [hpeers, List.countP_append, List.countP_singleton]
    rfl
  have hnet := h net
  change ((self.storage.setPeer (self.peerAt r).ip r).forgetPendingPeer candidate).getPeers.countP
      (self.CountsFor env net) +
    (self.calls.eraseIdx i).countP
      (fun call => UnderWay call && self.CountsFor env net call.peer) ≤ _
  omega

theorem reserved_preserves (env : Env) : Preserves env (roomForHandshakes env) Valid (Reserved env) where
  quiet _ _ _ h hquiet := h.quiet hquiet
  forgetPeer _ ip _ h := h.forgetPeer ip
  handshake _ _ _ _ hvalid h hadm hroom := h.startHandshake hvalid hadm hroom
  cleanse _ _ _ _ h _ := h.startPing
  settle _ _ _ _ _ h _ hstep := h.settle hstep
  stored _ _ _ _ hvalid h _ hcall := h.stored hvalid hcall
  refused _ _ _ _ _ _ h _ := fun net => h.eraseIdx net
  finished _ _ _ _ _ _ h _ := h.eraseIdx

/-- If a handshake with a candidate that is not a seed is only ever started
    while its network has room besides the handshakes already under way, then no
    state of the run stores more peers of a network than the limit. -/
theorem subnet_cap_of_room (env : Env) (actions : List Action)
    (hroom : (machine env).Along (roomForHandshakes env).Meets new actions) :
    (machine env).Always (SubnetCap env) new actions := by
  have hpreserves := (valid_preserves env _).and (reserved_preserves env)
  have halways := hpreserves.always ⟨valid_new, reserved_new⟩ hroom
  exact halways.imp fun _ h => h.2.subnetCap

/-- Handshakes with candidates of two networks are under way at once, a seed of
    the first network joins them, and the second network has room again once its
    peer is gone. -/
theorem subnet_cap_two_networks :
    (machine sampleEnv).Always (SubnetCap sampleEnv) new
      [.validateAndAcceptPeer (sampleCandidate "10.0.0.1") {},
        .validateAndAcceptPeer (sampleCandidate "10.0.1.1") {},
        .emitSettles 1 (.ok sampleResponse), .emitSettles 0 (.ok sampleResponse), .resume 1,
        .validateAndAcceptPeer (sampleCandidate "10.0.0.2") { seed := true }, .resume 0,
        .emitSettles 0 (.ok sampleResponse), .resume 0, .disconnectPeer "10.0.1.1",
        .validateAndAcceptPeer (sampleCandidate "10.0.1.1") {}] := by
  apply subnet_cap_of_room sampleEnv
  refine Machine.along_cons_of_step (fun ip hip _ _ net hnet => ?_) rfl ?_
  · cases hip
    cases hnet
    decide
  refine Machine.along_cons_of_step (fun ip hip _ _ net hnet => ?_) rfl ?_
  · cases hip
    cases hnet
    decide
  refine Machine.along_cons_of_step trivial rfl (Machine.along_cons_of_step trivial rfl
    (Machine.along_cons_of_step trivial rfl ?_))
  -- a seed needs no room
  refine Machine.along_cons_of_step (fun _ _ _ hseed => by cases hseed) rfl ?_
  refine Machine.along_cons_of_step trivial rfl (Machine.along_cons_of_step trivial rfl
    (Machine.along_cons_of_step trivial rfl (Machine.along_cons_of_step trivial rfl ?_)))
  refine Machine.along_cons_of_step (fun ip hip _ _ net hnet => ?_) rfl trivial
  cases hip
  cases hnet
  decide

/-- Two candidates of one network pass the check before either is stored. -/
theorem concurrent_handshakes_exceed_cap :
    ¬ (machine sampleEnv).Always (SubnetCap sampleEnv) new
      [.validateAndAcceptPeer (sampleCandidate "10.0.0.1") {},
        .validateAndAcceptPeer (sampleCandidate "10.0.0.2") {},
        .emitSettles 0 (.ok sampleResponse), .emitSettles 1 (.ok sampleResponse),
        .resume 0, .resume 0] := by
  intro halways
  have hlast := halways.last rfl
  have hcap := hlast "10.0.0.0"
  revert hcap
  decide

end anisa.p2p.Subsystem
