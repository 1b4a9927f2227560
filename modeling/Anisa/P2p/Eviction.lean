import Anisa.P2p.Handshake

open anisa.js anisa.transition
open anisa.p2p.PeerProcessor (Admissible startHandshake)

namespace anisa.p2p.Subsystem

open scoped List

variable {env : Env} {self next : Subsystem}

/-- The object that holds the ip of a peer under a background ping: the peer
    itself, unless its ip was forgotten while the ping was running; an object
    that has taken its place was stored after that. -/
structure Replaced (s : Subsystem) (since : Nat) (r : PeerRef) : Prop where
  forgotten : s.storage.getPeer (s.peerAt r).ip ≠ some r →
    .forgot (s.peerAt r).ip ∈ s.trace.drop since
  successor : ∀ q, s.storage.getPeer (s.peerAt r).ip = some q → q ≠ r →
    [.forgot (s.peerAt r).ip, .stored q] <+ s.trace.drop since

/-- What the pings of `cleansePeers` know of the storage they started from. -/
def Snapshot (s : Subsystem) : Prop :=
  ∀ call ∈ s.calls, ∀ since, call.caller = .cleanse since →
    since ≤ s.trace.length ∧ s.Replaced since call.peer

theorem snapshot_new : Snapshot new := by
  intro call hcall
  cases hcall

theorem drop_prefix_drop {since : Nat} (htrace : self.trace <+: next.trace) :
    self.trace.drop since <+: next.trace.drop since := by
  obtain ⟨events, hevents⟩ := htrace
  rw [← hevents, List.drop_append]
  exact List.prefix_append _ _

/-- Nothing changes for a ping where the ip of its peer keeps its object. -/
theorem Replaced.mono {since : Nat} {r : PeerRef} (h : self.Replaced since r)
    (hip : (next.peerAt r).ip = (self.peerAt r).ip)
    (hpeer : next.storage.getPeer (self.peerAt r).ip = self.storage.getPeer (self.peerAt r).ip)
    (htrace : self.trace <+: next.trace) : next.Replaced since r where
  forgotten hne := by
    rw [hip, hpeer] at hne
    rw [hip]
    exact (drop_prefix_drop htrace).subset (h.forgotten hne)
  successor q hq hne := by
    rw [hip, hpeer] at hq
    rw [hip]
    exact (h.successor q hq hne).trans (drop_prefix_drop htrace).sublist

theorem Snapshot.quiet (h : Snapshot self) (hquiet : Quiet env.lib self next) : Snapshot next := by
  intro call hcall since hcaller
  rw [hquiet.calls] at hcall
  obtain ⟨hsince, hreplaced⟩ := h call hcall since hcaller
  have htrace : self.trace <+: next.trace := hquiet.trace ▸ List.prefix_refl _
  refine ⟨Nat.le_trans hsince htrace.length_le, ?_⟩
  exact hreplaced.mono (peerAt_ip_of_quiet hquiet _) (by rw [hquiet.storage]) htrace

/-- Forgetting an ip is noted, and leaves no object in its place. -/
theorem Snapshot.forgetPeer (h : Snapshot self) (ip : String) : Snapshot (self.forgetPeer ip) := by
  intro call hcall since hcaller
  obtain ⟨hsince, hreplaced⟩ := h call hcall since hcaller
  refine ⟨Nat.le_trans hsince (by simp [Subsystem.forgetPeer]), ?_⟩
  by_cases hip : (self.peerAt call.peer).ip = ip
  · have hnone : (self.forgetPeer ip).storage.getPeer (self.peerAt call.peer).ip = none := by
      simp [Subsystem.forgetPeer, PeerStorage.getPeer_forgetPeer, hip]
    refine ⟨?_, ?_⟩
    · intro _
      change .forgot (self.peerAt call.peer).ip ∈ (self.trace ++ [Event.forgot ip]).drop since
      rw [List.drop_append_of_le_length hsince, hip]
      exact List.mem_append_right _ (List.mem_singleton.mpr rfl)
    · intro q hq
      have hq : (self.forgetPeer ip).storage.getPeer (self.peerAt call.peer).ip = some q := hq
      rw [hnone] at hq
      cases hq
  · refine hreplaced.mono rfl ?_ (List.prefix_append _ _)
    simp [Subsystem.forgetPeer, PeerStorage.getPeer_forgetPeer, hip]

theorem Snapshot.startHandshake {ip : String} {peer : JsValue} {options : AcceptNewPeerOptions}
    (hvalid : Valid self) (h : Snapshot self) :
    Snapshot (startHandshake env self ip peer options) := by
  obtain ⟨phase, connector, -, heq⟩ := startHandshake_eq env self ip peer options
  rw [heq]
  intro call hcall since hcaller
  obtain hcall | rfl := mem_append_singleton.mp hcall
  · obtain ⟨hsince, hreplaced⟩ := h call hcall since hcaller
    refine ⟨Nat.le_trans hsince (by simp), hreplaced.mono ?_ rfl (List.prefix_append _ _)⟩
    simp only [peerAt, Heap.read_alloc_of_lt (hvalid.calls call hcall)]
  · cases hcaller

/-- A ping starts with its peer stored. -/
theorem Snapshot.startPing {r : PeerRef} {force : Bool} (hvalid : Valid self) (h : Snapshot self)
    (hr : r ∈ self.storage.getPeers) :
    Snapshot (self.startPing env (.cleanse self.trace.length) r force) := by
  rw [startPing_eq]
  intro call hcall since hcaller
  obtain hcall | rfl := mem_append_singleton.mp hcall
  · obtain ⟨hsince, hreplaced⟩ := h call hcall since hcaller
    exact ⟨hsince, hreplaced.mono rfl rfl (List.prefix_refl _)⟩
  · obtain rfl : self.trace.length = since := by simpa using hcaller
    obtain ⟨ip, hip⟩ := PeerStorage.mem_getPeers_iff.mp hr
    obtain rfl := (hvalid.peers ip r hip).1
    refine ⟨Nat.le_refl _, fun hne => absurd hip hne, fun q hq hne => ?_⟩
    have hsame : some r = some q := hip.symm.trans hq
    exact absurd (Option.some.inj hsame).symm hne

theorem Snapshot.settle {i : Nat} {outcome : Except JsError JsValue} (h : Snapshot self)
    (hstep : self.emitSettles i outcome = some next) : Snapshot next := by
  obtain ⟨caller, r, t, settled, reply, phase, hcall, heffect, rfl⟩ := emitSettles_cases hstep
  have hold : ∀ q since, since ≤ self.trace.length → self.Replaced since q →
      since ≤ (self.trace ++ reply.toList.map (Event.answered r)).length ∧
        Replaced { self with
          heap := self.heap.write r { self.heap.read r with peer := settled }
          calls := self.calls.set i ⟨caller, r, phase⟩
          trace := self.trace ++ reply.toList.map (Event.answered r) } since q := by
    intro q since hsince hreplaced
    refine ⟨Nat.le_trans hsince (by simp), hreplaced.mono ?_ rfl (List.prefix_append _ _)⟩
    exact Heap.field_write (fun object : PeerObject => object.peer.ip) heffect.keeps.1
  intro call hset since hcaller
  obtain hmem | rfl := List.mem_or_eq_of_mem_set hset
  · obtain ⟨hsince, hreplaced⟩ := h call hmem since hcaller
    exact hold _ since hsince hreplaced
  · obtain ⟨hsince, hreplaced⟩ := h ⟨caller, r, .awaiting t⟩ (List.mem_of_getElem? hcall) since hcaller
    exact hold r since hsince hreplaced

theorem Snapshot.eraseIdx {i : Nat} {storage : PeerStorage} (h : Snapshot self)
    (hpeers : storage.peers = self.storage.peers) :
    Snapshot { self with calls := self.calls.eraseIdx i, storage } := by
  intro call hmem since hcaller
  obtain ⟨hsince, hreplaced⟩ := h call (List.mem_of_mem_eraseIdx hmem) since hcaller
  refine ⟨hsince, hreplaced.mono rfl ?_ (List.prefix_refl _)⟩
  simp only [PeerStorage.getPeer, hpeers]

/-- An object is stored under an ip that had none, so where a background ping
    of that ip is running, the ip was forgotten. -/
theorem Snapshot.stored {i : Nat} {candidate : String} {r : PeerRef} (hvalid : Valid self)
    (h : Snapshot self) (hcall : self.calls[i]? = some ⟨.accept candidate, r, .returned⟩) :
    Snapshot (self.afterAccept i candidate r) := by
  have hip := (hvalid.accept _ (List.mem_of_getElem? hcall) candidate rfl).1
  have habsent := hvalid.disjoint candidate (hvalid.hasPendingPeer_of_call hcall)
  intro call hmem since hcaller
  obtain ⟨hsince, hreplaced⟩ := h call (List.mem_of_mem_eraseIdx hmem) since hcaller
  refine ⟨Nat.le_trans hsince (by simp), ?_⟩
  by_cases hkey : (self.peerAt call.peer).ip = candidate
  · have hforgot := hreplaced.forgotten (by rw [hkey, habsent]; simp)
    have hprefix : self.trace.drop since <+: (self.trace ++ [Event.stored r]).drop since := by
      rw [List.drop_append]
      exact List.prefix_append _ _
    refine ⟨fun _ => hprefix.subset hforgot, fun q hq hne => ?_⟩
    rw [PeerStorage.getPeer_forgetPendingPeer, PeerStorage.getPeer_setPeer, hip] at hq
    have hq : some r = some q := (if_pos hkey).symm.trans hq
    obtain rfl : r = q := Option.some.inj hq
    change _ <+ (self.trace ++ [Event.stored r]).drop since
    rw [List.drop_append_of_le_length hsince]
    exact (List.singleton_sublist.mpr hforgot).append (List.Sublist.refl [Event.stored r])
  · refine hreplaced.mono rfl ?_ (List.prefix_append _ _)
    rw [PeerStorage.getPeer_forgetPendingPeer, PeerStorage.getPeer_setPeer, hip, if_neg hkey]

theorem snapshot_preserves (env : Env) (G : Guard) : Preserves env G Valid Snapshot where
  quiet _ _ _ h hquiet := h.quiet hquiet
  forgetPeer _ ip _ h := h.forgetPeer ip
  handshake _ _ _ _ hvalid h _ _ := h.startHandshake hvalid
  cleanse _ _ _ hvalid h hr := h.startPing hvalid hr
  settle _ _ _ _ _ h _ hstep := h.settle hstep
  stored _ _ _ _ hvalid h _ hcall := h.stored hvalid hcall
  refused _ _ _ _ _ _ h _ := h.eraseIdx rfl
  finished _ _ _ _ _ _ h _ := h.eraseIdx rfl

/-- In every state of every run, the failure of a background ping removes at
    most what is stored under the ip of the pinged peer, and ends at most the
    connection of that ip. What it removes is the pinged peer, unless that ip
    was forgotten, and an object stored for it, while the ping was running. -/
theorem failed_ping_evicts_own_ip (env : Env) (actions : List Action) :
    (machine env).Always (fun s => ∀ i since r e t,
      s.calls[i]? = some ⟨.cleanse since, r, .threw e⟩ → s.resume i = some t →
      (∀ ip, ip ≠ (s.peerAt r).ip → t.storage.getPeer ip = s.storage.getPeer ip ∧
        t.connector.connection ip = s.connector.connection ip) ∧
      ∀ q, s.storage.getPeer (s.peerAt r).ip = some q → q = r ∨
        [.forgot (s.peerAt r).ip, .stored q] <+ s.trace.drop since) new actions := by
  have hpreserves := (valid_preserves env .any).and (snapshot_preserves env .any)
  refine (hpreserves.always_any ⟨valid_new, snapshot_new⟩).imp ?_
  rintro s ⟨-, h⟩ i since r e t hcall hresume
  refine ⟨?_, ?_⟩
  · intro ip hip
    simp only [Subsystem.resume, hcall, Option.some.injEq] at hresume
    subst hresume
    refine ⟨?_, ?_⟩
    · exact PeerStorage.getPeer_forgetPeer.trans (if_neg hip)
    · exact PeerConnector.connection_disconnect.trans (if_neg hip)
  · intro q hq
    by_cases hsame : q = r
    · exact .inl hsame
    · exact .inr ((h _ (List.mem_of_getElem? hcall) since rfl).2.successor q hq hsame)

/-- The failing ping of a peer that was forgotten evicts the object admitted
    for its ip since. -/
theorem stale_failure_evicts_successor :
    ¬ (machine sampleEnv).Always (fun s => ∀ i since r e t,
      s.calls[i]? = some ⟨.cleanse since, r, .threw e⟩ → s.resume i = some t →
      ∀ ip q, s.storage.getPeer ip = some q → q ≠ r → t.storage.getPeer ip = some q ∧
        t.connector.connection ip = s.connector.connection ip) new
      [.validateAndAcceptPeer (sampleCandidate "10.0.0.1") {}, .emitSettles 0 (.ok sampleResponse),
        .resume 0, .cleansePeers true 0 ⟨id, .refl⟩, .populateSeedPeers,
        .emitSettles 1 (.ok sampleResponse), .resume 1, .emitSettles 0 (.error .typeError)] := by
  intro halways
  have hlast := halways.last rfl
  obtain ⟨hkept, -⟩ := hlast 0 _ 0 _ _ rfl rfl "10.0.0.1" 1 (by decide) (by decide)
  revert hkept
  decide

end anisa.p2p.Subsystem
