import Anisa.P2p.Handshake

open anisa.js anisa.transition
open anisa.p2p.PeerProcessor (Admissible Whitelisted startHandshake)

namespace anisa.p2p.Subsystem

open scoped List

variable {env : Env} {self next : Subsystem}

/-- The object was constructed by `acceptNewPeer`, and later its own request
    was answered with a truthy reply. -/
def Answered (s : Subsystem) (r : PeerRef) : Prop :=
  ∃ reply, reply.truthy = true ∧ [.constructed r, .answered r reply] <+ s.trace

/-- The object was constructed, then answered, then stored. -/
def Verified (s : Subsystem) (r : PeerRef) : Prop :=
  ∃ reply, reply.truthy = true ∧ [.constructed r, .answered r reply, .stored r] <+ s.trace

/-- Every ip in the maps matches the whitelist, every stored object was
    verified. An object under handshake was constructed, and answered by the
    time its ping has returned. -/
structure Provenance (env : Env) (s : Subsystem) : Prop where
  pending : ∀ ip, s.storage.hasPendingPeer ip = true → Whitelisted env ip = true
  peers : ∀ ip r, s.storage.getPeer ip = some r → Whitelisted env ip = true ∧ s.Verified r
  constructed : ∀ call ∈ s.calls, ∀ ip, call.caller = .accept ip →
    .constructed call.peer ∈ s.trace
  returned : ∀ call ∈ s.calls, ∀ ip, call.caller = .accept ip → call.phase = .returned →
    s.Answered call.peer

theorem provenance_new : Provenance env new := by
  constructor <;> simp [new, PeerStorage.new, PeerStorage.hasPendingPeer, PeerStorage.getPeer]

theorem Answered.mono {r : PeerRef} (h : self.Answered r) (htrace : self.trace <+: next.trace) :
    next.Answered r := by
  obtain ⟨reply, htruthy, hsub⟩ := h
  exact ⟨reply, htruthy, hsub.trans htrace.sublist⟩

theorem Verified.mono {r : PeerRef} (h : self.Verified r) (htrace : self.trace <+: next.trace) :
    next.Verified r := by
  obtain ⟨reply, htruthy, hsub⟩ := h
  exact ⟨reply, htruthy, hsub.trans htrace.sublist⟩

/-- What is forgotten, finished or merely recorded leaves the provenance of the
    rest as it was. -/
theorem Provenance.mono (h : Provenance env self)
    (hpending : ∀ ip, next.storage.hasPendingPeer ip = true → self.storage.hasPendingPeer ip = true)
    (hpeers : ∀ ip r, next.storage.getPeer ip = some r → self.storage.getPeer ip = some r)
    (hcalls : next.calls ⊆ self.calls) (htrace : self.trace <+: next.trace) :
    Provenance env next where
  pending ip hip := h.pending ip (hpending ip hip)
  peers ip r hr := (h.peers ip r (hpeers ip r hr)).imp_right fun hverified => hverified.mono htrace
  constructed call hcall ip hip := htrace.subset (h.constructed call (hcalls hcall) ip hip)
  returned call hcall ip hip hphase := (h.returned call (hcalls hcall) ip hip hphase).mono htrace

theorem Provenance.quiet (h : Provenance env self) (hquiet : Quiet env.lib self next) :
    Provenance env next := by
  apply h.mono
  · simp [hquiet.storage]
  · simp [hquiet.storage]
  · simp [hquiet.calls]
  · simp [hquiet.trace]

theorem Provenance.forgetPeer (h : Provenance env self) (ip : String) :
    Provenance env (self.forgetPeer ip) := by
  refine h.mono (fun _ => id) (fun key r hr => ?_) (fun _ => id) (List.prefix_append _ _)
  simp only [Subsystem.forgetPeer, PeerStorage.getPeer_forgetPeer] at hr
  split at hr
  · cases hr
  · exact hr

theorem Provenance.startHandshake {ip : String} {peer : JsValue} {options : AcceptNewPeerOptions}
    (h : Provenance env self) (hadm : Admissible env self ip options) :
    Provenance env (startHandshake env self ip peer options) := by
  obtain ⟨phase, connector, hphase, heq⟩ := startHandshake_eq env self ip peer options
  rw [heq]
  constructor
  · intro key hkey
    rw [PeerStorage.hasPendingPeer_setPendingPeer] at hkey
    by_cases hip : key = ip
    · rw [hip]
      exact hadm.whitelisted
    · exact h.pending key (by simpa [hip] using hkey)
  · intro key r hr
    exact (h.peers key r hr).imp_right fun hverified => hverified.mono (List.prefix_append _ _)
  · intro call hcall key hkey
    obtain hcall | rfl := mem_append_singleton.mp hcall
    · exact mem_trace_append (h.constructed call hcall key hkey)
    · simp
  · intro call hcall key hkey hreturned
    obtain hcall | rfl := mem_append_singleton.mp hcall
    · exact (h.returned call hcall key hkey hreturned).mono (List.prefix_append _ _)
    · exact absurd hreturned hphase

theorem Provenance.startPing {since : Nat} {r : PeerRef} {force : Bool} (h : Provenance env self) :
    Provenance env (self.startPing env (.cleanse since) r force) := by
  rw [startPing_eq]
  constructor
  · exact h.pending
  · intro key q hq
    exact (h.peers key q hq).imp_right fun hverified => hverified.mono (List.prefix_refl _)
  · intro call hcall key hkey
    obtain hcall | rfl := mem_append_singleton.mp hcall
    · exact h.constructed call hcall key hkey
    · cases hkey
  · intro call hcall key hkey hreturned
    obtain hcall | rfl := mem_append_singleton.mp hcall
    · exact (h.returned call hcall key hkey hreturned).mono (List.prefix_refl _)
    · cases hkey

/-- A ping that returned has just recorded the reply it was answered with. -/
theorem Provenance.settle {i : Nat} {outcome : Except JsError JsValue} (h : Provenance env self)
    (hstep : self.emitSettles i outcome = some next) : Provenance env next := by
  obtain ⟨caller, r, t, settled, reply, phase, hcall, heffect, rfl⟩ := emitSettles_cases hstep
  have hold := List.mem_of_getElem? hcall
  constructor
  · exact h.pending
  · intro key q hq
    exact (h.peers key q hq).imp_right fun hverified => hverified.mono (List.prefix_append _ _)
  · intro call hset key hkey
    obtain hmem | rfl := List.mem_or_eq_of_mem_set hset
    · exact mem_trace_append (h.constructed call hmem key hkey)
    · exact mem_trace_append (h.constructed ⟨caller, r, .awaiting t⟩ hold key hkey)
  · intro call hset key hkey hreturned
    obtain hmem | rfl := List.mem_or_eq_of_mem_set hset
    · exact (h.returned call hmem key hkey hreturned).mono (List.prefix_append _ _)
    · obtain ⟨v, hreply, htruthy⟩ := heffect.returned hreturned
      obtain rfl : reply = some v := hreply
      have hconstructed : [.constructed r] <+ self.trace :=
        List.singleton_sublist.mpr (h.constructed _ hold key hkey)
      exact ⟨v, htruthy, hconstructed.append (List.Sublist.refl [Event.answered r v])⟩

theorem Provenance.forgetPendingPeer (h : Provenance env self) (i : Nat) (candidate : String) :
    Provenance env (self.afterRefuse i candidate) := by
  refine h.mono (fun ip hip => ?_) (fun _ _ => id) (fun _ => List.mem_of_mem_eraseIdx)
    (List.prefix_refl _)
  rw [PeerStorage.hasPendingPeer_forgetPendingPeer] at hip
  exact (Bool.and_eq_true_iff.mp hip).2

/-- Only a handshake that returned stores its object, which was answered. -/
theorem Provenance.stored {i : Nat} {candidate : String} {r : PeerRef} (hvalid : Valid self)
    (h : Provenance env self) (hcall : self.calls[i]? = some ⟨.accept candidate, r, .returned⟩) :
    Provenance env (self.afterAccept i candidate r) := by
  have hrest : (self.calls.eraseIdx i) ⊆ self.calls := fun _ => List.mem_of_mem_eraseIdx
  have hmem := List.mem_of_getElem? hcall
  have hip := (hvalid.accept _ hmem candidate rfl).1
  obtain ⟨reply, htruthy, hsub⟩ := h.returned _ hmem candidate rfl rfl
  constructor
  · intro key hkey
    exact (h.forgetPendingPeer i candidate).pending key hkey
  · intro key q hq
    rw [PeerStorage.getPeer_forgetPendingPeer, PeerStorage.getPeer_setPeer, hip] at hq
    split at hq
    · rename_i hkey
      obtain rfl : r = q := by simpa using hq
      have hlisted := h.pending candidate (hvalid.hasPendingPeer_of_call hcall)
      exact ⟨hkey ▸ hlisted, reply, htruthy, hsub.append (List.Sublist.refl [Event.stored r])⟩
    · exact (h.peers key q hq).imp_right fun hverified => hverified.mono (List.prefix_append _ _)
  · intro call hcall ip hip
    exact mem_trace_append (h.constructed call (hrest hcall) ip hip)
  · intro call hcall ip hip hreturned
    exact (h.returned call (hrest hcall) ip hip hreturned).mono (List.prefix_append _ _)

theorem provenance_preserves (env : Env) (G : Guard) : Preserves env G Valid (Provenance env) where
  quiet _ _ _ h hquiet := h.quiet hquiet
  forgetPeer _ ip _ h := h.forgetPeer ip
  handshake _ _ _ _ _ h hadm _ := h.startHandshake hadm
  cleanse _ _ _ _ h _ := h.startPing
  settle _ _ _ _ _ h _ hstep := h.settle hstep
  stored _ _ _ _ hvalid h _ hcall := h.stored hvalid hcall
  refused _ i candidate _ _ _ h _ := h.forgetPendingPeer i candidate
  finished _ _ _ _ _ _ h _ :=
    h.mono (fun _ => id) (fun _ _ => id) (fun _ => List.mem_of_mem_eraseIdx) (List.prefix_refl _)

/-- In every state of every run, each ip that is stored or pending matches some
    pattern of the configured whitelist, and each stored object was constructed
    by `acceptNewPeer` and then answered truthily before it was stored. -/
theorem admission_provenance (env : Env) (actions : List Action) :
    (machine env).Always (fun s =>
      (∀ ip, (s.storage.getPeer ip).isSome = true ∨ s.storage.hasPendingPeer ip = true →
        ∃ whitelist, env.options.whitelist = some whitelist ∧
          ∃ pattern ∈ whitelist, env.lib.isMatch ip pattern = true) ∧
      ∀ r ∈ s.storage.getPeers, ∃ reply, reply.truthy = true ∧
        [.constructed r, .answered r reply, .stored r] <+ s.trace) new actions := by
  have hpreserves := (valid_preserves env .any).and (provenance_preserves env .any)
  refine (hpreserves.always_any ⟨valid_new, provenance_new⟩).imp ?_
  rintro s ⟨-, h⟩
  refine ⟨fun ip hip => PeerProcessor.whitelisted_iff.mp ?_, fun r hr => ?_⟩
  · obtain hstored | hpending := hip
    · obtain ⟨r, hr⟩ := Option.isSome_iff_exists.mp hstored
      exact (h.peers ip r hr).1
    · exact h.pending ip hpending
  · obtain ⟨ip, hip⟩ := PeerStorage.mem_getPeers_iff.mp hr
    exact (h.peers ip r hip).2

end anisa.p2p.Subsystem
