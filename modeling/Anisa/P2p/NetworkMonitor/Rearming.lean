import Anisa.P2p.NetworkMonitor.DiscoveryRound
import Anisa.P2p.NetworkMonitor.Runs

open anisa.js anisa.transition
open anisa.p2p.PeerProcessor (Checkable CheckableIp SubnetsKnown offer)

namespace anisa.p2p.NetworkMonitor

variable {env : Env}

/-- Each seed, once it and those before it are forgotten, can be judged against
    the peers that are left. -/
def SeedsCheckable (env : Env) (s : Subsystem) : List IPeerData → Prop
  | [] => True
  | seed :: seeds =>
    CheckableIp env (s.forgetPeer seed.ip) seed.ip ∧ SeedsCheckable env (s.forgetPeer seed.ip) seeds

/-- `after` stores what `before` does, as the same objects, and has at least its
    ips pending. -/
structure Extends (before after : Subsystem) : Prop where
  peers : after.storage.peers = before.storage.peers
  stored : ∀ r ∈ before.storage.getPeers, after.peerAt r = before.peerAt r ∧ r < after.heap.size
  pending : ∀ ip, before.storage.hasPendingPeer ip = true → after.storage.hasPendingPeer ip = true

theorem Extends.checkableIp {before after : Subsystem} (h : Extends before after) {ip : String}
    (hcheckable : CheckableIp env before ip) : CheckableIp env after ip := by
  obtain hdiscovery | hpending | hlisted | hknown := hcheckable
  · exact .inl hdiscovery
  · exact .inr (.inl (h.pending ip hpending))
  · exact .inr (.inr (.inl hlisted))
  · refine .inr (.inr (.inr fun r hr => ?_))
    have hr : r ∈ before.storage.getPeers := by
      rwa [PeerStorage.getPeers, h.peers] at hr
    rw [(h.stored r hr).1]
    exact hknown r hr

theorem Extends.forgetPeer {before after : Subsystem} (h : Extends before after) (ip : String) :
    Extends (before.forgetPeer ip) (after.forgetPeer ip) where
  peers := by simp only [Subsystem.forgetPeer, PeerStorage.forgetPeer, h.peers]
  stored r hr := h.stored r (PeerStorage.getPeers_forgetPeer_sublist.subset hr)
  pending := h.pending

/-- Offering a candidate extends the state. -/
theorem Extends.offer {before after : Subsystem} (h : Extends before after) {peer : JsValue}
    {options : AcceptNewPeerOptions} : Extends before (offer env after peer options).1 := by
  have hoffered : Offered after (PeerProcessor.offer env after peer options).1 := offer_offered
  refine ⟨hoffered.peers.trans h.peers, fun r hr => ?_, fun ip hip => ?_⟩
  · obtain ⟨hsame, hlt⟩ := h.stored r hr
    exact ⟨(hoffered.peerAt r hlt).trans hsame, Nat.lt_of_lt_of_le hlt hoffered.size⟩
  · have hpending := h.pending ip hip
    obtain hsame | ⟨key, -, -, hstarted⟩ := PeerProcessor.offer_cases env after peer options
    · rw [hsame]
      exact hpending
    · obtain ⟨phase, connector, -, heq⟩ := Subsystem.startHandshake_eq env after key peer options
      rw [hstarted, heq]
      exact PeerStorage.hasPendingPeer_setPendingPeer.trans (by simp [hpending])

/-- Seeds that can be judged are not rejected. -/
theorem populateSeeds_eq_none {before after : Subsystem} {seeds : List IPeerData}
    (h : Extends before after) (hcheckable : SeedsCheckable env before seeds) :
    (populateSeeds env after seeds).2 = none := by
  induction seeds generalizing before after with
  | nil => rfl
  | cons seed seeds ih =>
    obtain ⟨hseed, hseeds⟩ := hcheckable
    have hforgot := h.forgetPeer seed.ip
    have hip : seed.toJsValue.get "ip" = .ok (.str seed.ip) := rfl
    refine promiseAll_cons_eq_none_iff.mpr ⟨?_, ih hforgot.offer hseeds⟩
    rw [PeerProcessor.offer_eq_none_iff, PeerProcessor.checkable_str hip]
    exact hforgot.checkableIp hseed

/-- The flag is up exactly while a timer is outstanding, there is never a second
    one, and without a run in progress there is one. -/
structure Armed (monitor : NetworkMonitor) : Prop where
  flag_iff : monitor.nextUpdateNetworkStatusScheduled = true ↔ monitor.timers ≠ []
  sole : monitor.timers.length ≤ 1
  idle : monitor.runs = [] → monitor.timers.length = 1

/-- The step takes a run past its `try` while too few peers are stored. -/
def FallsBack (env : Env) (monitor : NetworkMonitor) (a : Action) : Prop :=
  hasMinimumPeers env monitor.subsystem = false ∧
    match a with
    | .discovered i => ∃ outcome, monitor.runs[i]? = some (.discovered outcome) ∧
        cleansesAfter outcome = false
    | .cleansed i => monitor.runs[i]? = some .cleansing
    | _ => False

/-- A step that falls back to the seeds finds them such that each can be
    judged. -/
def SeedsAnswer (env : Env) (monitor : NetworkMonitor) (a : Action) : Prop :=
  FallsBack env monitor a →
    ∀ seeds, env.options.peersList = some seeds → SeedsCheckable env monitor.subsystem seeds

/-- The flag and the timers agree, whatever is in progress. -/
structure Consistent (monitor : NetworkMonitor) : Prop where
  flag_iff : monitor.nextUpdateNetworkStatusScheduled = true ↔ monitor.timers ≠ []
  sole : monitor.timers.length ≤ 1

/-- No run awaits seeds of which one was rejected. -/
def NoneRejected (runs : List Run) : Prop :=
  ∀ rejection first last, .seeding rejection first last ∈ runs → rejection = none

/-- What a step that meets the condition keeps. -/
structure Sustained (monitor : NetworkMonitor) : Prop where
  armed : Armed monitor
  seeds : NoneRejected monitor.runs

variable {self next : NetworkMonitor} {i : Nat}

theorem consistent_of_unarmed (hflag : self.nextUpdateNetworkStatusScheduled = false)
    (htimers : self.timers = []) : Consistent self :=
  ⟨by simp [hflag, htimers], by simp [htimers]⟩

theorem Armed.consistent (h : Armed self) : Consistent self := ⟨h.flag_iff, h.sole⟩

/-- While a run is in progress, it will see to the next timer. -/
theorem Consistent.armed (h : Consistent self) (hruns : self.runs ≠ []) : Armed self :=
  ⟨h.flag_iff, h.sole, fun hnil => absurd hnil hruns⟩

theorem NoneRejected.eraseIdx {runs : List Run} (h : NoneRejected runs) :
    NoneRejected (runs.eraseIdx i) :=
  fun rejection first last hmem => h rejection first last (List.mem_of_mem_eraseIdx hmem)

theorem NoneRejected.set {runs : List Run} {run : Run} (h : NoneRejected runs)
    (hrun : ∀ rejection first last, .seeding rejection first last = run → rejection = none) :
    NoneRejected (runs.set i run) := by
  intro rejection first last hmem
  obtain hold | hnew := List.mem_or_eq_of_mem_set hmem
  · exact h rejection first last hold
  · exact hrun rejection first last hnew

theorem set_ne_nil {runs : List Run} {old run : Run} (h : runs[i]? = some old) : runs.set i run ≠ [] := by
  obtain ⟨hlt, -⟩ := List.getElem?_eq_some_iff.mp h
  apply List.ne_nil_of_length_pos
  rw [List.length_set]
  omega

/-- `scheduleUpdateNetworkStatus` leaves exactly one timer. -/
theorem Consistent.schedule (h : Consistent self) (seconds : Nat) :
    Armed (self.scheduleUpdateNetworkStatus seconds) := by
  have hsole := h.sole
  unfold scheduleUpdateNetworkStatus
  by_cases hflag : self.nextUpdateNetworkStatusScheduled
  · rw [if_pos hflag]
    have hpos := List.length_pos_iff.mpr (h.flag_iff.mp hflag)
    exact ⟨h.flag_iff, hsole, fun _ => by omega⟩
  · rw [if_neg hflag]
    have hnil : self.timers = [] := by
      by_contra hne
      exact hflag (h.flag_iff.mpr hne)
    simp only [hnil, List.nil_append]
    exact ⟨by simp, by simp, fun _ => rfl⟩

theorem runs_scheduleUpdateNetworkStatus (seconds : Nat) :
    (self.scheduleUpdateNetworkStatus seconds).runs = self.runs := by
  unfold scheduleUpdateNetworkStatus
  split <;> rfl

/-- A run that ends arms a timer. -/
theorem Sustained.ends (h : Sustained self) (seconds : Nat) :
    Sustained ({ self with runs := self.runs.eraseIdx i }.scheduleUpdateNetworkStatus seconds) where
  armed := by
    have hrest : Consistent { self with runs := self.runs.eraseIdx i } :=
      ⟨h.armed.flag_iff, h.armed.sole⟩
    exact hrest.schedule seconds
  seeds := by
    rw [runs_scheduleUpdateNetworkStatus]
    exact h.seeds.eraseIdx

/-- A run that goes on waits for something else. -/
theorem Sustained.moves (h : Sustained self) {old run : Run} (hold : self.runs[i]? = some old)
    (hrun : ∀ rejection first last, .seeding rejection first last = run → rejection = none)
    (subsystem : Subsystem) : Sustained { self with subsystem, runs := self.runs.set i run } where
  armed := Consistent.armed ⟨h.armed.flag_iff, h.armed.sole⟩ (set_ne_nil hold)
  seeds := h.seeds.set hrun

/-- A call of `updateNetworkStatus` that is not turned away is in progress. -/
theorem Consistent.starts (h : Consistent self) (hseeds : NoneRejected self.runs)
    (htest : env.options.nodeEnvTest = false) (hstart : env.options.networkStart = false)
    (hdiscovery : env.options.disableDiscovery = false) (initialRun : Bool)
    (shuffle : Shuffle PeerRef) : Sustained (self.updateNetworkStatus env initialRun shuffle) := by
  simp only [updateNetworkStatus, htest, hstart, hdiscovery, Bool.false_eq_true, if_false]
  refine ⟨Consistent.armed ⟨h.flag_iff, h.sole⟩ (by simp), fun rejection first last hmem => ?_⟩
  obtain hold | hnew := List.mem_append.mp hmem
  · exact hseeds rejection first last hold
  · simp at hnew

theorem extends_self {s : Subsystem} (hvalid : Subsystem.Valid s) : Extends s s := by
  refine ⟨rfl, fun r hr => ⟨rfl, ?_⟩, fun _ => id⟩
  obtain ⟨ip, hip⟩ := PeerStorage.mem_getPeers_iff.mp hr
  exact hvalid.once r (hvalid.peers ip r hip).2

/-- A run past its `try` ends, or waits for seeds of which none is rejected. -/
theorem Sustained.afterDiscovery (h : Sustained self) (hvalid : Subsystem.Valid self.subsystem)
    {old : Run} (hold : self.runs[i]? = some old)
    (hseeds : hasMinimumPeers env self.subsystem = false →
      ∀ seeds, env.options.peersList = some seeds → SeedsCheckable env self.subsystem seeds)
    (hstep : self.afterDiscovery env i = some next) : Sustained next := by
  unfold NetworkMonitor.afterDiscovery at hstep
  split at hstep
  · cases hstep
    exact h.ends 600
  · rename_i hminimum
    obtain ⟨⟨subsystem, rejection⟩, hpopulate, rfl⟩ := Option.map_eq_some_iff.mp hstep
    obtain ⟨seeds, hlist, hpair⟩ := Option.map_eq_some_iff.mp hpopulate
    have hcheckable := hseeds (by simpa using hminimum) seeds hlist
    have hnone := populateSeeds_eq_none (extends_self hvalid) hcheckable
    rw [hpair] at hnone
    refine h.moves hold (fun rejection' first last heq => ?_) subsystem
    obtain ⟨rfl, -⟩ := Run.seeding.inj heq
    exact hnone

theorem Sustained.step (h : Sustained self) (hvalid : Subsystem.Valid self.subsystem)
    (htest : env.options.nodeEnvTest = false) (hstart : env.options.networkStart = false)
    (hdiscovery : env.options.disableDiscovery = false) {a : Action} (hseeds : SeedsAnswer env self a)
    (hstep : step env self a = some next) : Sustained next := by
  cases a with
  | subsystem action =>
    obtain ⟨after, -, rfl⟩ := Option.map_eq_some_iff.mp hstep
    exact ⟨⟨h.armed.flag_iff, h.armed.sole, h.armed.idle⟩, h.seeds⟩
  | updateNetworkStatus initialRun shuffle =>
    cases hstep
    exact h.armed.consistent.starts h.seeds htest hstart hdiscovery initialRun shuffle
  | replied i lists shuffle =>
    simp only [NetworkMonitor.step] at hstep
    split at hstep
    · rename_i pingAll ownPeers queried hrun
      split at hstep
      · split at hstep <;>
        · cases hstep
          exact h.moves hrun (fun _ _ _ heq => by cases heq) _
      · cases hstep
    · cases hstep
  | accepted i shuffle =>
    simp only [NetworkMonitor.step] at hstep
    split at hstep
    · rename_i pingAll first last hrun
      split at hstep
      · cases hstep
        exact h.moves hrun (fun _ _ _ heq => by cases heq) _
      · cases hstep
    · cases hstep
  | discovered i =>
    simp only [NetworkMonitor.step] at hstep
    split at hstep
    · rename_i outcome hrun
      split at hstep
      · cases hstep
        exact h.moves hrun (fun _ _ _ heq => by cases heq) _
      · rename_i hcleanses
        exact h.afterDiscovery hvalid hrun
          (fun hminimum => hseeds ⟨hminimum, outcome, hrun, by simpa using hcleanses⟩) hstep
    · cases hstep
  | cleansed i =>
    simp only [NetworkMonitor.step] at hstep
    split at hstep
    · rename_i hrun
      exact h.afterDiscovery hvalid hrun (fun hminimum => hseeds ⟨hminimum, hrun⟩) hstep
    · cases hstep
  | seeded i =>
    simp only [NetworkMonitor.step] at hstep
    split at hstep
    · rename_i e first last hrun
      have hnone := h.seeds (some e) first last (List.mem_of_getElem? hrun)
      cases hnone
    · split at hstep
      · cases hstep
        exact h.ends 60
      · cases hstep
    · cases hstep
  | expires i shuffle =>
    simp only [NetworkMonitor.step] at hstep
    split at hstep
    · rename_i seconds htimer
      cases hstep
      let expired : NetworkMonitor := { self with
        nextUpdateNetworkStatusScheduled := false
        timers := self.timers.eraseIdx i }
      have hexpired : expired.timers = [] := by
        obtain ⟨hlt, -⟩ := List.getElem?_eq_some_iff.mp htimer
        have hsole := h.armed.sole
        refine List.eq_nil_of_length_eq_zero ?_
        rw [List.length_eraseIdx_of_lt hlt]
        omega
      have hunarmed : Consistent expired := consistent_of_unarmed rfl hexpired
      exact hunarmed.starts h.seeds htest hstart hdiscovery false shuffle
    · cases hstep

/-- From the first `updateNetworkStatus` on, the loop keeps exactly one timer
    outstanding or a run in progress that will start it, provided that each time
    a run falls back to the seeds the subnet check is defined on every seed and
    on what is stored: `populateSeedPeers` is awaited outside the `try`. -/
theorem discovery_loop_armed (env : Env) (htest : env.options.nodeEnvTest = false)
    (hstart : env.options.networkStart = false) (hdiscovery : env.options.disableDiscovery = false)
    (before : List Subsystem.Action) (subsystem : Subsystem)
    (hbefore : (Subsystem.machine env).run Subsystem.new before = some subsystem)
    (initialRun : Bool) (shuffle : Shuffle PeerRef) (actions : List Action)
    (hseeds : (machine env).Along (SeedsAnswer env)
      ((idle subsystem).updateNetworkStatus env initialRun shuffle) actions) :
    (machine env).Always Armed ((idle subsystem).updateNetworkStatus env initialRun shuffle) actions := by
  have hreaches := reaches_updateNetworkStatus env (idle subsystem) initialRun shuffle
  have hkeeps (s : Subsystem) (a : Subsystem.Action) (t : Subsystem) (hs : Subsystem.Valid s)
      (hstep : (Subsystem.machine env).step s a = some t) : Subsystem.Valid t :=
    (Subsystem.valid_preserves env .any).step_any hs hstep
  have hvalid : Subsystem.Valid ((idle subsystem).updateNetworkStatus env initialRun shuffle).subsystem :=
    hreaches.invariant hkeeps (Machine.run_invariant hkeeps Subsystem.valid_new hbefore)
  have hidle : Consistent (idle subsystem) := consistent_of_unarmed rfl rfl
  have hfirst := hidle.starts (fun _ _ _ hmem => by cases hmem) htest hstart hdiscovery initialRun shuffle
  refine (Machine.always_of_along (P := fun m => Subsystem.Valid m.subsystem ∧ Sustained m)
    (fun s a t hs hanswer hstep => ?_) ⟨hvalid, hfirst⟩ hseeds).imp fun _ h => h.2.armed
  exact ⟨((simulation env).step s a t trivial hstep).invariant hkeeps hs.1,
    hs.2.step hs.1 htest hstart hdiscovery hanswer hstep⟩

/-- Two runs of the loop over two stored peers, of which one refuses to answer.
    Each falls back to the seed: it is forgotten, and comes back the first time. -/
theorem discovery_loop_armed_through_two_runs :
    ∃ subsystem, (Subsystem.machine sampleEnv).run Subsystem.new twoAdmissions = some subsystem ∧
      (machine sampleEnv).Always Armed
        ((idle subsystem).updateNetworkStatus sampleEnv true default)
        [.replied 0 [⟨.ok (.arr [sampleCandidate "10.0.0.2"]), default⟩, ⟨.error .typeError, default⟩] default,
          .accepted 0 default, .discovered 0, .cleansed 0,
          .subsystem (.emitSettles 2 (.ok sampleResponse)), .subsystem (.resume 2), .seeded 0,
          .expires 0 default, .replied 0 [⟨.error .typeError, default⟩, ⟨.ok .null, default⟩] default,
          .accepted 0 default, .discovered 0, .cleansed 0,
          .subsystem (.emitSettles 4 (.error .typeError)), .subsystem (.resume 4), .seeded 0] := by
  have hanswer (m : NetworkMonitor) (a : Action) (hips : ∀ r ∈ m.subsystem.storage.getPeers,
      (m.subsystem.peerAt r).ip = "10.0.0.1" ∨ (m.subsystem.peerAt r).ip = "10.0.1.1") :
      SeedsAnswer sampleEnv m a := by
    intro _ seeds hlist
    cases hlist
    refine ⟨.inr (.inr (.inr fun r hr => ⟨?_, _, rfl⟩)), trivial⟩
    have hsame : (m.subsystem.forgetPeer "10.0.0.1").peerAt r = m.subsystem.peerAt r := rfl
    obtain hip | hip := hips r (PeerStorage.getPeers_forgetPeer_sublist.subset hr) <;>
    · rw [hsame, hip]
      exact ⟨_, rfl⟩
  refine ⟨_, rfl, discovery_loop_armed sampleEnv rfl rfl rfl twoAdmissions _ rfl true default _ ?_⟩
  repeat refine Machine.along_cons_of_step (hanswer _ _ (by decide +kernel)) rfl ?_
  trivial

/-- One stored peer whose ip is a host name makes the check of the seed throw,
    and the run that falls back to it ends without a timer. -/
theorem unresolved_ip_ends_discovery_loop :
    ∃ subsystem, (Subsystem.machine sampleEnv).run Subsystem.new
        [.validateAndAcceptPeer (sampleCandidate "peer.example") {},
          .emitSettles 0 (.ok sampleResponse), .resume 0] = some subsystem ∧
      ¬ (machine sampleEnv).Always Armed
        ((idle subsystem).updateNetworkStatus sampleEnv true default)
        [.replied 0 [⟨.error .typeError, default⟩] default, .accepted 0 default, .discovered 0,
          .cleansed 0, .seeded 0] := by
  refine ⟨_, rfl, fun halways => ?_⟩
  have hlast := halways.last rfl
  have hidle := hlast.idle (by rfl)
  revert hidle
  decide

end anisa.p2p.NetworkMonitor
