import Anisa.P2p.NetworkMonitor

open anisa.js anisa.transition

namespace anisa.p2p

namespace NetworkMonitor

/-- Where an `updateNetworkStatus` in progress waits: for the replies of the
    queried peers; for the handshakes of the candidates, which are those of the
    objects from `first` up to `last`; to learn what `discoverPeers` came to;
    for `cleansePeers`; for the handshakes of the seeds. -/
inductive Run where
  | discovering (pingAll : Bool) (ownPeers queried : Nat)
  | accepting (pingAll : Bool) (first last : PeerRef)
  | discovered (outcome : Except JsError Bool)
  | cleansing
  | seeding (rejection : Option JsError) (first last : PeerRef)

end NetworkMonitor

/-- The monitor between synchronous pieces of code. `timers` are the delays, in
    seconds, that `scheduleUpdateNetworkStatus` waits for. -/
structure NetworkMonitor where
  subsystem : Subsystem
  coldStart : Bool
  nextUpdateNetworkStatusScheduled : Bool
  timers : List Nat
  runs : List NetworkMonitor.Run

namespace NetworkMonitor

def maxQueriedPeers : Nat := 8

/-- `updateNetworkStatus` up to its first await, the requests of
    `discoverPeers`. -/
def updateNetworkStatus (env : Env) (self : NetworkMonitor) (initialRun : Bool)
    (shuffle : Shuffle PeerRef) : NetworkMonitor :=
  if env.options.nodeEnvTest then self
  else if env.options.networkStart then { self with coldStart := true }
  else if env.options.disableDiscovery then self
  else
    let ownPeers := self.subsystem.storage.getPeers
    let queried := (shuffle.apply ownPeers).take maxQueriedPeers
    { self with
      subsystem := queried.foldl (fun subsystem peer => subsystem.emit env peer) self.subsystem
      runs := self.runs ++ [.discovering initialRun ownPeers.length queried.length] }

def scheduleUpdateNetworkStatus (self : NetworkMonitor) (nextUpdateInSeconds : Nat) : NetworkMonitor :=
  if self.nextUpdateNetworkStatusScheduled then self
  else { self with
    nextUpdateNetworkStatusScheduled := true
    timers := self.timers ++ [nextUpdateInSeconds] }

/-- The `i`-th run after its `try`: enough peers, or the seeds. -/
def afterDiscovery (env : Env) (self : NetworkMonitor) (i : Nat) : Option NetworkMonitor :=
  if hasMinimumPeers env self.subsystem then
    some ({ self with runs := self.runs.eraseIdx i }.scheduleUpdateNetworkStatus 600)
  else
    (populateSeedPeers env self.subsystem).map fun (subsystem, rejection) =>
      { self with
        subsystem
        runs := self.runs.set i (.seeding rejection self.subsystem.heap.size subsystem.heap.size) }

/-- No handshake of an object from `first` up to `last` is under way. -/
def handshakesOver (self : Subsystem) (first last : PeerRef) : Bool :=
  self.calls.all fun call =>
    match call.caller with
    | .accept _ => decide (call.peer < first) || decide (last ≤ call.peer)
    | .cleanse _ => true

/-- A call of `updateNetworkStatus`, the continuations of its `i`-th run after
    each of its awaits, the expiry of the `i`-th timer, and everything else that
    goes on in the subsystem. -/
inductive Action where
  | subsystem (action : Subsystem.Action)
  | updateNetworkStatus (initialRun : Bool) (shuffle : Shuffle PeerRef)
  | replied (i : Nat) (lists : List PeerList) (shuffle : Shuffle PeerRef)
  | accepted (i : Nat) (shuffle : Shuffle PeerRef)
  | discovered (i : Nat)
  | cleansed (i : Nat)
  | seeded (i : Nat)
  | expires (i : Nat) (shuffle : Shuffle PeerRef)

def step (env : Env) (self : NetworkMonitor) : Action → Option NetworkMonitor
  | .subsystem action => (self.subsystem.step env action).map fun subsystem => { self with subsystem }
  | .updateNetworkStatus initialRun shuffle => some (self.updateNetworkStatus env initialRun shuffle)
  | .replied i lists shuffle =>
    match self.runs[i]? with
    | some (.discovering pingAll ownPeers queried) =>
      if lists.length = queried then
        let round := discoverPeers env self.subsystem pingAll ownPeers lists
        match round.outcome with
        | .ok true =>
          some { self with
            subsystem := round.subsystem
            runs := self.runs.set i
              (.accepting pingAll self.subsystem.heap.size round.subsystem.heap.size) }
        | .ok false =>
          some { self with
            subsystem := pingPeerPorts round.subsystem false shuffle
            runs := self.runs.set i (.discovered (.ok false)) }
        | .error e =>
          some { self with
            subsystem := round.subsystem
            runs := self.runs.set i (.discovered (.error e)) }
      else none
    | _ => none
  | .accepted i shuffle =>
    match self.runs[i]? with
    | some (.accepting pingAll first last) =>
      if handshakesOver self.subsystem first last then
        some { self with
          subsystem := pingPeerPorts self.subsystem pingAll shuffle
          runs := self.runs.set i (.discovered (.ok true)) }
      else none
    | _ => none
  | .discovered i =>
    match self.runs[i]? with
    | some (.discovered outcome) =>
      if cleansesAfter outcome then
        some { self with
          subsystem := cleansePeers env self.subsystem false 0 default
          runs := self.runs.set i .cleansing }
      else self.afterDiscovery env i
    | _ => none
  -- `Promise.race` lets a run go on at any time, with pings still under way
  | .cleansed i =>
    match self.runs[i]? with
    | some .cleansing => self.afterDiscovery env i
    | _ => none
  | .seeded i =>
    match self.runs[i]? with
    | some (.seeding (some _) _ _) => some { self with runs := self.runs.eraseIdx i }
    | some (.seeding none first last) =>
      if handshakesOver self.subsystem first last then
        some ({ self with runs := self.runs.eraseIdx i }.scheduleUpdateNetworkStatus 60)
      else none
    | _ => none
  | .expires i shuffle =>
    match self.timers[i]? with
    | some _ =>
      some ({ self with
        nextUpdateNetworkStatusScheduled := false
        timers := self.timers.eraseIdx i }.updateNetworkStatus env false shuffle)
    | none => none

def machine (env : Env) : Machine NetworkMonitor Action := ⟨step env⟩

/-- A monitor before its first `updateNetworkStatus`. -/
def idle (subsystem : Subsystem) : NetworkMonitor := ⟨subsystem, false, false, [], []⟩

variable {env : Env} {self next : NetworkMonitor}

theorem reaches_acceptPeers (env : Env) (s : Subsystem) (peers : List JsValue) :
    (Subsystem.machine env).Reaches s (acceptPeers env s peers).1 :=
  promiseAll_invariant
    (fun _ ht peer => ht.trans (Machine.Reaches.step (a := .validateAndAcceptPeer peer {}) rfl)) (.refl s)

theorem reaches_discoverPeers (env : Env) (s : Subsystem) (pingAll : Bool) (ownPeers : Nat) (lists : List PeerList) :
    (Subsystem.machine env).Reaches s (discoverPeers env s pingAll ownPeers lists).subsystem := by
  unfold discoverPeers
  split
  · exact .refl s
  · rename_i theirs htheirs
    have haccept := reaches_acceptPeers env s theirs
    split
    · split <;>
      · rename_i after hpair
        rw [hpair] at haccept
        exact haccept
    · exact .refl s

theorem reaches_pingPeerPorts (env : Env) (s : Subsystem) (pingAll : Bool) (shuffle : Shuffle PeerRef) :
    (Subsystem.machine env).Reaches s (pingPeerPorts s pingAll shuffle) :=
  Machine.Reaches.foldl Subsystem.Action.pingPorts (fun _ _ => rfl) _

theorem reaches_updateNetworkStatus (env : Env) (self : NetworkMonitor) (initialRun : Bool)
    (shuffle : Shuffle PeerRef) :
    (Subsystem.machine env).Reaches self.subsystem (self.updateNetworkStatus env initialRun shuffle).subsystem := by
  unfold updateNetworkStatus
  repeat' split
  · exact .refl _
  · exact .refl _
  · exact .refl _
  · exact Machine.Reaches.foldl Subsystem.Action.emit (fun _ _ => rfl) _

theorem scheduleUpdateNetworkStatus_subsystem (self : NetworkMonitor) (seconds : Nat) :
    (self.scheduleUpdateNetworkStatus seconds).subsystem = self.subsystem := by
  unfold scheduleUpdateNetworkStatus
  split <;> rfl

theorem reaches_afterDiscovery {i : Nat} (h : self.afterDiscovery env i = some next) :
    (Subsystem.machine env).Reaches self.subsystem next.subsystem := by
  unfold afterDiscovery at h
  split at h
  · cases h
    rw [scheduleUpdateNetworkStatus_subsystem]
    exact .refl _
  · obtain ⟨⟨subsystem, rejection⟩, hseeds, rfl⟩ := Option.map_eq_some_iff.mp h
    have hstep : Subsystem.step env self.subsystem .populateSeedPeers = some subsystem := by
      simp [Subsystem.step, hseeds]
    exact Machine.Reaches.step (a := .populateSeedPeers) hstep

/-- The monitor drives the subsystem only in ways the subsystem's own machine
    allows, so what holds of all runs of that machine holds here. -/
theorem simulation (env : Env) :
    Simulation (machine env) (Subsystem.machine env) (fun _ => True) NetworkMonitor.subsystem where
  invariant _ _ _ _ _ := trivial
  step self a next _ h := by
    cases a with
    | subsystem action =>
      obtain ⟨after, hafter, rfl⟩ := Option.map_eq_some_iff.mp h
      exact .step hafter
    | updateNetworkStatus initialRun shuffle =>
      cases h
      exact reaches_updateNetworkStatus env self initialRun shuffle
    | replied i lists shuffle =>
      simp only [machine, step] at h
      split at h
      · rename_i pingAll ownPeers queried hrun
        have hround := reaches_discoverPeers env self.subsystem pingAll ownPeers lists
        split at h
        · split at h <;> cases h
          · exact hround
          · exact hround.trans (reaches_pingPeerPorts _ _ _ _)
          · exact hround
        · cases h
      · cases h
    | accepted i shuffle =>
      simp only [machine, step] at h
      split at h
      · split at h
        · cases h
          exact reaches_pingPeerPorts _ _ _ _
        · cases h
      · cases h
    | discovered i =>
      simp only [machine, step] at h
      split at h
      · split at h
        · cases h
          exact Machine.Reaches.step (a := .cleansePeers false 0 default) rfl
        · exact reaches_afterDiscovery h
      · cases h
    | cleansed i =>
      simp only [machine, step] at h
      split at h
      · exact reaches_afterDiscovery h
      · cases h
    | seeded i =>
      simp only [machine, step] at h
      split at h
      · cases h
        exact .refl _
      · split at h
        · cases h
          rw [scheduleUpdateNetworkStatus_subsystem]
          exact .refl _
        · cases h
      · cases h
    | expires i shuffle =>
      simp only [machine, step] at h
      split at h
      · cases h
        let expired : NetworkMonitor := { self with
          nextUpdateNetworkStatusScheduled := false
          timers := self.timers.eraseIdx i }
        exact reaches_updateNetworkStatus env expired false shuffle
      · cases h

end NetworkMonitor

end anisa.p2p
