import Anisa.P2p.PeerCommunicator

open anisa.js anisa.transition

namespace anisa.p2p

/-- One peer with its HEAD requests, and the plugin tables it has had since the
    last `pingPorts`, if one has run. -/
structure PluginPorts where
  peer : Peer
  checks : List PortCheck
  tables : Option (List JsValue)

namespace PluginPorts

/-- A reply to a ping, a call of `pingPorts`, or the end of a HEAD request. -/
inductive Action where
  | replied (now : Int) (pingResponse : JsValue)
  | pingPorts
  | portSettles (check : Nat) (responded : Bool)

def new (options : Options) (ip : String) : PluginPorts := ⟨.new options ip, [], none⟩

/-- A reply that is not accepted leaves the plugins as they are, and a
    `pingPorts` that throws has not run. -/
def step (self : PluginPorts) : Action → Option PluginPorts
  | .replied now pingResponse =>
    match PeerCommunicator.receiveStatus self.peer now pingResponse with
    | (peer, .ok _) => some { self with peer, tables := self.tables.map (peer.plugins :: ·) }
    | (peer, .error _) => some { self with peer }
  | .pingPorts =>
    match PeerCommunicator.pingPorts 0 self.peer with
    | .ok (peer, checks) => some ⟨peer, self.checks ++ checks, some [peer.plugins]⟩
    | .error _ => some self
  | .portSettles i responded =>
    self.checks[i]?.map fun check =>
      { self with
        peer := PeerCommunicator.portSettles check self.peer responded
        checks := self.checks.eraseIdx i }

def machine : Machine PluginPorts Action := ⟨step⟩

/-- The plugin is advertised under the name. -/
def Advertises (plugins : JsValue) (name : String) (plugin : JsValue) : Prop :=
  ∃ entries, plugins.ownEntries = .ok entries ∧ (name, plugin) ∈ entries

/-- The port is -1, or the one advertised under the name. -/
def Advertised (plugins : JsValue) (name : String) (port : JsValue) : Prop :=
  port = .num (-1) ∨ ∃ plugin, Advertises plugins name plugin ∧ plugin.get "port" = .ok port

/-- The ports that are published agree with the plugins. -/
structure Agrees (peer : Peer) : Prop where
  keys : ∀ name, name ∈ peer.ports.keys ↔ ∃ plugin, Advertises peer.plugins name plugin
  ports : ∀ name port, peer.ports.get name = some port → Advertised peer.plugins name port

/-- No HEAD request is outstanding; none is made for a plugin that is nullish. -/
def Quiet (s : PluginPorts) : Prop := ∀ check ∈ s.checks, check.plugin.nullish = true

/-- A `pingPorts` has run since the plugins last changed. -/
def Pinged (s : PluginPorts) : Prop :=
  ∃ tables, s.tables = some tables ∧ ∀ table ∈ tables, table = s.peer.plugins

def Agreement (s : PluginPorts) : Prop := Pinged s → Quiet s → Agrees s.peer

/-- However many of the outstanding requests fail first, what is published then
    agrees with the plugins. -/
def Settled (s : PluginPorts) : Prop :=
  ∀ failures t, (∀ a ∈ failures, ∃ i, a = .portSettles i false) → machine.run s failures = some t →
    Agreement t

/-- A `pingPorts` finds every published name still advertised and none that is
    `__proto__`, and a HEAD request that is answered after a `pingPorts` finds its
    port still advertised. -/
def InTime (s : PluginPorts) : Action → Prop
  | .replied _ _ => True
  | .pingPorts => s.peer.plugins.nullish = false →
      (∀ name ∈ s.peer.ports.keys, ∃ plugin, Advertises s.peer.plugins name plugin) ∧
        ¬ ∃ plugin, Advertises s.peer.plugins "__proto__" plugin
  | .portSettles i responded => Pinged s → responded = true → ∀ check, s.checks[i]? = some check →
      check.name = "__proto__" ∨ ∀ port, check.plugin.get "port" = .ok port →
        Advertised s.peer.plugins check.name port

variable {s t : PluginPorts} {ports : OrderedMap String JsValue} {name key : String} {port : JsValue}
  {peer : Peer}

theorem get_setPort : (PeerCommunicator.setPort ports key port).get name =
    if name = key ∧ key ≠ "__proto__" then some port else ports.get name := by
  unfold PeerCommunicator.setPort
  by_cases hproto : key = "__proto__"
  · simp [hproto]
  · rw [if_neg hproto, OrderedMap.get_set]
    simp [hproto]

/-- After the loop of `pingPorts` the names of the table are at -1. -/
theorem get_setPorts (entries : List (String × JsValue)) :
    (entries.foldl (fun ports e => PeerCommunicator.setPort ports e.1 (.num (-1))) ports).get name =
      if name ∈ entries.map Prod.fst ∧ name ≠ "__proto__" then some (.num (-1)) else ports.get name := by
  induction entries generalizing ports with
  | nil => simp
  | cons entry entries ih =>
    rw [List.foldl_cons, ih, get_setPort]
    by_cases hname : name = entry.1
    · subst hname
      by_cases hproto : entry.1 = "__proto__" <;> simp [hproto]
    · simp only [List.map_cons, List.mem_cons, hname, false_or, false_and, if_false]

theorem mem_keys_setPort : name ∈ (PeerCommunicator.setPort ports key port).keys ↔
    name = key ∧ key ≠ "__proto__" ∨ name ∈ ports.keys := by
  unfold PeerCommunicator.setPort
  by_cases hproto : key = "__proto__"
  · simp [hproto]
  · rw [if_neg hproto, OrderedMap.mem_keys_set]
    simp [hproto]

theorem mem_keys_setPorts (entries : List (String × JsValue)) :
    name ∈ (entries.foldl (fun ports e => PeerCommunicator.setPort ports e.1 (.num (-1))) ports).keys ↔
      name ∈ entries.map Prod.fst ∧ name ≠ "__proto__" ∨ name ∈ ports.keys := by
  rw [OrderedMap.mem_keys_iff, OrderedMap.mem_keys_iff, get_setPorts]
  by_cases hname : name ∈ entries.map Prod.fst ∧ name ≠ "__proto__"
  · exact ⟨fun _ => .inl hname, fun _ => ⟨_, if_pos hname⟩⟩
  · rw [if_neg hname, or_iff_right hname]

/-- Names with a request outstanding have been published, and `__proto__` never
    is. The last of the tables is the one the peer has. -/
structure Published (s : PluginPorts) : Prop where
  checks : ∀ check ∈ s.checks, check.name = "__proto__" ∨ check.name ∈ s.peer.ports.keys
  proto : "__proto__" ∉ s.peer.ports.keys
  tables : ∀ tables, s.tables = some tables → s.peer.plugins ∈ tables

/-- A reply leaves the ports as they are, and where it is not accepted the
    plugins too. -/
theorem receiveStatus_keeps (peer : Peer) (now : Int) (pingResponse : JsValue) :
    (PeerCommunicator.receiveStatus peer now pingResponse).1.ports = peer.ports ∧
      ∀ e, (PeerCommunicator.receiveStatus peer now pingResponse).2 = .error e →
        (PeerCommunicator.receiveStatus peer now pingResponse).1.plugins = peer.plugins := by
  unfold PeerCommunicator.receiveStatus
  split
  · exact ⟨rfl, fun _ _ => rfl⟩
  · split
    · exact ⟨rfl, fun _ _ => rfl⟩
    · split
      · exact ⟨rfl, fun _ _ => rfl⟩
      · exact ⟨rfl, fun e h => by cases h⟩

/-- What a step can do. -/
theorem step_cases {a : Action} (h : machine.step s a = some t) :
    (∃ now reply, a = .replied now reply ∧ t.peer.ports = s.peer.ports ∧ t.checks = s.checks ∧
      (t.tables = s.tables.map (t.peer.plugins :: ·) ∨
        t.tables = s.tables ∧ t.peer.plugins = s.peer.plugins)) ∨
    (a = .pingPorts ∧ s.peer.plugins.nullish = true ∧ t = s) ∨
    (∃ entries, a = .pingPorts ∧ s.peer.plugins.ownEntries = .ok entries ∧
      t = ⟨{ s.peer with
          ports := entries.foldl (fun ports e => PeerCommunicator.setPort ports e.1 (.num (-1)))
            s.peer.ports },
        s.checks ++ entries.map fun e => ⟨0, e.1, e.2⟩, some [s.peer.plugins]⟩) ∨
    (∃ i responded check, a = .portSettles i responded ∧ s.checks[i]? = some check ∧
      t = { s with
        peer := PeerCommunicator.portSettles check s.peer responded
        checks := s.checks.eraseIdx i }) := by
  cases a with
  | replied now reply =>
    refine .inl ⟨now, reply, rfl, ?_⟩
    obtain ⟨hports, hplugins⟩ := receiveStatus_keeps s.peer now reply
    simp only [machine, step] at h
    split at h
    · next peer result heq =>
      obtain rfl := Option.some.inj h
      rw [heq] at hports
      exact ⟨hports, rfl, .inl rfl⟩
    · next peer e heq =>
      obtain rfl := Option.some.inj h
      rw [heq] at hports hplugins
      exact ⟨hports, rfl, .inr ⟨rfl, hplugins e rfl⟩⟩
  | pingPorts =>
    refine .inr ?_
    simp only [machine, step, PeerCommunicator.pingPorts] at h
    cases hentries : s.peer.plugins.ownEntries with
    | error e =>
      rw [hentries] at h
      refine .inl ⟨rfl, ?_, (Option.some.inj h).symm⟩
      by_contra hnullish
      obtain ⟨entries, hok⟩ := JsValue.ownEntries_ok_iff.mpr (by simpa using hnullish)
      rw [hentries] at hok
      cases hok
    | ok entries =>
      rw [hentries] at h
      exact .inr (.inl ⟨entries, rfl, rfl, (Option.some.inj h).symm⟩)
  | portSettles i responded =>
    refine .inr (.inr (.inr ⟨i, responded, ?_⟩))
    simp only [machine, step, Option.map_eq_some_iff] at h
    obtain ⟨check, hcheck, rfl⟩ := h
    exact ⟨check, rfl, hcheck, rfl⟩

/-- What the end of a HEAD request does to the ports. -/
theorem portSettles_cases (check : PortCheck) (peer : Peer) (responded : Bool) :
    PeerCommunicator.portSettles check peer responded = peer ∧
        (responded = false ∨ ∃ e, check.plugin.get "port" = .error e) ∨
      ∃ port, responded = true ∧ check.plugin.get "port" = .ok port ∧
        PeerCommunicator.portSettles check peer responded =
          { peer with ports := PeerCommunicator.setPort peer.ports check.name port } := by
  unfold PeerCommunicator.portSettles
  cases hport : check.plugin.get "port" with
  | error e => exact .inl ⟨rfl, .inr ⟨e, rfl⟩⟩
  | ok port =>
    cases responded with
    | false => exact .inl ⟨rfl, .inl rfl⟩
    | true => exact .inr ⟨port, rfl, rfl, rfl⟩

theorem Published.new (options : Options) (ip : String) : Published (.new options ip) where
  checks := by simp [PluginPorts.new]
  proto := by simp [PluginPorts.new, Peer.new, OrderedMap.keys, OrderedMap.empty]
  tables := by simp [PluginPorts.new]

theorem Published.step {a : Action} (hs : Published s) (h : machine.step s a = some t) : Published t := by
  obtain ⟨now, reply, -, hports, hchecks, htables⟩ | ⟨-, -, rfl⟩ | ⟨entries, -, -, rfl⟩ |
    ⟨i, responded, check, -, hcheck, rfl⟩ := step_cases h
  · refine ⟨?_, ?_, fun tables htable => ?_⟩
    · rw [hchecks, hports]
      exact hs.checks
    · rw [hports]
      exact hs.proto
    · obtain hlater | ⟨hsame, hplugins⟩ := htables
      · rw [hlater] at htable
        obtain ⟨earlier, -, rfl⟩ := Option.map_eq_some_iff.mp htable
        exact List.mem_cons_self ..
      · rw [hplugins]
        exact hs.tables tables (hsame ▸ htable)
  · exact hs
  · refine ⟨?_, ?_, ?_⟩
    · intro check hmem
      rw [mem_keys_setPorts]
      obtain hold | hnew := List.mem_append.mp hmem
      · exact (hs.checks check hold).imp_right .inr
      · obtain ⟨entry, hentry, rfl⟩ := List.mem_map.mp hnew
        by_cases hproto : entry.1 = "__proto__"
        · exact .inl hproto
        · exact .inr (.inl ⟨List.mem_map_of_mem hentry, hproto⟩)
    · rw [mem_keys_setPorts]
      rintro (⟨-, hproto⟩ | hold)
      · exact hproto rfl
      · exact hs.proto hold
    · intro tables htable
      obtain rfl := Option.some.inj htable
      exact List.mem_cons_self ..
  · have hmem := List.mem_of_getElem? hcheck
    obtain ⟨hpeer, -⟩ | ⟨port, -, -, hpeer⟩ := portSettles_cases check s.peer responded
    · rw [hpeer]
      exact ⟨fun c hc => hs.checks c (List.mem_of_mem_eraseIdx hc), hs.proto, hs.tables⟩
    · rw [hpeer]
      refine ⟨?_, ?_, hs.tables⟩
      · intro c hc
        rw [mem_keys_setPort]
        exact (hs.checks c (List.mem_of_mem_eraseIdx hc)).imp_right .inr
      · rw [mem_keys_setPort]
        rintro (⟨hname, hproto⟩ | hold)
        · exact hproto hname.symm
        · exact hs.proto hold

/-- The table agrees with the plugins whenever a `pingPorts` has run since they
    changed, whatever is outstanding. -/
def AgreesOnceChecked (s : PluginPorts) : Prop := Pinged s → Agrees s.peer

/-- After a reply a `pingPorts` has run since the plugins changed only if the
    reply left them as they were and one had run before. -/
theorem pinged_of_replied (hs : Published s) (hpinged : Pinged t)
    (htables : t.tables = s.tables.map (t.peer.plugins :: ·) ∨
      t.tables = s.tables ∧ t.peer.plugins = s.peer.plugins) :
    Pinged s ∧ t.peer.plugins = s.peer.plugins := by
  obtain ⟨tables, htable, hall⟩ := hpinged
  obtain hlater | ⟨hsame, hplugins⟩ := htables
  · rw [hlater] at htable
    obtain ⟨earlier, hearlier, rfl⟩ := Option.map_eq_some_iff.mp htable
    have hplugins := hall _ (List.mem_cons_of_mem _ (hs.tables earlier hearlier))
    exact ⟨⟨earlier, hearlier, fun table h => hplugins ▸ hall table (List.mem_cons_of_mem _ h)⟩,
      hplugins.symm⟩
  · exact ⟨⟨tables, hsame ▸ htable, hplugins ▸ hall⟩, hplugins⟩

theorem advertised_iff_mem {entries : List (String × JsValue)} (h : peer.plugins.ownEntries = .ok entries) :
    (∃ plugin, Advertises peer.plugins name plugin) ↔ name ∈ entries.map Prod.fst := by
  simp [Advertises, h]

/-- A `pingPorts` leaves a table that agrees exactly if it finds no other name
    published and every name publishable. -/
theorem agrees_setPorts_iff {entries : List (String × JsValue)} (h : peer.plugins.ownEntries = .ok entries)
    (hproto : "__proto__" ∉ peer.ports.keys) :
    Agrees { peer with
        ports := entries.foldl (fun ports e => PeerCommunicator.setPort ports e.1 (.num (-1))) peer.ports } ↔
      (∀ name ∈ peer.ports.keys, ∃ plugin, Advertises peer.plugins name plugin) ∧
        ¬ ∃ plugin, Advertises peer.plugins "__proto__" plugin := by
  refine ⟨?_, ?_⟩
  · intro hagrees
    refine ⟨fun name hname => (hagrees.keys name).mp ((mem_keys_setPorts entries).mpr (.inr hname)), ?_⟩
    intro hadvertised
    obtain ⟨-, hne⟩ | hold := (mem_keys_setPorts entries).mp ((hagrees.keys "__proto__").mpr hadvertised)
    · exact hne rfl
    · exact hproto hold
  · rintro ⟨hkeys, hnone⟩
    have hname {name : String} (hadvertised : ∃ plugin, Advertises peer.plugins name plugin) :
        name ∈ entries.map Prod.fst ∧ name ≠ "__proto__" := by
      refine ⟨(advertised_iff_mem h).mp hadvertised, ?_⟩
      rintro rfl
      exact hnone hadvertised
    refine ⟨fun name => ?_, fun name port hport => ?_⟩
    · rw [mem_keys_setPorts]
      refine ⟨?_, fun hadvertised => .inl (hname hadvertised)⟩
      rintro (⟨hmem, -⟩ | hold)
      · exact (advertised_iff_mem h).mpr hmem
      · exact hkeys name hold
    · rw [get_setPorts] at hport
      by_cases hlisted : name ∈ entries.map Prod.fst ∧ name ≠ "__proto__"
      · rw [if_pos hlisted] at hport
        exact .inl (Option.some.inj hport).symm
      · rw [if_neg hlisted] at hport
        exact absurd (hname (hkeys name (OrderedMap.mem_keys_iff.mpr ⟨port, hport⟩))) hlisted

/-- Writing a published name's port keeps a table that agrees exactly if that
    port is advertised. -/
theorem agrees_setPort_iff (hagrees : Agrees peer) (hkey : key ∈ peer.ports.keys)
    (hproto : key ≠ "__proto__") :
    Agrees { peer with ports := PeerCommunicator.setPort peer.ports key port } ↔
      Advertised peer.plugins key port := by
  have hget : (PeerCommunicator.setPort peer.ports key port).get key = some port := by
    rw [get_setPort, if_pos ⟨rfl, hproto⟩]
  refine ⟨fun hafter => hafter.ports key port hget,
    fun hport => ⟨fun name => ?_, fun name port' hport' => ?_⟩⟩
  · rw [mem_keys_setPort, ← hagrees.keys]
    refine ⟨?_, .inr⟩
    rintro (⟨rfl, -⟩ | hold)
    · exact hkey
    · exact hold
  · rw [get_setPort] at hport'
    by_cases hname : name = key
    · rw [if_pos ⟨hname, hproto⟩] at hport'
      obtain rfl := Option.some.inj hport'
      rw [hname]
      exact hport
    · rw [if_neg fun h => hname h.1] at hport'
      exact hagrees.ports name port' hport'

/-- The end of a HEAD request keeps the agreement exactly if the port it was made
    for is still advertised, where it is written. -/
theorem agreesOnceChecked_portSettles {i : Nat} {responded : Bool} {check : PortCheck} (hpublished : Published s)
    (hs : AgreesOnceChecked s) (hcheck : s.checks[i]? = some check) :
    AgreesOnceChecked { s with
        peer := PeerCommunicator.portSettles check s.peer responded
        checks := s.checks.eraseIdx i } ↔ InTime s (.portSettles i responded) := by
  obtain ⟨hpeer, hkept⟩ | ⟨port, rfl, hport, hpeer⟩ := portSettles_cases check s.peer responded
  · rw [hpeer]
    refine ⟨fun _ _ hresponded c hc => ?_, fun _ => hs⟩
    obtain rfl := Option.some.inj (hcheck.symm.trans hc)
    obtain rfl | ⟨e, hunreadable⟩ := hkept
    · cases hresponded
    · exact .inr fun port hport => by rw [hunreadable] at hport; cases hport
  · have hone : InTime s (.portSettles i true) ↔ (Pinged s →
        check.name = "__proto__" ∨ Advertised s.peer.plugins check.name port) := by
      simp [InTime, hcheck, hport]
    rw [hone, hpeer]
    obtain hproto | hkey := hpublished.checks check (List.mem_of_getElem? hcheck)
    · rw [PeerCommunicator.setPort, if_pos hproto]
      exact ⟨fun _ _ => .inl hproto, fun _ => hs⟩
    · have hproto : check.name ≠ "__proto__" := fun heq => hpublished.proto (heq ▸ hkey)
      refine ⟨fun hafter hpinged => .inr ?_, fun hintime hpinged => ?_⟩
      · exact (agrees_setPort_iff (hs hpinged) hkey hproto).mp (hafter hpinged)
      · exact (agrees_setPort_iff (hs hpinged) hkey hproto).mpr ((hintime hpinged).resolve_left hproto)

/-- A step keeps the agreement exactly if it comes in time. -/
theorem agreesOnceChecked_step {a : Action} (hpublished : Published s) (hs : AgreesOnceChecked s)
    (h : machine.step s a = some t) : AgreesOnceChecked t ↔ InTime s a := by
  obtain ⟨now, reply, rfl, hports, -, htables⟩ | ⟨rfl, hnullish, rfl⟩ | ⟨entries, rfl, hentries, rfl⟩ |
    ⟨i, responded, check, rfl, hcheck, rfl⟩ := step_cases h
  · refine ⟨fun _ => trivial, fun _ hpinged => ?_⟩
    obtain ⟨hbefore, hplugins⟩ := pinged_of_replied hpublished hpinged htables
    obtain ⟨hkeys, hadvertised⟩ := hs hbefore
    refine ⟨?_, ?_⟩
    · rw [hports, hplugins]
      exact hkeys
    · rw [hports, hplugins]
      exact hadvertised
  · exact ⟨fun _ hnot => absurd (hnullish.symm.trans hnot) Bool.noConfusion, fun _ => hs⟩
  · have hnullish := JsValue.ownEntries_ok_iff.mp ⟨entries, hentries⟩
    have hiff := agrees_setPorts_iff hentries hpublished.proto
    exact ⟨fun hafter _ => hiff.mp (hafter ⟨_, rfl, by simp⟩), fun hintime _ => hiff.mpr (hintime hnullish)⟩
  · exact agreesOnceChecked_portSettles hpublished hs hcheck

/-- A request that fails changes nothing that is published. -/
theorem step_failure {i : Nat} (h : machine.step s (.portSettles i false) = some t) :
    t.peer = s.peer ∧ t.tables = s.tables := by
  simp only [machine, step, Option.map_eq_some_iff] at h
  obtain ⟨check, -, rfl⟩ := h
  obtain ⟨hpeer, -⟩ | ⟨port, hresponded, -⟩ := portSettles_cases check s.peer false
  · exact ⟨hpeer, rfl⟩
  · cases hresponded

theorem run_failures {failures : List Action} (hfail : ∀ a ∈ failures, ∃ i, a = .portSettles i false)
    (h : machine.run s failures = some t) : t.peer = s.peer ∧ t.tables = s.tables := by
  induction failures generalizing s with
  | nil =>
    obtain rfl : s = t := by simpa using h
    exact ⟨rfl, rfl⟩
  | cons a failures ih =>
    obtain ⟨i, rfl⟩ := hfail a (List.mem_cons_self ..)
    obtain ⟨m, hm, hrest⟩ := Machine.run_cons_eq_some.mp h
    obtain ⟨hpeer, htables⟩ := step_failure hm
    obtain ⟨hpeer', htables'⟩ := ih (fun a ha => hfail a (List.mem_cons_of_mem _ ha)) hrest
    exact ⟨hpeer'.trans hpeer, htables'.trans htables⟩

theorem pinged_failures {failures : List Action} (hfail : ∀ a ∈ failures, ∃ i, a = .portSettles i false)
    (h : machine.run s failures = some t) : Pinged t ↔ Pinged s := by
  obtain ⟨hpeer, htables⟩ := run_failures hfail h
  rw [Pinged, Pinged, hpeer, htables]

/-- All the outstanding requests may fail. -/
theorem exists_failures (s : PluginPorts) : ∃ failures t,
    (∀ a ∈ failures, ∃ i, a = Action.portSettles i false) ∧ machine.run s failures = some t ∧
    t.checks = [] := by
  obtain ⟨peer, checks, tables⟩ := s
  induction checks generalizing peer with
  | nil => exact ⟨[], _, by simp, rfl, rfl⟩
  | cons check checks ih =>
    obtain ⟨failures, t, hfail, hrun, hnone⟩ := ih (PeerCommunicator.portSettles check peer false)
    refine ⟨.portSettles 0 false :: failures, t, ?_, Machine.run_cons_eq_some.mpr ⟨_, rfl, hrun⟩, hnone⟩
    intro a ha
    obtain rfl | ha := List.mem_cons.mp ha
    · exact ⟨0, rfl⟩
    · exact hfail a ha

theorem settled_iff : Settled s ↔ AgreesOnceChecked s := by
  refine ⟨?_, ?_⟩
  · intro hsettled hpinged
    obtain ⟨failures, t, hfail, hrun, hnone⟩ := exists_failures s
    rw [← (run_failures hfail hrun).1]
    exact hsettled failures t hfail hrun ((pinged_failures hfail hrun).mpr hpinged) (by simp [Quiet, hnone])
  · intro hagrees failures t hfail hrun hpinged _
    rw [(run_failures hfail hrun).1]
    exact hagrees ((pinged_failures hfail hrun).mp hpinged)

theorem Settled.agreement (h : Settled s) : Agreement s := h [] s (by simp) rfl

/-- A missing request is answered too late for nothing. -/
theorem inTime_of_step_eq_none {a : Action} (h : machine.step s a = none) : InTime s a := by
  cases a with
  | replied now reply => trivial
  | pingPorts =>
    intro hnullish
    obtain ⟨entries, hentries⟩ := JsValue.ownEntries_ok_iff.mpr hnullish
    simp [machine, step, PeerCommunicator.pingPorts, hentries] at h
  | portSettles i responded =>
    intro _ _ check hcheck
    simp [machine, step, hcheck] at h

/-- Published ports stay in agreement along the runs whose steps are in time, and
    along no other runs do they whatever the requests then outstanding do. -/
theorem publishedPorts_agree (options : Options) (ip : String) (as : List Action) :
    (machine.Along InTime (new options ip) as → machine.Always Agreement (new options ip) as) ∧
      (machine.Along InTime (new options ip) as ↔ machine.Always Settled (new options ip) as) := by
  have hiff : machine.Always AgreesOnceChecked (new options ip) as ↔
      machine.Along InTime (new options ip) as :=
    Machine.always_iff_along (fun _ _ _ hs h => hs.step h) (fun _ _ _ => agreesOnceChecked_step)
      (fun _ _ => inTime_of_step_eq_none) (fun ⟨_, h, _⟩ => by cases h) (.new options ip)
  have hsettled : machine.Along InTime (new options ip) as ↔ machine.Always Settled (new options ip) as :=
    hiff.symm.trans ⟨Machine.Always.imp fun _ => settled_iff.mpr, Machine.Always.imp fun _ => settled_iff.mp⟩
  exact ⟨fun hintime => (hsettled.mp hintime).imp fun _ => Settled.agreement, hsettled⟩

/-- A plugin that the peer no longer advertises stays published. -/
theorem withdrawn_plugin_stays_published :
    ¬ machine.Always Agreement (new ⟨4002, some [], 5, 5, false, false, false, "", none, false⟩ "10.0.0.1")
      [.replied 0 (.obj [("state", .obj []), ("config", .obj [("plugins",
          .obj [("wallet-api", .obj [("port", .num 4003)])])])]),
        .pingPorts, .portSettles 0 true,
        .replied 60 (.obj [("state", .obj []), ("config", .obj [("plugins", .obj [])])]), .pingPorts] := by
  intro halways
  have hlast := halways.last rfl
  have hagrees := hlast ⟨_, rfl, by simp⟩ fun _ hcheck => absurd hcheck List.not_mem_nil
  obtain ⟨plugin, entries, hentries, hmem⟩ := (hagrees.keys "wallet-api").mp (by decide)
  obtain rfl : [] = entries := Except.ok.inj hentries
  cases hmem

end PluginPorts

end anisa.p2p
