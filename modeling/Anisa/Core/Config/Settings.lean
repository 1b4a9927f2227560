import Anisa.Core.Config

open anisa.js anisa.transition
open anisa.js.Json (indexKey readBack InOrder Stable truthy ownEntries property ownProperty)

namespace anisa.core

variable {N : Type} {nums : Numbers N} {fields data : List (JsString × Json.Plain N)} {v : Json.Plain N}
  {key : JsString}

/-- What is stored under each key. -/
abbrev Settings (N : Type) := JsString → Option (Json.Plain N)

/-- The properties of an object, as they are read from its text. -/
def Settings.ofFields (nums : Numbers N) (fields : List (JsString × Json.Plain N)) : Settings N :=
  fun key => (ownProperty fields key).map (readBack nums)

/-- The settings with those of a record, of which the last of a key counts. -/
def Settings.assign (settings : Settings N) (data : List (JsString × JsString)) : Settings N :=
  fun key => ((ownProperty data.reverse key).map Json.str).or (settings key)

/-- What each action does to the settings: a command of a `next` version switches the
    channel. -/
def Settings.apply (settings : Settings N) : ConfigManager.Action → Settings N
  | .init config => if units "next" <:+: config.version then
      settings.assign [(units "channel", units "next")] else settings
  | .set key value => settings.assign [(key, value)]
  | .update data => settings.assign data

theorem Settings.assign_singleton (settings : Settings N) (key value other : JsString) :
    settings.assign [(key, value)] other = if other = key then some (.str value) else settings other := by
  rw [Settings.assign, List.reverse_singleton]
  split_ifs with hkey
  · have hfound : ownProperty [(key, value)] other = some value := by simp [ownProperty, hkey]
    rw [hfound]
    rfl
  · have hnone : ownProperty [(key, value)] other = none := OrderedMap.lookup_cons_of_ne hkey
    rw [hnone]
    rfl

theorem Settings.assign_eq_self {settings : Settings N} {value : JsString}
    (h : settings key = some (.str value)) : settings.assign [(key, value)] = settings := by
  funext other
  rw [Settings.assign_singleton]
  split_ifs with hkey
  · rw [hkey, h]
  · rfl

/-! What is spread has each key once, and its values are in order. -/

theorem nodup_ownEntries (hv : InOrder v) : ((ownEntries v).map Prod.fst).Nodup := by
  have hindices {α : Type} (xs : List α) (f : α → Json.Plain N) :
      ((xs.mapIdx fun i x => (indexKey i, f x)).map Prod.fst).Nodup := by
    have hkeys : (xs.mapIdx fun i x => (indexKey i, f x)).map Prod.fst =
        (List.range xs.length).map indexKey := by
      apply List.ext_getElem
      · simp
      · intro i _ _
        simp
    rw [hkeys]
    exact List.nodup_range.map Json.indexKey_injective
  cases v with
  | null => exact List.nodup_nil
  | bool b => exact List.nodup_nil
  | num n => exact List.nodup_nil
  | str s => exact hindices s fun c => .str [c]
  | arr xs => exact hindices xs id
  | obj fields => exact (Json.inOrder_obj.mp hv).1.nodup
  | host b => exact b.elim

theorem inOrder_ownEntries (hv : InOrder v) : ∀ field ∈ ownEntries v, InOrder field.2 := by
  cases v with
  | null => exact List.forall_mem_nil _
  | bool b => exact List.forall_mem_nil _
  | num n => exact List.forall_mem_nil _
  | str s =>
    intro field hfield
    obtain ⟨i, hi, rfl⟩ := List.mem_mapIdx.mp hfield
    exact Json.inOrder_of_inside rfl trivial
  | arr xs =>
    intro field hfield
    obtain ⟨i, hi, rfl⟩ := List.mem_mapIdx.mp hfield
    exact Json.inOrder_arr.mp hv _ (List.getElem_mem hi)
  | obj fields => exact (Json.inOrder_obj.mp hv).2
  | host b => exact b.elim

theorem fieldsInOrder_ownEntries (hv : InOrder v) : Json.FieldsInOrder (ownEntries v) :=
  ⟨nodup_ownEntries hv, inOrder_ownEntries hv⟩

theorem fieldsInOrder_foldl (h : Json.FieldsInOrder fields) (hdata : ∀ field ∈ data, InOrder field.2) :
    Json.FieldsInOrder (data.foldl (fun fields e => OrderedMap.setEntries e.1 e.2 fields) fields) := by
  induction data generalizing fields with
  | nil => exact h
  | cons e data ih =>
    rw [List.forall_mem_cons] at hdata
    exact ih (h.set hdata.1) hdata.2

theorem inOrder_str (s : JsString) : InOrder (.str s : Json.Plain N) := Json.inOrder_of_inside rfl trivial

theorem fieldsInOrder_assign (h : Json.FieldsInOrder fields) (data : List (JsString × JsString)) :
    Json.FieldsInOrder ((data.map fun e => (e.1, (.str e.2 : Json.Plain N))).foldl
      (fun fields e => OrderedMap.setEntries e.1 e.2 fields) fields) :=
  fieldsInOrder_foldl h (List.forall_mem_map.mpr fun e _ => inOrder_str e.2)

/-- The properties of `{ ...fields, ...data }`. -/
theorem ownProperty_spread (h : Json.FieldsInOrder fields) :
    ownProperty (ownOrder (data.foldl (fun fields e => OrderedMap.setEntries e.1 e.2 fields) fields)) key =
      (ownProperty data.reverse key).or (ownProperty fields key) := by
  let m : OrderedMap JsString (Json.Plain N) := ⟨fields, h.1⟩
  have hentries : (m.insertAll data).entries =
      data.foldl (fun fields e => OrderedMap.setEntries e.1 e.2 fields) fields := OrderedMap.entries_insertAll
  have hperm := ownOrder_perm (m.insertAll data).entries
  rw [← hentries]
  calc ownProperty (ownOrder (m.insertAll data).entries) key
      = (m.insertAll data).get key :=
        OrderedMap.lookup_perm hperm ((hperm.map Prod.fst).nodup_iff.mpr (m.insertAll data).nodup)
    _ = (ownProperty data.reverse key).or (m.get key) := OrderedMap.get_insertAll

namespace ConfigManager

variable {self : ConfigManager N}

theorem inOrder_read (nums : Numbers N) (self : ConfigManager N) : InOrder (self.read nums) := by
  rw [read, readJsonSync]
  cases self.disk self.file with
  | none => exact Json.inOrder_of_inside rfl trivial
  | some content =>
    rw [Option.bind_some]
    cases hparse : Json.parse nums (if content.head? = some 0xfeff then content.tail else content) with
    | none => exact Json.inOrder_of_inside rfl trivial
    | some v => exact Json.inOrder_parse hparse

/-- An object that is written is read back. -/
theorem read_write (h : Stable nums) (hv : InOrder (.obj fields)) :
    (self.write nums (.obj fields)).read nums = readBack nums (.obj fields) := by
  have hfile : (self.write nums (.obj fields)).disk (self.write nums (.obj fields)).file =
      some (Json.print nums (.obj fields) ++ [unit '\n']) := Function.update_self _ _ _
  have hhead : (Json.print nums (.obj fields) ++ [unit '\n']).head? ≠ some 0xfeff := by
    rw [Json.print]
    exact fun hbyte => by cases hbyte
  rw [read, readJsonSync, hfile, Option.bind_some, if_neg hhead, Json.parse_print_line h _ hv]
  rfl

/-- What is stored, as it is read back. -/
def settings (nums : Numbers N) (self : ConfigManager N) : Settings N :=
  .ofFields nums (ownEntries (self.read nums))

theorem settings_write (h : Stable nums) (hv : InOrder (.obj fields)) :
    (self.write nums (.obj fields)).settings nums = .ofFields nums fields := by
  funext key
  have hagain : fields.map (fun field => (field.1, readBack nums (readBack nums field.2))) =
      fields.map fun field => (field.1, readBack nums field.2) := by
    refine List.map_congr_left fun field hfield => ?_
    have hwellFormed := Json.wellFormed_readBack h _ ((Json.inOrder_obj.mp hv).2 field hfield)
    rw [Json.readBack_eq_self _ hwellFormed]
  rw [settings, read_write h hv, Json.readBack_obj, ownEntries, Settings.ofFields, Settings.ofFields]
  calc (ownProperty (fields.map fun field => (field.1, readBack nums field.2)) key).map (readBack nums)
      = ownProperty (fields.map fun field => (field.1, readBack nums (readBack nums field.2))) key := by
        rw [← OrderedMap.lookup_map_snd (readBack nums), List.map_map]
        rfl
    _ = (ownProperty fields key).map (readBack nums) := by
        rw [hagain]
        exact OrderedMap.lookup_map_snd (readBack nums)

/-- `update` assigns the members of the record, and keeps the others. -/
theorem settings_update (h : Stable nums) (data : List (JsString × JsString)) :
    (self.update nums data).settings nums = (self.settings nums).assign data := by
  have hfields := fieldsInOrder_ownEntries (inOrder_read nums self)
  have hall := fieldsInOrder_assign hfields data
  rw [update, spread, settings_write h hall.inOrder]
  funext key
  have hdata : ownProperty (data.map fun e => (e.1, (Json.str e.2 : Json.Plain N))).reverse key =
      (ownProperty data.reverse key).map Json.str := by
    rw [← List.map_reverse]
    exact OrderedMap.lookup_map_snd Json.str
  rw [Settings.ofFields, ownProperty_spread hfields, hdata, Settings.assign, settings, Settings.ofFields]
  cases ownProperty data.reverse key <;> rfl

/-- What is left of a disk: every other file, an object for an object, and nothing that
    counts as false for what does not. -/
structure Follows (nums : Numbers N) (last next : ConfigManager N) : Prop where
  configDir : next.config.configDir = last.config.configDir
  disk : ∀ path, path ≠ last.file → next.disk path = last.disk path
  object : (∃ fields, last.read nums = .obj fields) → ∃ fields, next.read nums = .obj fields
  truthy : truthy nums (last.read nums) = true → truthy nums (next.read nums) = true

theorem Follows.refl (self : ConfigManager N) : Follows nums self self := ⟨rfl, fun _ _ => rfl, id, id⟩

theorem Follows.trans {next last : ConfigManager N} (h : Follows nums self next)
    (h' : Follows nums next last) :
    Follows nums self last := by
  have hfile : next.file = self.file := by rw [file, file, h.configDir]
  refine ⟨h'.configDir.trans h.configDir, fun path hpath => ?_, fun ho => h'.object (h.object ho),
    fun ht => h'.truthy (h.truthy ht)⟩
  rw [h'.disk path (by rwa [hfile]), h.disk path hpath]

theorem truthy_write (h : Stable nums) (hv : InOrder (.obj fields)) :
    truthy nums ((self.write nums (.obj fields)).read nums) = true := by
  rw [read_write h hv, Json.readBack_obj]
  rfl

theorem follows_write (h : Stable nums) (hv : InOrder (.obj fields)) :
    Follows nums self (self.write nums (.obj fields)) where
  configDir := rfl
  disk path hpath := Function.update_of_ne hpath _ _
  object _ := ⟨_, by rw [read_write h hv, Json.readBack_obj]⟩
  truthy _ := truthy_write h hv

theorem follows_update (h : Stable nums) (data : List (JsString × JsString)) :
    Follows nums self (self.update nums data) := by
  have hall := fieldsInOrder_assign (fieldsInOrder_ownEntries (inOrder_read nums self)) data
  exact follows_write h hall.inOrder

theorem inOrder_defaults (config : IConfig) : InOrder (defaults config : Json.Plain N) := by
  have hkeys : Enumerated [units "token", units "channel"] := ⟨by decide, by decide⟩
  refine Json.inOrder_obj.mpr ⟨hkeys, ?_⟩
  simp only [List.forall_mem_cons]
  exact ⟨inOrder_str _, inOrder_str _, List.forall_mem_nil _⟩

/-- The same file, whatever else another configuration says. -/
theorem follows_config (nums : Numbers N) {config : IConfig} (hdir : config.configDir = self.config.configDir) :
    Follows nums self { self with config } ∧ ({ self with config } : ConfigManager N).read nums =
      self.read nums := by
  have hread : ({ self with config } : ConfigManager N).read nums = self.read nums := by
    simp only [read, file, hdir]
  exact ⟨⟨hdir, fun _ _ => rfl, by rw [hread]; exact id, by rw [hread]; exact id⟩, hread⟩

/-- A channel that is read as a text is a property of an object. -/
theorem ownProperty_of_get {channel : JsString} (h :
    self.get nums (units "channel") = .ok (some (.str channel))) :
    ∃ fields, self.read nums = .obj fields ∧ ownProperty fields (units "channel") = some (.str channel) := by
  have hindex : arrayIndex? (keyText (units "channel")) = none := by decide
  have hlength : units "channel" ≠ units "length" := by decide
  rw [get] at h
  cases hread : self.read nums with
  | null => rw [hread] at h; cases h
  | bool b => rw [hread] at h; cases h
  | num n => rw [hread] at h; cases h
  | str s => simp [hread, property, hindex, hlength] at h
  | arr xs => simp [hread, property, hindex, hlength] at h
  | obj fields =>
    rw [hread] at h
    exact ⟨fields, rfl, Except.ok.inj h⟩
  | host b => exact b.elim

/-- A command that begins with a value in the file that counts as true. -/
theorem init_of_truthy (h : Stable nums) {config : IConfig} (htruthy : truthy nums (self.read nums) = true)
    (hdir : config.configDir = self.config.configDir) :
    ∃ next, self.init nums config = .ok next ∧ Follows nums self next ∧
      next.settings nums = (self.settings nums).apply (.init config) := by
  obtain ⟨hfollows, hread⟩ := follows_config nums hdir
  have hsetup : self.setup nums config = { self with config } := by
    rw [setup, ensureDefaults, if_pos (by rw [hread]; exact htruthy)]
  have hsettings : ({ self with config } : ConfigManager N).settings nums = self.settings nums := by
    rw [settings, settings, hread]
  have hset : ∃ next, Except.ok (({ self with config } : ConfigManager N).set nums (units "channel")
    (units "next")) =
      (.ok next : Except JsError (ConfigManager N)) ∧ Follows nums self next ∧
      next.settings nums = (self.settings nums).assign [(units "channel", units "next")] := by
    refine ⟨_, rfl, hfollows.trans (follows_update h _), ?_⟩
    rw [set, settings_update h, hsettings]
  obtain ⟨found, hget⟩ : ∃ found, ({ self with config } : ConfigManager N).get nums (units "channel") =
    .ok found := by
    rw [get, hread]
    cases hvalue : self.read nums with
    | null => rw [hvalue] at htruthy; cases htruthy
    | host b => exact b.elim
    | _ => exact ⟨_, rfl⟩
  rw [init, hsetup, Settings.apply]
  by_cases hnext : units "next" <:+: config.version
  · simp only [if_pos hnext, hget, ok_bind]
    split
    · rename_i channel
      split_ifs with hchannel
      · exact hset
      · obtain rfl := not_not.mp hchannel
        obtain ⟨fields, hobject, hproperty⟩ := ownProperty_of_get hget
        have hchosen : self.settings nums (units "channel") = some (.str (units "next")) := by
          rw [settings, ← hread, hobject, ownEntries, Settings.ofFields, hproperty]
          rfl
        exact ⟨_, rfl, hfollows, hsettings.trans (Settings.assign_eq_self hchosen).symm⟩
    · exact hset
  · rw [if_neg hnext, if_neg hnext]
    exact ⟨_, rfl, hfollows, hsettings⟩

/-- Once the value in the file counts as true, every run can be taken, and does to the
    settings what its actions do. -/
theorem run_of_truthy (h : Stable nums) (actions : List Action)
    (htruthy : truthy nums (self.read nums) = true)
    (hdir : ∀ config, .init config ∈ actions → config.configDir = self.config.configDir) :
    ∃ next, (machine nums).run self actions = some next ∧ Follows nums self next ∧
      next.settings nums = actions.foldl Settings.apply (self.settings nums) := by
  induction actions generalizing self with
  | nil => exact ⟨self, rfl, .refl self, rfl⟩
  | cons action actions ih =>
    have hstep : ∃ next, (machine nums).step self action = some next ∧ Follows nums self next ∧
        next.settings nums = (self.settings nums).apply action := by
      cases action with
      | init config =>
        obtain ⟨next, hinit, hfollows, hsettings⟩ := init_of_truthy h htruthy (hdir config List.mem_cons_self)
        exact ⟨next, congrArg Except.toOption hinit, hfollows, hsettings⟩
      | set key value => exact ⟨_, rfl, follows_update h _, settings_update h _⟩
      | update data => exact ⟨_, rfl, follows_update h data, settings_update h data⟩
    obtain ⟨next, hnext, hfollows, hsettings⟩ := hstep
    have hrest (config : IConfig) (hconfig : .init config ∈ actions) :
        config.configDir = next.config.configDir := by
      rw [hfollows.configDir]
      exact hdir config (List.mem_cons_of_mem _ hconfig)
    obtain ⟨last, hrun, hlast, hall⟩ := ih (hfollows.truthy htruthy) hrest
    refine ⟨last, Machine.run_cons_eq_some.mpr ⟨next, hnext, hrun⟩, hfollows.trans hlast, ?_⟩
    rw [hall, hsettings, List.foldl_cons]

/-- What the first command finds: the value in the file, unless that counts as false. -/
def initial (self : ConfigManager N) (nums : Numbers N) (config : IConfig) : Json.Plain N :=
  let found := ({ self with config } : ConfigManager N).read nums
  if truthy nums found then found else defaults config

theorem setup_cases (h : Stable nums) (self : ConfigManager N) (config : IConfig) :
    truthy nums ((self.setup nums config).read nums) = true ∧
    (self.setup nums config).config = config ∧
    (self.setup nums config).settings nums = .ofFields nums (ownEntries (self.initial nums config)) ∧
    (∀ path, path ≠ config.configDir ++ units "/config.json" →
    (self.setup nums config).disk path = self.disk path) ∧
    ((∃ fields, self.initial nums config = .obj fields) →
      ∃ fields, (self.setup nums config).read nums = .obj fields) := by
  rw [setup, ensureDefaults, initial]
  split_ifs with htruthy
  · exact ⟨htruthy, rfl, rfl, fun _ _ => rfl, id⟩
  · refine ⟨truthy_write h (inOrder_defaults config), rfl, settings_write h (inOrder_defaults config), ?_,
      fun _ => ⟨_, by rw [defaults, read_write h (inOrder_defaults config), Json.readBack_obj]⟩⟩
    exact fun path hpath => Function.update_of_ne hpath _ _

/-- The file keeps the settings: a run of commands that begins with the text of any file,
    or with none, can be taken, leaves what its actions make of the settings found, or of
    the defaults, and touches no other file. -/
theorem settings_run (h : Stable nums) (self : ConfigManager N) (config : IConfig) (actions : List Action)
    (hdir : ∀ other, .init other ∈ actions → other.configDir = config.configDir) :
    ∃ next, (machine nums).run self (.init config :: actions) = some next ∧
      next.settings nums = (Action.init config :: actions).foldl Settings.apply
        (.ofFields nums (ownEntries (self.initial nums config))) ∧
      (∀ path, path ≠ config.configDir ++ units "/config.json" → next.disk path = self.disk path) ∧
      ((∃ fields, self.initial nums config = .obj fields) → ∀ key,
        (next.get nums key).map (Option.map (readBack nums)) = .ok (next.settings nums key)) := by
  obtain ⟨htruthy, hconfig, hinitial, hdisk, hobject⟩ := setup_cases h self config
  have hagain : (self.setup nums config).init nums config = self.init nums config := by
    have hsame (s : ConfigManager N) (hs : s.config = config) : { s with config } = s := by
      subst hs
      rfl
    have hsetup : (self.setup nums config).setup nums config = self.setup nums config := by
      rw [setup, hsame _ hconfig, ensureDefaults, if_pos htruthy]
    rw [init, init, hsetup]
  have hall (other : IConfig) (hmem : .init other ∈ Action.init config :: actions) :
      other.configDir = (self.setup nums config).config.configDir := by
    rw [hconfig]
    obtain hsame | hmem := List.mem_cons.mp hmem
    · rw [Action.init.inj hsame]
    · exact hdir other hmem
  obtain ⟨next, hrun, hfollows, hsettings⟩ := run_of_truthy h (.init config :: actions) htruthy hall
  have hfirst : (machine nums).run self (.init config :: actions) = some next := by
    rw [← hrun]
    simp only [Machine.run, machine, step, hagain]
  refine ⟨next, hfirst, hinitial ▸ hsettings, fun path hpath => ?_, fun hfields key => ?_⟩
  · have hfile : (self.setup nums config).file = config.configDir ++ units "/config.json" := by
      rw [file, hconfig]
    rw [hfollows.disk path (by rwa [hfile]), hdisk path hpath]
  · obtain ⟨fields, hread⟩ := hfollows.object (hobject hfields)
    rw [get, settings, hread]
    rfl

/-- A command of a `next` version on an empty disk, a change of the token, and a command of
    a version that is none: the channel stays. -/
theorem settings_run_downgrade :
    ∃ next, (machine Json.naturals).run ⟨⟨units "core", units "0.0.27-next.1", units "/etc"⟩, fun _ => none⟩
        [.init ⟨units "core", units "0.0.27-next.1", units "/etc"⟩, .set (units "token") (units "ark"),
          .init ⟨units "core", units "0.0.27", units "/etc"⟩] = some next ∧
      next.settings Json.naturals (units "token") = some (.str (units "ark")) ∧
      next.settings Json.naturals (units "channel") = some (.str (units "next")) := by
  have hdir : ∀ other, Action.init other ∈ [Action.set (units "token") (units "ark"),
      .init ⟨units "core", units "0.0.27", units "/etc"⟩] → other.configDir = units "/etc" := by
    intro other hother
    simp only [List.mem_cons, List.not_mem_nil, reduceCtorEq, false_or, or_false, Action.init.injEq] at hother
    rw [hother]
  obtain ⟨next, hrun, hsettings, -⟩ := settings_run Json.stable_naturals _
    ⟨units "core", units "0.0.27-next.1", units "/etc"⟩ _ hdir
  have hnext : units "next" <:+: units "0.0.27-next.1" := ⟨units "0.0.27-", units ".1", by decide⟩
  have hother : ¬ units "next" <:+: units "0.0.27" := by decide
  have hkeys : units "channel" ≠ units "token" := by decide
  refine ⟨next, hrun, ?_, ?_⟩
  · simp only [hsettings, List.foldl_cons, List.foldl_nil, Settings.apply, if_neg hother,
    Settings.assign_singleton,
      if_true]
  · simp only [hsettings, List.foldl_cons, List.foldl_nil, Settings.apply, if_neg hother, if_pos hnext,
      Settings.assign_singleton, if_neg hkeys, if_true]

end ConfigManager

end anisa.core
