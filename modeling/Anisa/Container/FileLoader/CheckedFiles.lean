import Anisa.Container.FileLoader

open anisa.js

namespace anisa.container.FileLoader

variable {M : Type} {fs : FileSystem M} {names : List String} {basePath path : Path} {key file ext : String}

/-- The file is loaded, under the key. -/
def Claims (key file : String) : Prop :=
  extname file ∈ [".js", ".json"] ∧ basename file (extname file) = key

instance : DecidableRel Claims := fun key file => by
  unfold Claims
  infer_instance

theorem extname_suffix (file : String) : (extname file).toList <:+ file.toList := by
  have hsplit : file.toList = (file.toList.reverse.dropWhile (· ≠ '.')).reverse ++
      (file.toList.reverse.takeWhile (· ≠ '.')).reverse := by
    rw [← List.reverse_append, List.takeWhile_append_dropWhile, List.reverse_reverse]
  have hdot := List.head?_dropWhile_not (fun c => decide (c ≠ '.')) file.toList.reverse
  simp only [extname, List.span_eq_takeWhile_dropWhile]
  cases hstem : file.toList.reverse.dropWhile (· ≠ '.') with
  | nil => simp
  | cons dot before =>
    cases before with
    | nil => simp
    | cons c before =>
      rw [hstem] at hdot
      obtain rfl : dot = '.' := by simpa using hdot
      by_cases htwo : file = ".."
      · simp [htwo]
      · rw [hstem, List.reverse_cons, List.append_assoc] at hsplit
        simp only [if_neg htwo, String.toList_ofList]
        exact ⟨_, hsplit.symm⟩

theorem basename_append (h : ext.toList <:+ file.toList) : basename file ext ++ ext = file := by
  rw [← String.toList_inj, String.toList_append, basename, if_pos (List.isSuffixOf_iff_suffix.mpr h),
    String.toList_ofList]
  exact List.suffix_iff_eq_append.mp h

/-- Only two names are loaded under a key. -/
theorem Claims.eq_or_eq (h : Claims key file) : file = key ++ ".js" ∨ file = key ++ ".json" := by
  obtain ⟨hext, rfl⟩ := h
  have hfile := basename_append (extname_suffix file)
  generalize basename file (extname file) = key at hfile
  obtain hjs | hjson : extname file = ".js" ∨ extname file = ".json" := by simpa using hext
  · exact .inl (hjs ▸ hfile.symm)
  · exact .inr (hjson ▸ hfile.symm)

theorem claims_peers_iff : Claims "peers" file ↔ file = "peers.js" ∨ file = "peers.json" := by
  refine ⟨Claims.eq_or_eq, ?_⟩
  rintro (rfl | rfl) <;> decide

theorem claims_plugins_iff : Claims "plugins" file ↔ file = "plugins.js" ∨ file = "plugins.json" := by
  refine ⟨Claims.eq_or_eq, ?_⟩
  rintro (rfl | rfl) <;> decide

theorem get_addFile {configTree : OrderedMap String Path} (hkey : key ≠ "__proto__") :
    (addFile basePath configTree file).get key =
      if Claims key file then some (basePath ++ [file]) else configTree.get key := by
  by_cases hclaims : Claims key file
  · obtain ⟨hext, rfl⟩ := hclaims
    have hadded : ([".js", ".json"].contains (extname file) &&
        basename file (extname file) != "__proto__") = true := by simpa [hkey] using hext
    rw [addFile, if_pos hadded, OrderedMap.get_set_self, if_pos ⟨hext, rfl⟩]
  · rw [if_neg hclaims, addFile]
    split
    · next hadded =>
      rw [Bool.and_eq_true, List.contains_iff_mem] at hadded
      exact OrderedMap.get_set_of_ne fun heq => hclaims ⟨hadded.1, heq.symm⟩
    · rfl

/-- Of the files with one key the last listed is the one under it. -/
theorem get_foldl_addFile {configTree : OrderedMap String Path} (hkey : key ≠ "__proto__") :
    (names.foldl (addFile basePath) configTree).get key =
      ((names.reverse.find? (Claims key ·)).map (basePath ++ [·])).or (configTree.get key) := by
  induction names generalizing configTree with
  | nil => rfl
  | cons file names ih =>
    rw [List.foldl_cons, ih, get_addFile hkey, List.reverse_cons, List.find?_append, Option.map_or,
      Option.or_assoc]
    by_cases hclaims : Claims key file <;> simp [hclaims]

/-- One name comes after another in a listing. -/
def ListedAfter (names : List String) (first second : String) : Prop :=
  ∃ before after, names = before ++ first :: after ∧ second ∈ after

theorem listedAfter_iff_sublist {first second : String} :
    ListedAfter names first second ↔ [first, second].Sublist names := by
  constructor
  · rintro ⟨before, after, rfl, hafter⟩
    exact ((List.singleton_sublist.mpr hafter).cons_cons first).trans (List.sublist_append_right _ _)
  · intro hsublist
    obtain ⟨front, back, rfl, hfirst, hsecond⟩ := List.cons_sublist_iff.mp hsublist
    obtain ⟨before, after, rfl⟩ := List.append_of_mem hfirst
    have hback := List.singleton_sublist.mp hsecond
    exact ⟨before, after ++ back, by simp, List.mem_append_right after hback⟩

instance (first second : String) : Decidable (ListedAfter names first second) :=
  decidable_of_iff _ listedAfter_iff_sublist.symm

/-- Of the two names that are loaded under a key, one is so exactly if the other
    is not listed after it. -/
theorem get_eq_some_iff (basePath : Path) {checked other : String} (hkey : key ≠ "__proto__")
    (hclaims : ∀ file, Claims key file ↔ file = checked ∨ file = other) (hne : other ≠ checked)
    (hnodup : names.Nodup) (hmem : checked ∈ names) :
    (names.foldl (addFile basePath) .empty).get key = some (basePath ++ [checked]) ↔
      ¬ ListedAfter names checked other := by
  obtain ⟨before, after, rfl⟩ := List.append_of_mem hmem
  have hfresh := hnodup
  rw [List.nodup_append, List.nodup_cons] at hfresh
  obtain ⟨-, ⟨hnotAfter, -⟩, hdisjoint⟩ := hfresh
  have hnotBefore : checked ∉ before := fun h => hdisjoint checked h checked (List.mem_cons_self ..) rfl
  have hlisted : ListedAfter (before ++ checked :: after) checked other ↔ other ∈ after := by
    refine ⟨?_, fun h => ⟨before, after, rfl, h⟩⟩
    rintro ⟨before', after', heq, hother⟩
    obtain ⟨-, -, rfl⟩ := (List.append_cons_inj_of_notMem hnotBefore hnotAfter).mp heq
    exact hother
  have hchecked : Claims key checked := (hclaims checked).mpr (.inl rfl)
  rw [get_foldl_addFile hkey, hlisted, OrderedMap.get_empty, Option.or_none, List.reverse_append,
    List.reverse_cons, List.append_assoc, List.find?_append]
  cases hfind : after.reverse.find? (Claims key ·) with
  | none =>
    have hnone : other ∉ after := by
      intro hother
      have hunclaimed := List.find?_eq_none.mp hfind other (List.mem_reverse.mpr hother)
      exact hunclaimed (decide_eq_true ((hclaims other).mpr (.inr rfl)))
    simp [hchecked, hnone]
  | some file =>
    have hmemFile := List.mem_reverse.mp (List.mem_of_find?_eq_some hfind)
    have hclaim : Claims key file := by simpa using List.find?_some hfind
    obtain rfl | rfl := (hclaims file).mp hclaim
    · exact absurd hmemFile hnotAfter
    · simp [hmemFile, hne]

/-- The keys of the two files whose existence is checked are theirs. -/
def MapsChecked (fs : FileSystem M) : Prop :=
  ∃ configTree, getFiles fs = .ok configTree ∧
    configTree.get "peers" = some (fs.corePathConfig ++ ["peers.json"]) ∧
    configTree.get "plugins" = some (fs.corePathConfig ++ ["plugins.js"])

theorem getFiles_ok (hdirectory : fs.configDirectory = some names) (hpeers : "peers.json" ∈ names)
    (hplugins : "plugins.js" ∈ names) :
    getFiles fs = .ok (names.foldl (addFile fs.corePathConfig) .empty) := by
  simp [getFiles, hdirectory, hpeers, hplugins]

/-- Loading the entries stores each module under its key. -/
theorem get_foldlM_require {entries : List (String × Path)} {start files : OrderedMap String M}
    (hload : entries.foldlM (fun files e => (files.set e.1 ·) <$> fs.require e.2) start = .ok files)
    (hnodup : (entries.map Prod.fst).Nodup) :
    (∀ key path, (key, path) ∈ entries → ∃ m, fs.require path = .ok m ∧ files.get key = some m) ∧
      ∀ key, key ∉ entries.map Prod.fst → files.get key = start.get key := by
  induction entries generalizing start with
  | nil =>
    obtain rfl : start = files := Except.ok.inj hload
    exact ⟨by simp, fun _ _ => rfl⟩
  | cons entry entries ih =>
    obtain ⟨name, path⟩ := entry
    rw [List.foldlM_cons, bind_eq_ok_iff] at hload
    obtain ⟨middle, hfirst, hrest⟩ := hload
    obtain ⟨m, hrequire, rfl⟩ := map_eq_ok_iff.mp hfirst
    rw [List.map_cons, List.nodup_cons] at hnodup
    obtain ⟨hloaded, hothers⟩ := ih hrest hnodup.2
    refine ⟨fun key path' hmem => ?_, fun key hkey => ?_⟩
    · obtain heq | hmem := List.mem_cons.mp hmem
      · obtain ⟨rfl, rfl⟩ := Prod.mk.inj heq
        exact ⟨m, hrequire, by rw [hothers key hnodup.1, OrderedMap.get_set_self]⟩
      · exact hloaded key path' hmem
    · rw [List.map_cons, List.mem_cons, not_or] at hkey
      rw [hothers key hkey.2, OrderedMap.get_set_of_ne hkey.1]

theorem get_loadFiles {configTree : OrderedMap String Path} {files : OrderedMap String M}
    (hload : loadFiles fs configTree = .ok files) (hget : configTree.get key = some path) :
    ∃ m, fs.require path = .ok m ∧ files.get key = some m := by
  have hperm := propertyOrder_perm configTree.entries
  have hnodup := (hperm.map Prod.fst).nodup_iff.mpr configTree.nodup
  exact (get_foldlM_require hload hnodup).1 key path
    (hperm.mem_iff.mpr (OrderedMap.get_eq_some_iff_mem.mp hget))

/-- The loaded files are the checked ones, and what is written back is the peers
    file that was read. -/
def LoadsChecked (fs : FileSystem M) : Prop :=
  ∀ created, createFromDirectory fs = .ok created →
    ∃ peers plugins, fs.require (fs.corePathConfig ++ ["peers.json"]) = .ok peers ∧
      fs.require (fs.corePathConfig ++ ["plugins.js"]) = .ok plugins ∧
      created.files.get "peers" = some peers ∧ created.files.get "plugins" = some plugins ∧
      created.peers = (buildPeers fs (fs.exports peers)).1 ∧
      ∀ path file, created.written = some (path, file) →
        path = fs.corePathConfig ++ ["peers.json"] ∧ file = created.peers

theorem MapsChecked.loadsChecked (h : MapsChecked fs) : LoadsChecked fs := by
  obtain ⟨configTree, hfiles, hpeers, hplugins⟩ := h
  intro created hcreated
  simp only [createFromDirectory, hfiles, ok_bind, bind_eq_ok_iff] at hcreated
  obtain ⟨files, hload, hcreated⟩ := hcreated
  obtain ⟨peers, hrequirePeers, hgetPeers⟩ := get_loadFiles hload hpeers
  obtain ⟨plugins, hrequirePlugins, hgetPlugins⟩ := get_loadFiles hload hplugins
  rw [hgetPeers] at hcreated
  obtain rfl := Except.ok.inj hcreated
  refine ⟨peers, plugins, hrequirePeers, hrequirePlugins, hgetPeers, hgetPlugins, rfl, ?_⟩
  intro path file hwritten
  simp only [buildPeers] at hwritten ⊢
  split at hwritten
  · cases hwritten
  · obtain ⟨rfl, rfl⟩ := Prod.mk.inj (Option.some.inj hwritten)
    exact ⟨rfl, rfl⟩

/-- Of a directory with both files, the checked ones are mapped and loaded exactly
    if no file that goes under the same key is listed later. -/
theorem checked_files_are_loaded_iff (fs : FileSystem M) (hdirectory : fs.configDirectory = some names)
    (hnodup : names.Nodup) (hpeers : "peers.json" ∈ names) (hplugins : "plugins.js" ∈ names) :
    (MapsChecked fs ∧ LoadsChecked fs) ↔ ¬ ListedAfter names "peers.json" "peers.js" ∧
      ¬ ListedAfter names "plugins.js" "plugins.json" := by
  have hpeersIff := get_eq_some_iff fs.corePathConfig (show "peers" ≠ "__proto__" by decide)
    (fun _ => claims_peers_iff.trans or_comm) (by decide) hnodup hpeers
  have hpluginsIff := get_eq_some_iff fs.corePathConfig (show "plugins" ≠ "__proto__" by decide)
    (fun _ => claims_plugins_iff) (by decide) hnodup hplugins
  have hfiles := getFiles_ok hdirectory hpeers hplugins
  rw [← hpeersIff, ← hpluginsIff]
  refine ⟨?_, fun h => ?_⟩
  · rintro ⟨⟨configTree, hconfigTree, hmaps⟩, -⟩
    obtain rfl := Except.ok.inj (hfiles.symm.trans hconfigTree)
    exact hmaps
  · have hmaps : MapsChecked fs := ⟨_, hfiles, h⟩
    exact ⟨hmaps, hmaps.loadsChecked⟩

/-- A configuration directory whose modules hold nothing. -/
def sampleFiles (names : List String) : FileSystem Unit :=
  ⟨["etc", "anisa"], some names, fun _ => .ok (), fun _ => ⟨none, none⟩, fun _ => [], fun _ _ => none⟩

/-- Two files claim the key of the peers, and the one that is checked comes last. -/
theorem checked_files_are_loaded_two_peers_files :
    MapsChecked (sampleFiles ["delegates.json", "peers.js", "peers.json", "plugins.js"]) ∧
      LoadsChecked (sampleFiles ["delegates.json", "peers.js", "peers.json", "plugins.js"]) :=
  (checked_files_are_loaded_iff _ rfl (by decide) (by decide) (by decide)).mpr ⟨by decide, by decide⟩

/-- In alphabetical order `plugins.json` replaces the `plugins.js` that was checked. -/
theorem unchecked_file_loaded :
    ["peers.json", "plugins.js", "plugins.json"].Nodup ∧
      ¬ MapsChecked (sampleFiles ["peers.json", "plugins.js", "plugins.json"]) := by
  refine ⟨by decide, ?_⟩
  rintro ⟨configTree, hconfigTree, -, hplugins⟩
  obtain rfl := Except.ok.inj hconfigTree
  revert hplugins
  decide

end anisa.container.FileLoader
