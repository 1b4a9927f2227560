import Anisa.Container.FileLoader
import Anisa.Merge

open anisa.js anisa.merge

namespace anisa.container

/-- What tells two seeds apart. -/
def Seed.address (self : Seed) : String × ℚ := (self.ip, self.port)

namespace FileLoader

variable {M : Type} {fs : FileSystem M} {fetched : List Seed} {sources : List String} {i : Nat}

/-- The source at a position loads the list. -/
def Loads (fs : FileSystem M) (i : Nat) (source : String) (fetched : List Seed) : Prop :=
  if source.toList.head? = some '/' then fetched = fs.seedList source else fs.get i source = some fetched

/-- The source at a position is a URL that fails. -/
def Fails (fs : FileSystem M) (i : Nat) (source : String) : Prop :=
  source.toList.head? ≠ some '/' ∧ fs.get i source = none

/-- The list is that of the first source that is a local file or a URL that does
    not fail. -/
def Yields (fs : FileSystem M) (sources : List String) (fetched : List Seed) : Prop :=
  ∃ i source, sources[i]? = some source ∧ Loads fs i source fetched ∧
    ∀ j earlier, j < i → sources[j]? = some earlier → Fails fs j earlier

/-- The same of the sources that remain from a position on. -/
def YieldsFrom (fs : FileSystem M) (i : Nat) (sources : List String) (fetched : List Seed) : Prop :=
  ∃ k source, sources[k]? = some source ∧ Loads fs (i + k) source fetched ∧
    ∀ j earlier, j < k → sources[j]? = some earlier → Fails fs (i + j) earlier

theorem Loads.not_fails {source : String} (h : Loads fs i source fetched) : ¬ Fails fs i source := by
  rintro ⟨hlocal, hget⟩
  rw [Loads, if_neg hlocal, hget] at h
  cases h

theorem yieldsFrom_cons_iff {source : String} : YieldsFrom fs i (source :: sources) fetched ↔
    Loads fs i source fetched ∨ Fails fs i source ∧ YieldsFrom fs (i + 1) sources fetched := by
  have hindex (k : Nat) : i + (k + 1) = i + 1 + k := by omega
  refine ⟨?_, ?_⟩
  · rintro ⟨k, found, hfound, hloads, hearlier⟩
    cases k with
    | zero =>
      obtain rfl : source = found := Option.some.inj hfound
      exact .inl hloads
    | succ k =>
      refine .inr ⟨hearlier 0 source (Nat.succ_pos k) rfl, k, found, hfound, hindex k ▸ hloads, ?_⟩
      intro j earlier hj hget
      exact hindex j ▸ hearlier (j + 1) earlier (Nat.succ_lt_succ hj) hget
  · rintro (hloads | ⟨hfails, k, found, hfound, hloads, hearlier⟩)
    · exact ⟨0, source, rfl, hloads, fun j _ hj => absurd hj (Nat.not_lt_zero j)⟩
    · refine ⟨k + 1, found, hfound, (hindex k).symm ▸ hloads, ?_⟩
      intro j earlier hj hget
      cases j with
      | zero =>
        obtain rfl : source = earlier := Option.some.inj hget
        exact hfails
      | succ j => exact (hindex j).symm ▸ hearlier j earlier (Nat.lt_of_succ_lt_succ hj) hget

theorem fetchedList_eq_some_iff : fetchedList fs i sources = some fetched ↔ YieldsFrom fs i sources fetched := by
  induction sources generalizing i with
  | nil => simp [fetchedList, YieldsFrom]
  | cons source sources ih =>
    rw [yieldsFrom_cons_iff]
    by_cases hfails : Fails fs i source
    · obtain ⟨hlocal, hget⟩ := hfails
      rw [fetchedList, if_neg hlocal, hget, Option.orElse_none, ih]
      refine ⟨fun h => .inr ⟨⟨hlocal, hget⟩, h⟩, ?_⟩
      rintro (hloads | ⟨-, h⟩)
      · exact absurd ⟨hlocal, hget⟩ hloads.not_fails
      · exact h
    · have hfirst : fetchedList fs i (source :: sources) = some fetched ↔ Loads fs i source fetched := by
        rw [fetchedList, Loads]
        by_cases hlocal : source.toList.head? = some '/'
        · rw [if_pos hlocal, if_pos hlocal, Option.some.injEq, eq_comm]
        · rw [if_neg hlocal, if_neg hlocal]
          cases hget : fs.get i source with
          | none => exact absurd ⟨hlocal, hget⟩ hfails
          | some list => rfl
      rw [hfirst, or_iff_left fun h => hfails h.1]

theorem fetchedList_iff_yields : fetchedList fs 0 sources = some fetched ↔ Yields fs sources fetched := by
  rw [fetchedList_eq_some_iff]
  simp only [YieldsFrom, Nat.zero_add, Yields]

/-- A peer is pushed by its address. -/
theorem pushPeer_eq_absorb (list : List Seed) (peer : Seed) :
    pushPeer list peer = absorb Seed.address list peer := by
  have hany : (list.any fun seed => seed.ip == peer.ip && seed.port == peer.port) = true ↔
      peer.address ∈ list.map Seed.address := by
    simp [Seed.address]
  by_cases hmem : peer.address ∈ list.map Seed.address
  · rw [pushPeer, absorb, if_pos (hany.mpr hmem), if_pos hmem]
  · rw [pushPeer, absorb, if_neg (mt hany.mp hmem), if_neg hmem]

theorem foldl_pushPeer (list fetched : List Seed) :
    fetched.foldl pushPeer list = extend Seed.address list fetched := by
  have hpush : pushPeer = absorb Seed.address := by
    funext list peer
    exact pushPeer_eq_absorb list peer
  rw [hpush, extend]

example : ([⟨"10.0.0.1", 4002, []⟩, ⟨"10.0.0.2", 4002, []⟩, ⟨"10.0.0.1", 4002, []⟩].foldl pushPeer
    [⟨"10.0.0.2", 4002, []⟩]).map Seed.ip = ["10.0.0.2", "10.0.0.1"] := by decide

/-- `buildPeers` on the list that a source yields. -/
theorem buildPeers_of_yields {configFile : PeersFile} (h : Yields fs (configFile.sources.getD []) fetched) :
    buildPeers fs configFile =
      ({ configFile with list := some (extend Seed.address (configFile.list.getD []) fetched) },
        some (fs.corePathConfig ++ ["peers.json"],
          { configFile with list := some (extend Seed.address (configFile.list.getD []) fetched) })) := by
  simp only [buildPeers, fetchedList_iff_yields.mpr h, foldl_pushPeer]

/-- The seed list is extended by the peers of the first source that loads, each
    address once, and a second run finds nothing to add; without a source the list
    stays and nothing is written. -/
theorem buildPeers_extends (fs : FileSystem M) (configFile : PeersFile) :
    (∀ fetched, Yields fs (configFile.sources.getD []) fetched → ∃ merged appended,
      merged = { configFile with list := some (configFile.list.getD [] ++ appended) } ∧
      buildPeers fs configFile = (merged, some (fs.corePathConfig ++ ["peers.json"], merged)) ∧
      appended.Sublist fetched ∧
      (∀ peer ∈ fetched, ∃ seed ∈ configFile.list.getD [] ++ appended,
        seed.ip = peer.ip ∧ seed.port = peer.port) ∧
      (∀ before peer after, appended = before ++ peer :: after →
        ∀ seed ∈ configFile.list.getD [] ++ before, ¬ (seed.ip = peer.ip ∧ seed.port = peer.port)) ∧
      ∀ again : FileSystem M, Yields again (merged.sources.getD []) fetched →
        buildPeers again merged = (merged, some (again.corePathConfig ++ ["peers.json"], merged))) ∧
    ((∀ fetched, ¬ Yields fs (configFile.sources.getD []) fetched) →
      buildPeers fs configFile = (configFile, none)) := by
  refine ⟨?_, ?_⟩
  · intro fetched hyields
    obtain ⟨appended, hextend, happended⟩ := extend_eq_append Seed.address (configFile.list.getD []) fetched
    refine ⟨_, appended, rfl, ?_, happended.sublist, ?_, ?_, ?_⟩
    · rw [buildPeers_of_yields hyields, hextend]
    · intro peer hpeer
      obtain ⟨seed, hseed, haddress⟩ := List.mem_map.mp (happended.covers peer hpeer)
      exact ⟨seed, hseed, congrArg Prod.fst haddress, congrArg Prod.snd haddress⟩
    · rintro before peer after rfl seed hseed ⟨hip, hport⟩
      have haddress : seed.address = peer.address := Prod.ext hip hport
      obtain hold | hbefore := List.mem_append.mp hseed
      · exact happended.fresh peer (by simp) (haddress ▸ List.mem_map_of_mem hold)
      · have hnodup := happended.nodup
        rw [List.map_append, List.map_cons, List.nodup_append] at hnodup
        exact hnodup.2.2 seed.address (List.mem_map_of_mem hbefore) peer.address
          (List.mem_cons_self ..) haddress
    · intro again hagain
      rw [buildPeers_of_yields hagain]
      simp only [Option.getD_some, ← hextend, extend_extend]
  · intro hnone
    have hfetched : fetchedList fs 0 (configFile.sources.getD []) = none := by
      rw [Option.eq_none_iff_forall_ne_some]
      exact fun fetched h => hnone fetched (fetchedList_iff_yields.mp h)
    simp only [buildPeers, hfetched]

end FileLoader

end anisa.container
