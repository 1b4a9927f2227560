import Anisa.Median
import Anisa.P2p.Subsystem

open anisa.js anisa.median

namespace anisa.p2p

/-- `state.height` of a peer that reports this height, or none. -/
def heightValue : Option ℕ → JsValue
  | some height => .num height
  | none => .undefined

/-- The heights that the stored peers report. -/
def Subsystem.Reports (self : Subsystem) (height : PeerRef → Option ℕ) : Prop :=
  ∀ r ∈ self.storage.getPeers, (self.peerAt r).state.get "height" = .ok (heightValue (height r))

namespace NetworkMonitor

def positiveHeights (height : PeerRef → Option ℕ) (peers : List PeerRef) : List ℕ :=
  (peers.filterMap height).filter (0 < ·)

variable {env : Env} {self other : Subsystem} {height : PeerRef → Option ℕ}

theorem truthy_heightValue (reported : Option ℕ) :
    (heightValue reported).truthy = reported.any (0 < ·) := by
  cases reported with
  | none => rfl
  | some n => simp [heightValue, JsValue.truthy, Nat.pos_iff_ne_zero]

theorem map_heightValue_filter (peers : List PeerRef) :
    (peers.filter fun r => (heightValue (height r)).truthy).map (fun r => heightValue (height r)) =
      (positiveHeights height peers).map fun n : ℕ => .num n := by
  induction peers with
  | nil => rfl
  | cons r peers ih =>
    cases hr : height r with
    | none => simpa [positiveHeights, hr, truthy_heightValue] using ih
    | some n =>
      have htruthy : (heightValue (some n)).truthy = decide (0 < n) := truthy_heightValue (some n)
      by_cases hn : 0 < n
      · rw [List.filter_cons_of_pos (by simp [hr, htruthy, hn]), List.map_cons, ih]
        simp [positiveHeights, hr, hn, heightValue]
      · rw [List.filter_cons_of_neg (by simp [hr, htruthy, hn]), ih]
        simp [positiveHeights, hr, hn]

/-- The list that `medians` is: the positive heights in ascending order. -/
theorem sortByNumber_heights (fmt : NumberFormat) (heights : List ℕ) :
    sortByNumber (JsValue.toNumber fmt) (heights.map fun n : ℕ => .num n) =
      .ok (((heights : Multiset ℕ).sort).map fun n : ℕ => .num n) := by
  let value : JsValue → ℚ := fun v => if let .num q := v then q else 0
  have hkeys : ∀ v ∈ heights.map (fun n : ℕ => JsValue.num n), v.toNumber fmt = .ok (some (value v)) := by
    intro v hv
    obtain ⟨n, -, rfl⟩ := List.mem_map.mp hv
    rfl
  obtain ⟨medians, hmedians⟩ := (sortByNumber_ok_iff (JsValue.toNumber fmt)).mpr
    (.inr fun v hv => ⟨_, hkeys v hv⟩)
  have hsorted := sortByNumber_sorted hkeys hmedians
  have hperm := sortByNumber_perm hmedians
  have hnumbers : ∀ v ∈ medians, v = .num (value v) := by
    intro v hv
    obtain ⟨n, -, rfl⟩ := List.mem_map.mp (hperm.mem_iff.mp hv)
    rfl
  have hsort : (((heights : Multiset ℕ).sort).map fun n : ℕ => JsValue.num n).Perm
      (heights.map fun n : ℕ => .num n) :=
    (Multiset.coe_eq_coe.mp (Multiset.sort_eq (heights : Multiset ℕ) (· ≤ ·))).map _
  have hascending : (((heights : Multiset ℕ).sort).map fun n : ℕ => JsValue.num n).Pairwise
      (value · ≤ value ·) :=
    List.pairwise_map.mpr ((Multiset.pairwise_sort (heights : Multiset ℕ) (· ≤ ·)).imp
      fun hle => by simpa [value] using hle)
  rw [hmedians]
  refine congrArg Except.ok ((hperm.trans hsort.symm).eq_of_pairwise ?_ hsorted hascending)
  intro v w hv hw hvw hwv
  obtain ⟨n, -, rfl⟩ := List.mem_map.mp hw
  rw [hnumbers v hv, le_antisymm hvw hwv]

/-- The network height in terms of the reported heights alone. -/
theorem getNetworkHeight_eq (hheights : self.Reports height) :
    getNetworkHeight env self =
      .ok (.num ((middle (positiveHeights height self.storage.getPeers : Multiset ℕ)).getD 0 : ℕ)) := by
  have hfilter : (self.storage.getPeers.filterM fun peer =>
      ((self.peerAt peer).state.get "height").map JsValue.truthy) =
        .ok (self.storage.getPeers.filter fun r => (heightValue (height r)).truthy) := by
    refine filterM_eq_ok_iff.mpr ⟨fun r hr => ⟨_, by rw [hheights r hr]; rfl⟩, ?_⟩
    refine List.filter_congr fun r hr => ?_
    rw [hheights r hr]
    simp [Except.map, Except.toOption]
  have hmap : ((self.storage.getPeers.filter fun r => (heightValue (height r)).truthy).mapM fun peer =>
      (self.peerAt peer).state.get "height") =
        .ok ((positiveHeights height self.storage.getPeers).map fun n : ℕ => .num n) := by
    rw [← map_heightValue_filter]
    exact mapM_of_ok fun r hr => hheights r (List.mem_of_mem_filter hr)
  rw [getNetworkHeight, hfilter, ok_bind, hmap, ok_bind, sortByNumber_heights, ok_bind]
  have hindex (reported : Multiset ℕ) : (reported.sort.map fun n : ℕ => JsValue.num n)[
      (reported.sort.map fun n : ℕ => JsValue.num n).length / 2]? =
        (middle reported).map fun n : ℕ => .num n := by
    rw [List.length_map, List.getElem?_map, Multiset.length_sort, middle]
  rw [hindex]
  cases hmiddle : middle (positiveHeights height self.storage.getPeers : Multiset ℕ) with
  | none => rfl
  | some n =>
    have hmem := (isMedian_of_middle hmiddle).mem
    have hpos : 0 < n := by simpa using (List.mem_filter.mp (Multiset.mem_coe.mp hmem)).2
    have htruthy : (JsValue.num (n : ℚ)).truthy = true := by simp [JsValue.truthy, hpos.ne']
    simp [htruthy]

/-- What a height says about the heights of the peers, among which any may lie. -/
structure RobustMedian (height : PeerRef → Option ℕ) (peers : List PeerRef) (h : ℕ) : Prop where
  none : positiveHeights height peers = [] → h = 0
  median : positiveHeights height peers ≠ [] → IsMedian (positiveHeights height peers : Multiset ℕ) h
  honest : ∀ (lies : PeerRef → Bool),
    2 * (positiveHeights height (peers.filter lies)).length < (positiveHeights height peers).length →
      (∃ a ∈ positiveHeights height (peers.filter fun r => !lies r), a ≤ h) ∧
        ∃ b ∈ positiveHeights height (peers.filter fun r => !lies r), h ≤ b

theorem positiveHeights_perm (height : PeerRef → Option ℕ) {peers rearranged : List PeerRef}
    (hperm : peers.Perm rearranged) :
    (positiveHeights height peers).Perm (positiveHeights height rearranged) :=
  (hperm.filterMap _).filter _

theorem positiveHeights_split (height : PeerRef → Option ℕ) (peers : List PeerRef) (lies : PeerRef → Bool) :
    (positiveHeights height peers : Multiset ℕ) =
      positiveHeights height (peers.filter fun r => !lies r) + positiveHeights height
        (peers.filter lies) := by
  rw [Multiset.coe_add, Multiset.coe_eq_coe]
  have hsplit : (peers.filter (fun r => !lies r) ++ peers.filter lies).Perm peers :=
    List.perm_append_comm.trans (List.filter_append_perm lies peers)
  have happend : positiveHeights height (peers.filter (fun r => !lies r) ++ peers.filter lies) =
      positiveHeights height (peers.filter fun r => !lies r) ++
        positiveHeights height (peers.filter lies) := by
    simp [positiveHeights]
  exact happend ▸ positiveHeights_perm height hsplit.symm

theorem robustMedian_middle (peers : List PeerRef) :
    RobustMedian height peers ((middle (positiveHeights height peers : Multiset ℕ)).getD 0) := by
  cases hmiddle : middle (positiveHeights height peers : Multiset ℕ) with
  | none =>
    have hnil : positiveHeights height peers = [] :=
      (Multiset.coe_eq_zero _).mp (middle_eq_none_iff.mp hmiddle)
    refine ⟨fun _ => rfl, fun hne => absurd hnil hne, fun lies hfew => ?_⟩
    rw [hnil] at hfew
    exact absurd hfew (Nat.not_lt_zero _)
  | some h =>
    have hmedian := isMedian_of_middle hmiddle
    refine ⟨fun hnil => ?_, fun _ => hmedian, fun lies hfew => ?_⟩
    · rw [hnil] at hmedian
      exact absurd hmedian.mem (Multiset.notMem_zero h)
    · have hsplit := positiveHeights_split height peers lies
      have hcard := congrArg Multiset.card hsplit
      rw [Multiset.coe_card] at hcard
      rw [hsplit] at hmedian
      exact hmedian.between_honest (by rw [← hcard, Multiset.coe_card]; exact hfew)

/-- The network height is a median of the positive heights that no minority can
    move beyond what the others report, and the order of the peers is all the
    same to it. -/
theorem getNetworkHeight_robust (hheights : self.Reports height) :
    ∃ h : ℕ, getNetworkHeight env self = .ok (.num h) ∧
      RobustMedian height self.storage.getPeers h ∧
      ∀ other : Subsystem, other.storage.getPeers.Perm self.storage.getPeers → other.Reports height →
        getNetworkHeight env other = getNetworkHeight env self := by
  refine ⟨_, getNetworkHeight_eq hheights, robustMedian_middle _, ?_⟩
  intro other hperm hother
  have hsame := positiveHeights_perm height hperm
  rw [getNetworkHeight_eq hheights, getNetworkHeight_eq hother, Multiset.coe_eq_coe.mpr hsame]

/-- Three peers report a height, one of them far from the others, one reports
    none and one reports 0. -/
def sampleHeights : PeerRef → Option ℕ
  | 0 => some 1000000
  | 1 => some 7
  | 3 => some 5
  | 4 => some 0
  | _ => none

def sampleNetwork : Subsystem :=
  { Subsystem.new with
    heap := ⟨5, fun r =>
      ⟨{ Peer.new sampleEnv.options "" with state := .obj [("height", heightValue (sampleHeights r))] }, {}⟩⟩
    storage := { PeerStorage.new with
      peers := ⟨⟨[("10.0.0.1", 0), ("10.0.0.2", 1), ("10.0.0.3", 2), ("10.0.0.4", 3), ("10.0.0.5", 4)],
        by decide⟩⟩ } }

theorem getNetworkHeight_robust_sample : ∃ h : ℕ,
    getNetworkHeight sampleEnv sampleNetwork = .ok (.num h) ∧
      RobustMedian sampleHeights sampleNetwork.storage.getPeers h ∧
      ∀ other : Subsystem, other.storage.getPeers.Perm sampleNetwork.storage.getPeers →
        other.Reports sampleHeights → getNetworkHeight sampleEnv other =
          getNetworkHeight sampleEnv sampleNetwork :=
  getNetworkHeight_robust fun _ _ => rfl

end NetworkMonitor

end anisa.p2p
