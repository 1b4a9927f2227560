import Anisa.Container.PeersJson
import Anisa.Merge
import Anisa.Transition.Observations

open anisa.js anisa.merge anisa.transition
open anisa.js.Json (truthy property ownProperty iterate strictEquals InOrder Stable readBack)

namespace anisa.container.peersJson

variable {N : Type} {nums : Numbers N} {elsewhere : Elsewhere N} {text key : JsString}
  {v seed peer : Json.Plain N} {fields : List (JsString × Json.Plain N)} {list peers : List (Json.Plain N)}

/-- What tells two seeds apart. -/
def address : Json.Plain N → Option (JsString × N)
  | .obj fields =>
    match ownProperty fields (units "ip"), ownProperty fields (units "port") with
    | some (.str ip), some (.num port) => some (ip, port)
    | _, _ => none
  | _ => none

/-- An object with an ip and a port that is finite. -/
structure IsSeed (nums : Numbers N) (v : Json.Plain N) : Prop where
  inOrder : InOrder v
  address : ∃ ip port, address v = some (ip, port) ∧ Json.Exact nums port

theorem address_eq_some_iff {ip : JsString} {port : N} :
    address v = some (ip, port) ↔ ∃ fields, v = .obj fields ∧
    ownProperty fields (units "ip") = some (.str ip) ∧
      ownProperty fields (units "port") = some (.num port) := by
  cases v with
  | obj fields =>
    simp only [address, Json.obj.injEq, exists_eq_left']
    constructor
    · intro h
      split at h
      · rename_i hip hport
        obtain ⟨rfl, rfl⟩ := Prod.mk.inj (Option.some.inj h)
        exact ⟨hip, hport⟩
      · cases h
    · rintro ⟨hip, hport⟩
      rw [hip, hport]
  | _ => simp [address]

theorem ownProperty_map_readBack :
    ownProperty (fields.map fun field => (field.1, readBack nums field.2)) key =
      (ownProperty fields key).map (readBack nums) := OrderedMap.lookup_map_snd (readBack nums)

theorem inOrder_readBack (h : Stable nums) (hv : InOrder v) : InOrder (readBack nums v) := by
  intro u hu
  have hwellFormed := Json.wellFormed_readBack h v hv u hu
  cases u <;> trivial

theorem IsSeed.address_readBack (h : IsSeed nums v) :
    peersJson.address (readBack nums v) = peersJson.address v := by
  obtain ⟨-, ip, port, haddress, hexact⟩ := h
  obtain ⟨fields, rfl, hip, hport⟩ := address_eq_some_iff.mp haddress
  have hread : readBack nums (.num port) = .num port := by rw [readBack, if_pos hexact.1, hexact.2]
  rw [haddress, Json.readBack_obj, address_eq_some_iff]
  refine ⟨_, rfl, ?_, ?_⟩
  · rw [ownProperty_map_readBack, hip]
    rfl
  · rw [ownProperty_map_readBack, hport, Option.map_some, hread]

theorem IsSeed.readBack (hnums : Stable nums) (h : IsSeed nums v) : IsSeed nums (readBack nums v) := by
  refine ⟨inOrder_readBack hnums h.inOrder, ?_⟩
  rw [h.address_readBack]
  exact h.address

/-- A file as it should be: an object, and a list of seeds if there is any. -/
structure IsPeersFile (nums : Numbers N) (v : Json.Plain N) : Prop where
  inOrder : InOrder v
  list : ∃ fields, v = .obj fields ∧
    ∀ list, (ownProperty fields (units "list")).filter (truthy nums) = some list →
      ∃ seeds, list = .arr seeds ∧ ∀ seed ∈ seeds, IsSeed nums seed

/-- The seeds that the file lists. -/
def seeds : Json.Plain N → List (Json.Plain N)
  | .obj fields =>
    match ownProperty fields (units "list") with
    | some (.arr seeds) => seeds
    | _ => []
  | _ => []

theorem ownProperty_withList (henumerated : Enumerated (fields.map Prod.fst)) (list : List (Json.Plain N)) :
    ∃ fields', withList (.obj fields) list = .obj fields' ∧
      ∀ key, ownProperty fields' key = if key = units "list" then some (.arr list)
        else ownProperty fields key := by
  refine ⟨_, rfl, fun key => ?_⟩
  have hnodup : ((OrderedMap.setEntries (units "list") (.arr list) fields).map Prod.fst).Nodup :=
    OrderedMap.nodup_setEntries henumerated.nodup
  have hperm := ownOrder_perm (OrderedMap.setEntries (units "list") (.arr list) fields)
  calc ownProperty (ownOrder (OrderedMap.setEntries (units "list") (.arr list) fields)) key
      = ownProperty (OrderedMap.setEntries (units "list") (.arr list) fields) key :=
        OrderedMap.lookup_perm hperm ((hperm.map Prod.fst).nodup_iff.mpr hnodup)
    _ = if key = units "list" then some (.arr list) else ownProperty fields key :=
        OrderedMap.get_set (m := ⟨fields, henumerated.nodup⟩)

theorem inOrder_withList (hv : InOrder (.obj fields)) (hlist : ∀ seed ∈ list, InOrder seed) :
    InOrder (withList (.obj fields) list) := by
  obtain ⟨henumerated, hfields⟩ := Json.inOrder_obj.mp hv
  have hset : Json.FieldsInOrder (OrderedMap.setEntries (units "list") (.arr list) fields) :=
    Json.FieldsInOrder.set ⟨henumerated.nodup, hfields⟩ (Json.inOrder_arr.mpr hlist)
  exact hset.inOrder

/-- The file with another list of seeds. -/
theorem IsPeersFile.withList (hv : IsPeersFile nums v) (hlist : ∀ seed ∈ list, IsSeed nums seed) :
    IsPeersFile nums (peersJson.withList v list) ∧ seeds (peersJson.withList v list) = list := by
  obtain ⟨hinOrder, fields, rfl, -⟩ := hv
  obtain ⟨fields', heq, hproperty⟩ := ownProperty_withList (Json.inOrder_obj.mp hinOrder).1 list
  have hthis : ownProperty fields' (units "list") = some (.arr list) := by rw [hproperty, if_pos rfl]
  refine ⟨⟨inOrder_withList hinOrder fun seed hseed => (hlist seed hseed).inOrder, fields', heq, ?_⟩, ?_⟩
  · intro found hfound
    rw [hthis] at hfound
    obtain rfl := Option.some.inj hfound
    exact ⟨list, rfl, hlist⟩
  · rw [heq, seeds, hthis]

/-- A file that is written with its numbers is still one. -/
theorem IsPeersFile.readBack (hnums : Stable nums) (hv : IsPeersFile nums v) :
    IsPeersFile nums (readBack nums v) := by
  obtain ⟨hinOrder, fields, rfl, hlist⟩ := hv
  refine ⟨inOrder_readBack hnums hinOrder, _, Json.readBack_obj, fun found hfound => ?_⟩
  rw [ownProperty_map_readBack] at hfound
  cases hproperty : ownProperty fields (units "list") with
  | none =>
    rw [hproperty] at hfound
    cases hfound
  | some list =>
    have htruthy : truthy nums list = true := by
      rw [hproperty, Option.map_some, Option.filter_eq_some_iff] at hfound
      obtain ⟨hsame, htruthy⟩ := hfound
      obtain rfl := Option.some.inj hsame
      cases list with
      | num n =>
        rw [Json.readBack] at htruthy
        obtain hnull | ⟨hnumber, hprint⟩ := hnums n
        · rw [hnull] at htruthy
          cases htruthy
        · rw [if_pos hnumber, truthy, hprint] at htruthy
          exact htruthy
      | _ => first | rfl | exact htruthy
    obtain ⟨found', rfl, hseeds⟩ := hlist list (by rw [hproperty]; simp [Option.filter, htruthy])
    rw [hproperty, Option.map_some, Option.filter_eq_some_iff] at hfound
    refine ⟨found'.map (Json.readBack nums), ?_, List.forall_mem_map.mpr
      fun seed hseed => (hseeds seed hseed).readBack hnums⟩
    rw [← Option.some.inj hfound.1, Json.readBack_arr]

variable [DecidableEq N]

/-- A seed as the configuration files have it. -/
def seedOf (ip : String) (port : ℕ) : Json.Plain ℕ :=
    .obj [(units "ip", .str (units ip)), (units "port", .num port)]

def listed : List (JsString × Json.Plain ℕ) :=
  [(units "list", .arr [seedOf "10.0.0.1" 4002]), (units "sources", .arr [.str (units "https://seeds")])]

end anisa.container.peersJson
