import Anisa.Js.Json.Digits
import Anisa.P2p.Codec.RoundTrip

open anisa.js anisa.js.base64
open anisa.js.Json (isDigit_unit run_decimal foldl_units)

namespace anisa.p2p.codec

variable {N : Type} {nums : Numbers N} {fromArray : FromArray N} {m : Message N} {v : Json.Plain N}
  {fields : List (JsString × Message N)}

/-- What is true of every part of a message that comes from a text: there is no marker
    for `decode` left in it, and no `ArrayBuffer`. -/
def Received (u : Message N) : Prop :=
  match u with
  | .obj fields => Enumerated (fields.map Prod.fst) ∧ ¬ Base64Marked (.obj fields)
  | .host (.arrayBuffer _) => False
  | _ => True

theorem exists_revive_of_mem_inside (v : Json.Plain N) :
    ∀ u ∈ (revive v).inside, ∃ w ∈ v.inside, u = revive w := by
  have hself (v : Json.Plain N) : v ∈ v.inside := by cases v <;> exact List.mem_cons_self
  induction v using Json.induct with
  | null => exact List.forall_mem_singleton.mpr ⟨_, hself _, rfl⟩
  | bool b => exact List.forall_mem_singleton.mpr ⟨_, hself _, rfl⟩
  | num n => exact List.forall_mem_singleton.mpr ⟨_, hself _, rfl⟩
  | str s => exact List.forall_mem_singleton.mpr ⟨_, hself _, rfl⟩
  | host b => exact b.elim
  | arr xs ih =>
    obtain ⟨-, hxs⟩ := Json.forall_inside_arr.mp fun w (hw : w ∈ (Json.arr xs).inside) => hw
    rw [revive_arr, Json.forall_inside_arr]
    refine ⟨⟨_, hself _, revive_arr.symm⟩, List.forall_mem_map.mpr fun x hx u hu => ?_⟩
    obtain ⟨w, hw, rfl⟩ := ih x hx u hu
    exact ⟨w, hxs x hx w hw, rfl⟩
  | obj fields ih =>
    obtain ⟨-, hfields⟩ := Json.forall_inside_obj.mp fun w (hw : w ∈ (Json.obj fields).inside) => hw
    by_cases hmarked : Base64Marked (.obj (fields.map fun field => (field.1, revive field.2)))
    · obtain ⟨bytes, hbytes⟩ := revived_of_marked hmarked
      have hbuffer : revive (.obj fields) = .host (.buffer bytes) := by rw [revive_obj, hbytes]
      rw [hbuffer]
      exact List.forall_mem_singleton.mpr ⟨_, hself _, hbuffer.symm⟩
    · have hobject : revive (.obj fields) = .obj (fields.map fun field => (field.1, revive field.2)) := by
        rw [revive_obj, revived_of_not_marked hmarked]
      rw [hobject, Json.forall_inside_obj]
      refine ⟨⟨_, hself _, hobject.symm⟩, List.forall_mem_map.mpr fun field hfield u hu => ?_⟩
      obtain ⟨w, hw, rfl⟩ := ih field hfield u hu
      exact ⟨w, hfields field hfield w hw, rfl⟩

/-- An object is revived as a `Buffer`, or as an object with the same keys that is not
    marked. -/
theorem revive_obj_cases (fields : List (JsString × Json.Plain N)) :
    (∃ bytes, revive (.obj fields) = .host (.buffer bytes)) ∨
      ∃ rest, revive (.obj fields) = .obj rest ∧ rest.map Prod.fst = fields.map Prod.fst ∧
        ¬ Base64Marked (.obj rest) := by
  rw [revive_obj]
  by_cases hmarked : Base64Marked (.obj (fields.map fun field => (field.1, revive field.2)))
  · exact .inl (revived_of_marked hmarked)
  · refine .inr ⟨_, revived_of_not_marked hmarked, ?_, hmarked⟩
    rw [List.map_map]
    rfl

theorem received_revive (v : Json.Plain N) (hv : Json.InOrder v) : ∀ u ∈ (revive v).inside, Received u := by
  intro u hu
  obtain ⟨w, hw, rfl⟩ := exists_revive_of_mem_inside v u hu
  have henumerates := hv w hw
  cases w with
  | host b => exact b.elim
  | arr xs =>
    rw [revive_arr]
    trivial
  | obj fields =>
    obtain ⟨bytes, hbytes⟩ | ⟨rest, hrest, hkeys, hmarked⟩ := revive_obj_cases fields
    · rw [hbytes]
      trivial
    · rw [hrest]
      exact ⟨hkeys ▸ henumerates, hmarked⟩
  | _ => trivial

theorem wellFormed_revive (v : Json.Plain N) (hv : ∀ w ∈ v.inside, Json.WellFormed nums w) :
    ∀ u ∈ (revive v).inside, Json.WellFormed nums u := by
  intro u hu
  obtain ⟨w, hw, rfl⟩ := exists_revive_of_mem_inside v u hu
  have hwellFormed := hv w hw
  cases w with
  | host b => exact b.elim
  | num n => exact hwellFormed
  | arr xs =>
    rw [revive_arr]
    trivial
  | obj fields =>
    obtain ⟨bytes, hbytes⟩ | ⟨rest, hrest, hkeys, -⟩ := revive_obj_cases fields
    · rw [hbytes]
      trivial
    · rw [hrest, Json.WellFormed, hkeys]
      exact hwellFormed
  | _ => trivial

/-- What becomes of a value over one connection is a scalar or an array only if the
    value was. -/
structure Resembles (m n : Message N) : Prop where
  bool : ∀ b, n = .bool b → m = .bool b
  str : ∀ s, n = .str s → m = .str s
  arr : ∀ xs, n = .arr xs → ∃ ys, m = .arr ys

/-- The fields of an object under the same names, with values that resemble. -/
def FieldsResemble (fields rest : List (JsString × Message N)) : Prop :=
  List.Forall₂ (fun field entry => field.1 = entry.1 ∧ Resembles field.2 entry.2) fields rest

theorem FieldsResemble.property {rest : List (JsString × Message N)} (h : FieldsResemble fields rest)
    {name : String} {n : Message N} (hn : property (.obj rest) name = some n) :
    ∃ m, property (.obj fields) name = some m ∧ Resembles m n := by
  simp only [codec.property] at hn ⊢
  induction h with
  | nil => cases hn
  | @cons field entry fields rest hhead htail ih =>
    obtain ⟨key, m⟩ := field
    obtain ⟨key', n'⟩ := entry
    obtain ⟨rfl, hresembles⟩ : key = key' ∧ Resembles m n' := hhead
    rw [List.lookup_cons] at hn ⊢
    cases hkey : units name == key with
    | true =>
      rw [hkey] at hn
      obtain rfl := Option.some.inj hn
      exact ⟨m, rfl, hresembles⟩
    | false =>
      rw [hkey] at hn
      exact ih hn

theorem FieldsResemble.base64Marked {rest : List (JsString × Message N)} (h : FieldsResemble fields rest)
    (hmarked : Base64Marked (.obj rest)) : Base64Marked (.obj fields) := by
  obtain ⟨hbase64, data, hdata⟩ := hmarked
  obtain ⟨m, hm, hbool⟩ := h.property hbase64
  obtain ⟨n, hn, hstr⟩ := h.property hdata
  rw [hbool.bool true rfl] at hm
  rw [hstr.str data rfl] at hn
  exact ⟨hm, data, hn⟩

theorem FieldsResemble.bufferMarked {rest : List (JsString × Message N)} (h : FieldsResemble fields rest)
    (hmarked : BufferMarked (.obj rest)) : BufferMarked (.obj fields) := by
  obtain ⟨htype, data, hdata⟩ := hmarked
  obtain ⟨m, hm, hstr⟩ := h.property htype
  obtain ⟨n, hn, harr⟩ := h.property hdata
  obtain ⟨xs, rfl⟩ := harr.arr data rfl
  rw [hstr.str _ rfl] at hm
  exact ⟨hm, xs, hn⟩

/-- The message resembles what its serialized value is revived as, and that is
    serialized to the same value again. -/
structure Settles (nums : Numbers N) (fromArray : FromArray N) (m : Message N) (v : Json.Plain N) : Prop where
  inOrder : Json.InOrder v
  again : serialize nums fromArray (revive (Json.readBack nums v)) = .ok (Json.readBack nums v)
  resembles : Resembles m (revive (Json.readBack nums v))

theorem replaced_buffer (hfromArray : ∀ bytes, fromArray (byteValues nums bytes) = .ok bytes)
    (bytes : List UInt8) : binaryToBase64Replacer fromArray (toJSON nums (.host (.buffer bytes))) =
      .ok (base64Object (toBase64 bytes)) := by
  have hjson : binaryToBase64Replacer fromArray (toJSON nums (.host (.buffer bytes))) =
      (fromArray (byteValues nums bytes)).map fun bytes => base64Object (toBase64 bytes) := rfl
  rw [hjson, hfromArray]
  rfl

theorem settles_binary (hfromArray : ∀ bytes, fromArray (byteValues nums bytes) = .ok bytes)
    {bytes : List UInt8} (h : binaryToBase64Replacer fromArray (toJSON nums m) =
      .ok (base64Object (toBase64 bytes)))
    (hv : serialize nums fromArray m = .ok v) : Settles nums fromArray m v := by
  rw [serialize_base64Object h] at hv
  obtain rfl := Except.ok.inj hv
  have hread : Json.readBack nums
      (.obj [(units "base64", .bool true), (units "data", .str (toBase64 bytes))]) =
      .obj [(units "base64", .bool true), (units "data", .str (toBase64 bytes))] := rfl
  refine ⟨?_, ?_, ?_⟩
  · have hkeys : Enumerated [units "base64", units "data"] := ⟨by decide, by decide⟩
    refine Json.inOrder_obj.mpr ⟨hkeys, ?_⟩
    simp [Json.InOrder, Json.inside, Json.Enumerates]
  · rw [hread, revive_base64Object, serialize_base64Object (replaced_buffer hfromArray bytes)]
  · rw [hread, revive_base64Object]
    constructor <;> intro _ h <;> cases h

/-- What is received settles. -/
theorem settles_of_received (hfromArray : ∀ bytes, fromArray (byteValues nums bytes) = .ok bytes)
    (m : Message N) (hm : ∀ u ∈ m.inside, Received u) (hv : serialize nums fromArray m = .ok v) :
    Settles nums fromArray m v := by
  induction m using Json.induct generalizing v with
  | null =>
    rw [serialize] at hv
    obtain rfl := Except.ok.inj hv
    refine ⟨by simp [Json.InOrder, Json.inside, Json.Enumerates], by rw [serialize]; rfl, ?_⟩
    constructor <;> intro _ h <;> cases h
  | bool b =>
    rw [serialize] at hv
    obtain rfl := Except.ok.inj hv
    refine ⟨by simp [Json.InOrder, Json.inside, Json.Enumerates], by rw [serialize]; rfl, ?_⟩
    exact ⟨fun _ h => h, (fun _ h => by cases h), (fun _ h => by cases h)⟩
  | num n =>
    rw [serialize] at hv
    obtain rfl := Except.ok.inj hv
    refine ⟨by simp [Json.InOrder, Json.inside, Json.Enumerates], ?_, ?_⟩
    · rw [Json.readBack]
      split_ifs <;>
      · rw [serialize]
        rfl
    · rw [Json.readBack]
      split_ifs <;> constructor <;> intro _ h <;> cases h
  | str s =>
    rw [serialize] at hv
    obtain rfl := Except.ok.inj hv
    refine ⟨by simp [Json.InOrder, Json.inside, Json.Enumerates], by rw [serialize]; rfl, ?_⟩
    exact ⟨(fun _ h => by cases h), fun _ h => h, (fun _ h => by cases h)⟩
  | host binary =>
    cases binary with
    | arrayBuffer bytes => exact (hm _ (List.mem_singleton.mpr rfl)).elim
    | buffer bytes => exact settles_binary hfromArray (replaced_buffer hfromArray bytes) hv
  | arr xs ih =>
    obtain ⟨-, hxs⟩ := Json.forall_inside_arr.mp hm
    rw [serialize_of_arr rfl] at hv
    obtain ⟨ys, hys, rfl⟩ := map_eq_ok_iff.mp hv
    have heach (y) (hy : y ∈ ys) : ∃ x, Settles nums fromArray x y := by
      obtain ⟨x, hx, hserialize⟩ := exists_of_mem_forall₂ (forall₂_of_mapM hys) y hy
      exact ⟨x, ih x hx (hxs x hx) hserialize⟩
    refine ⟨Json.inOrder_arr.mpr fun y hy => ?_, ?_, ?_⟩
    · obtain ⟨x, hsettles⟩ := heach y hy
      exact hsettles.inOrder
    · have hagain : ((ys.map (Json.readBack nums)).map revive).mapM (serialize nums fromArray) =
          .ok (ys.map (Json.readBack nums)) := by
        rw [List.map_map, List.mapM_map]
        refine mapM_of_ok fun y hy => ?_
        obtain ⟨x, hsettles⟩ := heach y hy
        exact hsettles.again
      rw [Json.readBack_arr, revive_arr, serialize_of_arr rfl, hagain]
      rfl
    · rw [Json.readBack_arr, revive_arr]
      exact ⟨(fun _ h => by cases h), (fun _ h => by cases h), fun _ _ => ⟨xs, rfl⟩⟩
  | obj fields ih =>
    obtain ⟨⟨henumerated, hbase64⟩, hfields⟩ := Json.forall_inside_obj.mp hm
    by_cases hbuffer : BufferMarked (.obj fields)
    · cases hreplaced : binaryToBase64Replacer fromArray (.obj fields) with
      | error e =>
        rw [serialize_of_error hreplaced] at hv
        cases hv
      | ok replaced =>
        obtain ⟨bytes, rfl⟩ := replaced_of_marked hbuffer hreplaced
        exact settles_binary hfromArray hreplaced hv
    · rw [serialize_of_obj (replaced_of_not_marked hbuffer)] at hv
      obtain ⟨ys, hys, rfl⟩ := map_eq_ok_iff.mp hv
      have heach := forall₂_of_mapM hys
      have hsettles : List.Forall₂ (fun field entry => field.1 = entry.1 ∧
          Settles nums fromArray field.2 entry.2) fields ys := by
        rw [List.forall₂_iff_get] at heach ⊢
        refine ⟨heach.1, fun i hi hj => ?_⟩
        obtain ⟨w, hw, hentry⟩ := map_eq_ok_iff.mp (heach.2 i hi hj)
        have hmem : fields.get ⟨i, hi⟩ ∈ fields := List.get_mem _ _
        rw [← hentry]
        exact ⟨rfl, ih _ hmem (hfields _ hmem) hw⟩
      have hkeys : List.Forall₂ Eq (fields.map Prod.fst) (ys.map Prod.fst) := by
        rw [List.forall₂_map_left_iff, List.forall₂_map_right_iff]
        exact hsettles.imp fun _ _ h => h.1
      rw [List.forall₂_eq_eq_eq] at hkeys
      have hall (entry) (hentry : entry ∈ ys) : ∃ u, Settles nums fromArray u entry.2 := by
        obtain ⟨field, -, -, hfield⟩ := exists_of_mem_forall₂ hsettles entry hentry
        exact ⟨field.2, hfield⟩
      have hresemble : FieldsResemble fields
          (ys.map fun entry => (entry.1, revive (Json.readBack nums entry.2))) := by
        rw [FieldsResemble, List.forall₂_map_right_iff]
        exact hsettles.imp fun _ _ h => ⟨h.1, h.2.resembles⟩
      have hrevived : revive (Json.readBack nums (.obj ys)) =
          .obj (ys.map fun entry => (entry.1, revive (Json.readBack nums entry.2))) := by
        rw [Json.readBack_obj, revive_obj, List.map_map]
        exact revived_of_not_marked fun hmarked => hbase64 (hresemble.base64Marked hmarked)
      refine ⟨Json.inOrder_obj.mpr ⟨hkeys ▸ henumerated, fun entry hentry => ?_⟩, ?_, ?_⟩
      · obtain ⟨u, hu⟩ := hall entry hentry
        exact hu.inOrder
      · have hagain : (ys.map fun entry => (entry.1, revive (Json.readBack nums entry.2))).mapM
            (fun field => (serialize nums fromArray field.2).map fun v => (field.1, v)) =
            .ok (ys.map fun entry => (entry.1, Json.readBack nums entry.2)) := by
          rw [List.mapM_map]
          refine mapM_of_ok fun entry hentry => ?_
          obtain ⟨u, hu⟩ := hall entry hentry
          simp only [Function.comp_apply, hu.again]
          rfl
        rw [hrevived, Json.readBack_obj, serialize_of_obj
          (replaced_of_not_marked fun hmarked => hbuffer (hresemble.bufferMarked hmarked)), hagain]
        rfl
      · rw [hrevived]
        constructor <;> intro _ h <;> cases h

/-! What comes from a text. -/

variable {text wire : JsString}

theorem start_of_valid (h : validJSONStart text = true) :
    ∃ c rest, text.dropWhile Json.isWhitespace = c :: rest ∧ (c = unit '\x7b' ∨ c = unit '[') := by
  unfold validJSONStart at h
  split at h
  · rename_i c rest hstart
    exact ⟨c, rest, hstart, by simpa using h⟩
  · cases h

theorem isObject_revive (h : Json.IsComposite v) : IsObject (revive v) := by
  obtain ⟨xs, rfl⟩ | ⟨fields, rfl⟩ := h
  · rw [revive_arr]
    trivial
  · obtain ⟨bytes, hbytes⟩ | ⟨rest, hrest, -⟩ := revive_obj_cases fields
    · rw [hbytes]
      trivial
    · rw [hrest]
      trivial

theorem isComposite_readBack (h : Json.IsComposite v) : Json.IsComposite (Json.readBack nums v) := by
  obtain ⟨xs, rfl⟩ | ⟨fields, rfl⟩ := h
  · exact .inl ⟨_, Json.readBack_arr⟩
  · exact .inr ⟨_, Json.readBack_obj⟩

theorem decode_cases (h : decode nums text = some m) :
    m = .str text ∨ isPingOrPong text = false ∧ IsObject m ∧
      ∃ v, Json.parse nums text = some v ∧ m = revive v := by
  unfold decode at h
  split at h
  · cases h
  split at h
  · exact .inl (Option.some.inj h).symm
  rename_i hping
  split at h
  · exact .inl (Option.some.inj h).symm
  · rename_i hvalid
    split at h
    · rename_i v hparse
      obtain rfl := Option.some.inj h
      obtain ⟨c, rest, hstart, hc⟩ := start_of_valid (by simpa using hvalid)
      have hobject := isObject_revive (Json.isComposite_parse hstart hc hparse)
      exact .inr ⟨by simpa using hping, hobject, v, hparse, rfl⟩
    · exact .inl (Option.some.inj h).symm

/-- A message that is passed on as it was received becomes, where it is received, the
    value that its serialized value is read back as. -/
theorem decode_of_encode (hnums : Json.Stable nums) (hobject : IsObject m)
    (hv : serialize nums fromArray m = .ok v) (hinOrder : Json.InOrder v) :
    decode nums (Json.print nums v) = some (revive (Json.readBack nums v)) := by
  rw [← Json.print_readBack hnums v]
  exact decode_print (Json.wellFormed_readBack hnums v hinOrder)
    (isComposite_readBack (isObject_serialize hobject hv))

theorem encode_str (hplain : isPingOrPong text = false) :
    encode nums fromArray (.str text) = .ok (Json.quote text) := by
  have hserialize : serialize nums fromArray (.str text) = .ok (.str text) := by
    rw [serialize]
    rfl
  rw [encode, if_neg (by simp [hplain]), hserialize]
  rfl

/-- A quoted text is decoded to itself, quotes and all. -/
theorem decode_quote : decode nums (Json.quote text) = some (.str (Json.quote text)) := by
  have hping : isPingOrPong (Json.quote text) = false := by
    simp [isPingOrPong, Json.quote, units, unit, Json.quotationMark]
  have hstart : (!validJSONStart (Json.quote text)) = true := rfl
  rw [decode, if_neg (by simp [Json.quote]), if_neg (by simp [hping]), if_pos hstart]

theorem length_quote_gt : text.length < (Json.quote text).length := by
  have hunits (paired : Bool) : text.length ≤ (Json.quoteUnits paired text).length := by
    induction text generalizing paired with
    | nil => exact Nat.zero_le _
    | cons c text ih =>
      have hunit {lone : Bool} : 1 ≤ (Json.quoteUnit lone c).length := by
        unfold Json.quoteUnit
        split
        · exact Nat.le_add_left 1 1
        · split_ifs
          · exact Nat.le_add_left 1 5
          · exact Nat.le_refl 1
      rw [Json.quoteUnits, List.length_append, List.length_cons, Nat.add_comm]
      exact Nat.add_le_add hunit (ih _)
  have hlength := hunits false
  simp only [Json.quote, List.cons_append, List.length_cons, List.length_append]
  omega

/-- A text that is neither of an array nor of an object, and no ping or pong, gets
    quotes each time it is passed on. -/
theorem text_grows (hplain : isPingOrPong text = false)
    (hwire : encode nums fromArray (.str text) = .ok wire) :
    decode nums wire = some (.str wire) ∧ text.length < wire.length ∧ isPingOrPong wire = false := by
  rw [encode_str hplain] at hwire
  obtain rfl := Except.ok.inj hwire
  refine ⟨decode_quote, length_quote_gt, ?_⟩
  simp [isPingOrPong, Json.quote, units, unit, Json.quotationMark]

/-- The message that comes of one that was received is the same exactly if nothing in it
    is taken for a `Buffer` in JSON, and its numbers have texts. -/
theorem revive_readBack_eq_iff (hnums : Json.Stable nums)
    (hfromArray : ∀ bytes, fromArray (byteValues nums bytes) = .ok bytes) (hm : ∀ u ∈ m.inside, Received u)
    (hv : serialize nums fromArray m = .ok v) :
    revive (Json.readBack nums v) = m ↔
      ∀ u ∈ m.inside, ¬ BufferMarked u ∧ ∀ n, u = .num n → Json.Exact nums n := by
  have hbuffers : asBuffers m = m := by
    refine asBuffers_eq_self m fun u hu bytes => ?_
    rintro rfl
    exact hm _ hu
  refine ⟨fun hsame => ?_, fun h => ?_⟩
  · have hinOrder := (settles_of_received hfromArray m hm hv).inOrder
    have hwellFormed := wellFormed_revive _ (Json.wellFormed_readBack hnums v hinOrder)
    rw [hsame] at hwellFormed
    rw [Json.readBack_eq_self v (wellFormed_serialize m hwellFormed hv)] at hsame
    have hunmarked := unmarked_of_revive m hv (hsame.trans hbuffers.symm)
    refine fun u hu => ⟨(hunmarked u hu).2, ?_⟩
    rintro n rfl
    exact hwellFormed _ hu
  · have hwellFormed : ∀ u ∈ m.inside, Json.WellFormed nums u := by
      intro u hu
      have hreceived := hm u hu
      cases u with
      | num n => exact (h _ hu).2 n rfl
      | obj fields => exact hreceived.1
      | _ => trivial
    have hunmarked : Unmarked m := by
      intro u hu
      have hreceived := hm u hu
      refine ⟨?_, (h u hu).1⟩
      cases u with
      | obj fields => exact hreceived.2
      | _ => simp [Base64Marked, property]
    obtain ⟨w, hw, hrevive⟩ := serialize_of_unmarked hfromArray m hunmarked
    obtain rfl : v = w := Except.ok.inj (hv.symm.trans hw)
    rw [Json.readBack_eq_self v (wellFormed_serialize m hwellFormed hv), hrevive, hbuffers]

/-- What a peer passes on of what it received. From the first time on it is passed on as
    the same text, if it is an array, an object, a ping or a pong, and any other text never
    is. It is the message that was received exactly if nothing in that was taken for a
    `Buffer`, and its numbers have texts. -/
theorem passedOn_settles_iff (hnums : Json.Stable nums)
    (hfromArray : ∀ bytes, fromArray (byteValues nums bytes) = .ok bytes) (hm : decode nums text = some m)
    (hwire : encode nums fromArray m = .ok wire) :
    ∃ n, decode nums wire = some n ∧
      (encode nums fromArray n = .ok wire ↔ IsObject m ∨ isPingOrPong text = true) ∧
      (n = m ↔ isPingOrPong text = true ∨
        IsObject m ∧ ∀ u ∈ m.inside, ¬ BufferMarked u ∧ ∀ x, u = .num x → Json.Exact nums x) := by
  obtain rfl | ⟨hping, hobject, v, hparse, rfl⟩ := decode_cases hm
  · have hstr : ¬ IsObject (.str text : Message N) := id
    cases hping : isPingOrPong text with
    | true =>
      have hsame : wire = text := by
        rw [encode, if_pos hping] at hwire
        exact (Except.ok.inj hwire).symm
      subst hsame
      exact ⟨_, hm, by simp [hwire], by simp⟩
    | false =>
      obtain ⟨hdecode, hlonger, hplain⟩ := text_grows hping hwire
      refine ⟨_, hdecode, ?_, ?_⟩
      · rw [encode_str hplain]
        refine iff_of_false (fun h => ?_) (by simp [hstr])
        have hlength : wire.length < (Json.quote wire).length := length_quote_gt
        rw [Except.ok.inj h] at hlength
        exact Nat.lt_irrefl _ hlength
      · refine iff_of_false (fun h => ?_) (by simp [hstr])
        rw [Json.str.inj h] at hlonger
        exact Nat.lt_irrefl _ hlonger
  · have hreceived := received_revive v (Json.inOrder_parse hparse)
    rw [encode_of_isObject hobject] at hwire
    obtain ⟨w, hw, rfl⟩ := map_eq_ok_iff.mp hwire
    have hsettles := settles_of_received hfromArray _ hreceived hw
    have hagain : encode nums fromArray (revive (Json.readBack nums w)) = .ok (Json.print nums w) := by
      have hcomposite : Json.IsComposite (Json.readBack nums w) :=
        isComposite_readBack (isObject_serialize hobject hw)
      rw [encode_of_isObject (isObject_revive hcomposite), hsettles.again, ← Json.print_readBack hnums w]
      rfl
    refine ⟨_, decode_of_encode hnums hobject hw hsettles.inOrder, ?_, ?_⟩
    · exact iff_of_true hagain (.inl hobject)
    · rw [revive_readBack_eq_iff hnums hfromArray hreceived hw]
      simp [hping, hobject]

/-- Integers are read back from their texts. -/
theorem exact_decimal (n : ℤ) : Json.Exact decimal n := by
  have hdigits (c) (hc : c ∈ Nat.toDigits 10 n.natAbs) : c.isDigit = true :=
    Nat.isDigit_of_mem_toDigits (by decide) (by decide) hc
  have hvalue := foldl_units hdigits
  have hback : Nat.ofDigitChars 10 (Nat.toDigits 10 n.natAbs) 0 = n.natAbs := Nat.ofDigitChars_ten_toDigits
  obtain ⟨hstart, hminus⟩ := run_decimal (isDecimal_toDigits n.natAbs)
  by_cases hneg : n < 0
  · have hprint : decimal.print n = unit '-' :: (Nat.toDigits 10 n.natAbs).map unit := by
      simp only [decimal, if_pos hneg]
      rfl
    have hparse : decimal.parse (unit '-' :: (Nat.toDigits 10 n.natAbs).map unit) =
        -(Nat.ofDigitChars 10 (Nat.toDigits 10 n.natAbs) 0 : ℤ) := by
      rw [← hvalue]
      rfl
    rw [Json.Exact, hprint, hparse, hback]
    exact ⟨hminus, by omega⟩
  · have hprint : decimal.print n = (Nat.toDigits 10 n.natAbs).map unit := by
      simp only [decimal, if_neg hneg, List.nil_append]
    have hhead : ((Nat.toDigits 10 n.natAbs).map unit).head? ≠ some (unit '-') := by
      intro hminus
      rw [List.head?_map, Option.map_eq_some_iff] at hminus
      obtain ⟨c, hc, hsame⟩ := hminus
      have hdigit := (isDigit_unit (hdigits c (List.mem_of_mem_head? hc))).1
      rw [hsame] at hdigit
      cases hdigit
    have hparse : decimal.parse ((Nat.toDigits 10 n.natAbs).map unit) =
        (Nat.ofDigitChars 10 (Nat.toDigits 10 n.natAbs) 0 : ℤ) := by
      simp only [decimal, if_neg hhead]
      exact hvalue
    rw [Json.Exact, hprint, hparse, hback]
    exact ⟨hstart, by omega⟩

theorem stable_decimal : Json.Stable decimal := by
  intro n
  obtain ⟨hnumber, hparse⟩ := exact_decimal n
  exact .inr ⟨hnumber, by rw [hparse]⟩

/-- Two bytes and a number. -/
def reply : Json.Plain ℤ :=
  .arr [.obj [(units "base64", .bool true), (units "data", .str (toBase64 [1, 2]))], .num (-7)]

theorem passedOn_reply : ∃ n, decode decimal (Json.print decimal reply) = some n ∧
    encode decimal truncated n = .ok (Json.print decimal reply) ∧
      n = .arr [.host (.buffer [1, 2]), .num (-7)] := by
  have hrevive : revive reply = .arr [.host (.buffer [1, 2]), .num (-7)] := by
    rw [reply, revive_arr, List.map_cons, revive_base64Object]
    rfl
  have hkeys : Enumerated [units "base64", units "data"] := ⟨by decide, by decide⟩
  have hwellFormed : ∀ u ∈ reply.inside, Json.WellFormed decimal u := by
    simp [reply, Json.inside, Json.insideElements, Json.insideFields, Json.WellFormed, exact_decimal, hkeys]
  have hdecode : decode decimal (Json.print decimal reply) =
    some (.arr [.host (.buffer [1, 2]), .num (-7)]) := by
    rw [← hrevive]
    exact decode_print hwellFormed (.inl ⟨_, rfl⟩)
  have hunmarked : Unmarked (.arr [.host (.buffer [1, 2]), .num (-7)] : Message ℤ) := by
    simp [Unmarked, Json.inside, Json.insideElements, Base64Marked, BufferMarked, property]
  have hencode : encode decimal truncated (.arr [.host (.buffer [1, 2]), .num (-7)]) =
      .ok (Json.print decimal reply) := by
    have hnumber : serialize decimal truncated (.num (-7)) = .ok (.num (-7)) := by
      rw [serialize]
      rfl
    have hobject : IsObject (.arr [.host (.buffer [1, 2]), .num (-7)] : Message ℤ) := trivial
    rw [encode_of_isObject hobject, serialize_of_arr rfl, List.mapM_cons, List.mapM_cons, List.mapM_nil,
      serialize_base64Object (replaced_buffer truncated_byteValues [1, 2]), hnumber]
    rfl
  obtain ⟨n, hn, hagain, hsame⟩ := passedOn_settles_iff stable_decimal truncated_byteValues hdecode hencode
  refine ⟨n, hn, hagain.mpr (.inl trivial), hsame.mpr (.inr ⟨trivial, fun u hu => ⟨(hunmarked u hu).2, ?_⟩⟩)⟩
  exact fun x _ => exact_decimal x

end anisa.p2p.codec
