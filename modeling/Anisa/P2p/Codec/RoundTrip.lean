import Anisa.Js.Base64.Standard
import Anisa.Js.Json.RoundTrip
import Anisa.P2p.Codec

open anisa.js anisa.js.base64

namespace anisa.p2p.codec

/-! The text of an `ArrayBuffer` is that of a `Buffer`. -/

theorem base64Chars_eq_digit {n : Nat} (h : n < 64) : base64Chars.getD n 0 = digit n := by
  have hall : ∀ n < 64, base64Chars.getD n 0 = digit n := by decide +kernel
  exact hall n h

theorem or_eq_add {high low bits : Nat} (h : low < 2 ^ bits) :
    high <<< bits ||| low = high * 2 ^ bits + low := by
  rw [← Nat.shiftLeft_add_eq_or_of_lt h, Nat.shiftLeft_eq]

theorem base64Group_eq (a b c : UInt8) : base64Group a b c =
    [digit (a.toNat / 4), digit (a.toNat % 4 * 16 + b.toNat / 16), digit (b.toNat % 16 * 4 + c.toNat / 64),
      digit (c.toNat % 64)] := by
  have ha := a.toNat_lt
  have hb := b.toNat_lt
  have hc := c.toNat_lt
  have hthree : a.toNat &&& 3 = a.toNat % 4 := Nat.and_two_pow_sub_one_eq_mod a.toNat 2
  have hfifteen : b.toNat &&& 15 = b.toNat % 16 := Nat.and_two_pow_sub_one_eq_mod b.toNat 4
  have hsixtyThree : c.toNat &&& 63 = c.toNat % 64 := Nat.and_two_pow_sub_one_eq_mod c.toNat 6
  have hsecond : (a.toNat % 4) <<< 4 ||| b.toNat >>> 4 = a.toNat % 4 * 16 + b.toNat / 16 := by
    rw [Nat.shiftRight_eq_div_pow, or_eq_add (by omega)]
    omega
  have hthird : (b.toNat % 16) <<< 2 ||| c.toNat >>> 6 = b.toNat % 16 * 4 + c.toNat / 64 := by
    rw [Nat.shiftRight_eq_div_pow, or_eq_add (by omega)]
    omega
  have hfirst : a.toNat >>> 2 = a.toNat / 4 := Nat.shiftRight_eq_div_pow a.toNat 2
  rw [base64Group, hthree, hfifteen, hsixtyThree, hsecond, hthird, hfirst, base64Chars_eq_digit (by omega),
    base64Chars_eq_digit (by omega), base64Chars_eq_digit (by omega), base64Chars_eq_digit (by omega)]

theorem length_base64Groups (bytes : List UInt8) :
    (base64Groups bytes).length = (bytes.length + 2) / 3 * 4 := by
  induction bytes using base64Groups.induct with
  | case1 a b c bytes ih =>
    rw [base64Groups, List.length_append, ih]
    simp only [base64Group, List.length_cons, List.length_nil]
    omega
  | case2 a b => simp [base64Groups, base64Group]
  | case3 a => simp [base64Groups, base64Group]
  | case4 => rfl

theorem arrayBufferToBase64_eq (bytes : List UInt8) : arrayBufferToBase64 bytes = toBase64 bytes := by
  induction bytes using toBase64.induct with
  | case1 a b c bytes ih =>
    have hlength := length_base64Groups bytes
    have hgroup : (base64Group a b c).length = 4 := rfl
    have hstep : arrayBufferToBase64 (a :: b :: c :: bytes) =
      base64Group a b c ++ arrayBufferToBase64 bytes := by
      simp only [arrayBufferToBase64, base64Groups, List.length_cons, List.length_append, hgroup]
      by_cases htwo : bytes.length % 3 = 2
      · rw [if_pos (by omega), if_pos htwo]
        have hdrop : 4 + (base64Groups bytes).length - 1 =
            (base64Group a b c).length + ((base64Groups bytes).length - 1) := by omega
        rw [hdrop, List.take_length_add_append, List.append_assoc]
      · rw [if_neg (by omega), if_neg htwo]
        by_cases hone : bytes.length % 3 = 1
        · rw [if_pos (by omega), if_pos hone]
          have hdrop : 4 + (base64Groups bytes).length - 2 =
              (base64Group a b c).length + ((base64Groups bytes).length - 2) := by omega
          rw [hdrop, List.take_length_add_append, List.append_assoc]
        · rw [if_neg (by omega), if_neg hone]
    rw [hstep, ih, base64Group_eq]
    rfl
  | case2 a b => simp [arrayBufferToBase64, base64Groups, base64Group_eq, toBase64, units]
  | case3 a => simp [arrayBufferToBase64, base64Groups, base64Group_eq, toBase64, units]
  | case4 => rfl

/-- The encoder written by hand gives the standard text, which is what the branch for
    a `Buffer` gives, and the bytes are read back from it. -/
theorem arrayBufferToBase64_standard {N : Type} (fromArray : FromArray N) (bytes : List UInt8) :
    arrayBufferToBase64 bytes = standardText bytes ∧
      arrayBufferToBase64 bytes = toBase64 bytes ∧
      binaryToBase64Replacer fromArray (.host (.arrayBuffer bytes)) =
        binaryToBase64Replacer fromArray (.host (.buffer bytes)) ∧
      fromBase64 (arrayBufferToBase64 bytes) = bytes ∧
      base64ToBinaryReplacer (base64Object (arrayBufferToBase64 bytes) : Message N) =
        .host (.buffer bytes) := by
  have hsame := arrayBufferToBase64_eq bytes
  have hback := fromBase64_toBase64 bytes
  refine ⟨by rw [hsame, toBase64_eq_standardText], hsame, ?_, by rw [hsame, hback], ?_⟩
  · rw [binaryToBase64Replacer, binaryToBase64Replacer, hsame]
  · have hrevived (data : JsString) :
      base64ToBinaryReplacer (base64Object data : Message N) = .host (.buffer (fromBase64 data)) := rfl
    rw [hrevived, hsame, hback]

/-! What a message is serialized to. -/

variable {N : Type} {nums : Numbers N} {fromArray : FromArray N} {m : Message N} {xs : List (Message N)}
  {fields : List (JsString × Message N)}

theorem mapM_attach {α β : Type} (f : α → Except JsError β) (l : List α) :
    (l.attach.mapM fun x => f x.1) = l.mapM f := by
  have h := List.mapM_map (m := Except JsError) (f := Subtype.val) (g := f) (l := l.attach)
  rw [List.attach_map_subtype_val] at h
  exact h.symm

theorem serialize_of_arr (h : binaryToBase64Replacer fromArray (toJSON nums m) = .ok (.arr xs)) :
    serialize nums fromArray m = (xs.mapM (serialize nums fromArray)).map .arr := by
  rw [serialize]
  split <;> rename_i hreplaced <;> rw [h] at hreplaced <;> cases hreplaced
  rw [mapM_attach]

theorem serialize_of_obj (h : binaryToBase64Replacer fromArray (toJSON nums m) = .ok (.obj fields)) :
    serialize nums fromArray m =
      (fields.mapM fun field => (serialize nums fromArray field.2).map fun v => (field.1, v)).map .obj := by
  rw [serialize]
  split <;> rename_i hreplaced <;> rw [h] at hreplaced <;> cases hreplaced
  rw [mapM_attach fun field : JsString × Message N =>
    (serialize nums fromArray field.2).map fun v => (field.1, v)]

theorem serialize_of_error {e : JsError} (h : binaryToBase64Replacer fromArray (toJSON nums m) = .error e) :
    serialize nums fromArray m = .error e := by
  rw [serialize]
  split <;> rename_i hreplaced <;> rw [h] at hreplaced <;> cases hreplaced
  rfl

/-- What `decode` takes for a `Buffer`. -/
def Base64Marked (v : Message N) : Prop :=
  property v "base64" = some (.bool true) ∧ ∃ data, property v "data" = some (.str data)

/-- What `encode` takes for a `Buffer` in JSON. -/
def BufferMarked (v : Message N) : Prop :=
  property v "type" = some (.str (units "Buffer")) ∧ ∃ data, property v "data" = some (.arr data)

def Unmarked (m : Message N) : Prop := ∀ v ∈ m.inside, ¬ Base64Marked v ∧ ¬ BufferMarked v

mutual

/-- The message with every `ArrayBuffer` as a `Buffer` of the same bytes. -/
def asBuffers : Message N → Message N
  | .host (.arrayBuffer bytes) => .host (.buffer bytes)
  | .arr xs => .arr (asBuffersElements xs)
  | .obj fields => .obj (asBuffersFields fields)
  | m => m

def asBuffersElements : List (Message N) → List (Message N)
  | [] => []
  | x :: xs => asBuffers x :: asBuffersElements xs

def asBuffersFields : List (JsString × Message N) → List (JsString × Message N)
  | [] => []
  | (key, v) :: fields => (key, asBuffers v) :: asBuffersFields fields

end

theorem asBuffers_arr : asBuffers (.arr xs) = .arr (xs.map asBuffers) := by
  have h : asBuffersElements xs = xs.map asBuffers := by
    induction xs with
    | nil => rfl
    | cons x xs ih => rw [asBuffersElements, ih, List.map_cons]
  rw [asBuffers, h]

theorem asBuffers_obj :
    asBuffers (.obj fields) = .obj (fields.map fun field => (field.1, asBuffers field.2)) := by
  have h : asBuffersFields fields = fields.map fun field => (field.1, asBuffers field.2) := by
    induction fields with
    | nil => rfl
    | cons field fields ih => rw [asBuffersFields, ih, List.map_cons]
  rw [asBuffers, h]

theorem revive_arr {ys : List (Json.Plain N)} : revive (.arr ys) = .arr (ys.map revive) := by
  have h : reviveElements ys = ys.map revive := by
    induction ys with
    | nil => rfl
    | cons y ys ih => rw [reviveElements, ih, List.map_cons]
  rw [revive, h]
  rfl

theorem revive_obj {ys : List (JsString × Json.Plain N)} :
    revive (.obj ys) = base64ToBinaryReplacer (.obj (ys.map fun field => (field.1, revive field.2))) := by
  have h : reviveFields ys = ys.map fun field => (field.1, revive field.2) := by
    induction ys with
    | nil => rfl
    | cons field ys ih => rw [reviveFields, ih, List.map_cons]
  rw [revive, h]

theorem revived_of_not_marked {v : Message N} (h : ¬ Base64Marked v) : base64ToBinaryReplacer v = v := by
  unfold base64ToBinaryReplacer
  split
  · rename_i hbase64 hdata
    exact absurd ⟨hbase64, _, hdata⟩ h
  · rfl

theorem revived_of_marked {v : Message N} (h : Base64Marked v) :
    ∃ bytes, base64ToBinaryReplacer v = .host (.buffer bytes) := by
  obtain ⟨hbase64, data, hdata⟩ := h
  refine ⟨fromBase64 data, ?_⟩
  unfold base64ToBinaryReplacer
  rw [hbase64, hdata]

theorem replaced_of_not_marked (h : ¬ BufferMarked (.obj fields)) :
    binaryToBase64Replacer fromArray (.obj fields) = .ok (.obj fields) := by
  simp only [binaryToBase64Replacer]
  split
  · rename_i htype hdata
    rw [if_neg]
    rintro rfl
    exact h ⟨htype, _, hdata⟩
  · rfl

theorem replaced_of_marked {replaced : Message N} (h : BufferMarked (.obj fields))
    (hreplaced : binaryToBase64Replacer fromArray (.obj fields) = .ok replaced) :
    ∃ bytes, replaced = base64Object (toBase64 bytes) := by
  obtain ⟨htype, data, hdata⟩ := h
  simp only [binaryToBase64Replacer, htype, hdata, if_true] at hreplaced
  obtain ⟨bytes, -, rfl⟩ := map_eq_ok_iff.mp hreplaced
  exact ⟨bytes, rfl⟩

theorem serialize_base64Object {data : JsString}
    (h : binaryToBase64Replacer fromArray (toJSON nums m) = .ok (base64Object data)) :
    serialize nums fromArray m = .ok (.obj [(units "base64", .bool true), (units "data", .str data)]) := by
  have hbool : serialize nums fromArray (.bool true) = .ok (.bool true) := by
    rw [serialize]
    rfl
  have hstr : serialize nums fromArray (.str data) = .ok (.str data) := by
    rw [serialize]
    rfl
  rw [serialize_of_obj h, List.mapM_cons, List.mapM_cons, List.mapM_nil, hbool, hstr]
  rfl

theorem revive_base64Object {bytes : List UInt8} :
    revive (N := N) (.obj [(units "base64", .bool true), (units "data", .str (toBase64 bytes))]) =
      .host (.buffer bytes) := by
  have hrevive : revive (N := N)
      (.obj [(units "base64", .bool true), (units "data", .str (toBase64 bytes))]) =
      .host (.buffer (fromBase64 (toBase64 bytes))) := rfl
  rw [hrevive, fromBase64_toBase64]

theorem property_map {f : Message N → Message N} {name : String} :
    property (.obj (fields.map fun field => (field.1, f field.2))) name =
      (property (.obj fields) name).map f := by
  simp only [property]
  induction fields with
  | nil => rfl
  | cons field fields ih =>
    obtain ⟨key, v⟩ := field
    rw [List.map_cons, List.lookup_cons, List.lookup_cons]
    cases units name == key with
    | true => rfl
    | false => exact ih

theorem asBuffers_eq_bool {b : Bool} : asBuffers m = .bool b ↔ m = .bool b := by
  cases m with
  | host binary => cases binary <;> simp [asBuffers]
  | _ => simp [asBuffers]

theorem asBuffers_eq_str {data : JsString} : asBuffers m = .str data ↔ m = .str data := by
  cases m with
  | host binary => cases binary <;> simp [asBuffers]
  | _ => simp [asBuffers]

/-- Whether an object is marked for `decode` does not depend on the binary data in
    it. -/
theorem base64Marked_asBuffers : Base64Marked (asBuffers (.obj fields)) ↔ Base64Marked (.obj fields) := by
  have hbase64 : property (asBuffers (.obj fields)) "base64" = some (.bool true) ↔
      property (.obj fields) "base64" = some (.bool true) := by
    rw [asBuffers_obj, property_map, Option.map_eq_some_iff]
    simp [asBuffers_eq_bool]
  have hdata (data : JsString) : property (asBuffers (.obj fields)) "data" = some (.str data) ↔
      property (.obj fields) "data" = some (.str data) := by
    rw [asBuffers_obj, property_map, Option.map_eq_some_iff]
    simp [asBuffers_eq_str]
  simp only [Base64Marked, hbase64, hdata]

/-- Where every member can be mapped to one with the given image, the list can. -/
theorem mapM_of_forall {α β γ : Type} {f : α → Except JsError β} {g : β → γ} {k : α → γ} {l : List α}
    (h : ∀ x ∈ l, ∃ y, f x = .ok y ∧ g y = k x) : ∃ ys, l.mapM f = .ok ys ∧ ys.map g = l.map k := by
  induction l with
  | nil => exact ⟨[], rfl, rfl⟩
  | cons x l ih =>
    rw [List.forall_mem_cons] at h
    obtain ⟨⟨y, hy, hgy⟩, hrest⟩ := h
    obtain ⟨ys, hys, hgys⟩ := ih hrest
    exact ⟨y :: ys, by simp [List.mapM_cons, hy, hys, pure, Except.pure], by simp [hgy, hgys]⟩

theorem forall_of_forall₂ {α β γ : Type} {f : α → Except JsError β} {g : β → γ} {k : α → γ} {l : List α}
    {ys : List β} (h : List.Forall₂ (fun x y => f x = .ok y) l ys) (hmap : ys.map g = l.map k) :
    ∀ x ∈ l, ∃ y, f x = .ok y ∧ g y = k x := by
  induction h with
  | nil => simp
  | @cons x y l ys hy _ ih =>
    obtain ⟨hhead, htail⟩ := List.cons_eq_cons.mp hmap
    rw [List.forall_mem_cons]
    exact ⟨⟨y, hy, hhead⟩, ih htail⟩

/-- Without a marker in it, the message is serialized to what is revived as it. -/
theorem serialize_of_unmarked (hfromArray : ∀ bytes, fromArray (byteValues nums bytes) = .ok bytes)
    (m : Message N) (h : Unmarked m) : ∃ v, serialize nums fromArray m = .ok v ∧ revive v = asBuffers m := by
  induction m using Json.induct with
  | null => exact ⟨.null, by rw [serialize]; rfl, rfl⟩
  | bool b => exact ⟨.bool b, by rw [serialize]; rfl, rfl⟩
  | num n => exact ⟨.num n, by rw [serialize]; rfl, rfl⟩
  | str s => exact ⟨.str s, by rw [serialize]; rfl, rfl⟩
  | host binary =>
    cases binary with
    | arrayBuffer bytes =>
      have hreplaced : binaryToBase64Replacer fromArray (toJSON nums (.host (.arrayBuffer bytes))) =
          .ok (base64Object (arrayBufferToBase64 bytes)) := rfl
      rw [arrayBufferToBase64_eq] at hreplaced
      exact ⟨_, serialize_base64Object hreplaced, revive_base64Object⟩
    | buffer bytes =>
      have hreplaced : binaryToBase64Replacer fromArray (toJSON nums (.host (.buffer bytes))) =
          (fromArray (byteValues nums bytes)).map fun bytes => base64Object (toBase64 bytes) := rfl
      rw [hfromArray] at hreplaced
      exact ⟨_, serialize_base64Object hreplaced, revive_base64Object⟩
  | arr xs ih =>
    obtain ⟨-, hxs⟩ := Json.forall_inside_arr.mp h
    obtain ⟨ys, hys, hmap⟩ := mapM_of_forall fun x hx => ih x hx (hxs x hx)
    refine ⟨.arr ys, ?_, ?_⟩
    · rw [serialize_of_arr rfl, hys]
      rfl
    · rw [revive_arr, hmap, asBuffers_arr]
  | obj fields ih =>
    obtain ⟨⟨hbase64, hbuffer⟩, hfields⟩ := Json.forall_inside_obj.mp h
    have heach : ∀ field ∈ fields, ∃ entry,
        (serialize nums fromArray field.2).map (fun v => (field.1, v)) = .ok entry ∧
        (entry.1, revive entry.2) = (field.1, asBuffers field.2) := by
      intro field hfield
      obtain ⟨v, hv, hrevive⟩ := ih field hfield (hfields field hfield)
      exact ⟨(field.1, v), by rw [hv]; rfl, by rw [hrevive]⟩
    obtain ⟨ys, hys, hmap⟩ := mapM_of_forall heach
    refine ⟨.obj ys, ?_, ?_⟩
    · rw [serialize_of_obj (replaced_of_not_marked hbuffer), hys]
      rfl
    · rw [revive_obj, hmap, ← asBuffers_obj]
      exact revived_of_not_marked fun hmarked => hbase64 (base64Marked_asBuffers.mp hmarked)

/-- A message that is serialized to what is revived as it has no marker in it. -/
theorem unmarked_of_revive (m : Message N) {v : Json.Plain N} (hv : serialize nums fromArray m = .ok v)
    (hrevive : revive v = asBuffers m) : Unmarked m := by
  have hscalar {m : Message N} (hinside : m.inside = [m]) (hplain : ∀ name, property m name = none) :
    Unmarked m := by
    intro u hu
    rw [hinside, List.mem_singleton] at hu
    subst hu
    simp [Base64Marked, BufferMarked, hplain]
  induction m using Json.induct generalizing v with
  | null => exact hscalar rfl fun _ => rfl
  | bool b => exact hscalar rfl fun _ => rfl
  | num n => exact hscalar rfl fun _ => rfl
  | str s => exact hscalar rfl fun _ => rfl
  | host binary => exact hscalar rfl fun _ => rfl
  | arr xs ih =>
    rw [serialize_of_arr rfl] at hv
    obtain ⟨ys, hys, rfl⟩ := map_eq_ok_iff.mp hv
    rw [revive_arr, asBuffers_arr, Json.arr.injEq] at hrevive
    refine Json.forall_inside_arr.mpr ⟨by simp [Base64Marked, BufferMarked, property], fun x hx => ?_⟩
    obtain ⟨y, hy, hsame⟩ := forall_of_forall₂ (forall₂_of_mapM hys) hrevive x hx
    exact ih x hx hy hsame
  | obj fields ih =>
    by_cases hbuffer : BufferMarked (.obj fields)
    · cases hreplaced : binaryToBase64Replacer fromArray (.obj fields) with
      | error e =>
        rw [serialize_of_error hreplaced] at hv
        cases hv
      | ok replaced =>
        obtain ⟨bytes, rfl⟩ := replaced_of_marked hbuffer hreplaced
        rw [serialize_base64Object hreplaced] at hv
        obtain rfl := Except.ok.inj hv
        rw [revive_base64Object, asBuffers_obj] at hrevive
        cases hrevive
    · rw [serialize_of_obj (replaced_of_not_marked hbuffer)] at hv
      obtain ⟨ys, hys, rfl⟩ := map_eq_ok_iff.mp hv
      rw [revive_obj] at hrevive
      by_cases hmarked : Base64Marked (.obj (ys.map fun field => (field.1, revive field.2)))
      · obtain ⟨bytes, hbytes⟩ := revived_of_marked hmarked
        rw [hbytes, asBuffers_obj] at hrevive
        cases hrevive
      · rw [revived_of_not_marked hmarked] at hrevive
        rw [hrevive, base64Marked_asBuffers] at hmarked
        rw [asBuffers_obj, Json.obj.injEq] at hrevive
        refine Json.forall_inside_obj.mpr ⟨⟨hmarked, hbuffer⟩, fun field hfield => ?_⟩
        obtain ⟨entry, hentry, hsame⟩ := forall_of_forall₂ (forall₂_of_mapM hys) hrevive field hfield
        obtain ⟨w, hw, rfl⟩ := map_eq_ok_iff.mp hentry
        exact ih field hfield hw (Prod.mk.inj hsame).2

theorem wellFormed_base64Object {data : JsString} : ∀ u ∈ (Json.obj (N := N) (B := Empty)
    [(units "base64", .bool true), (units "data", .str data)]).inside, Json.WellFormed nums u := by
  refine Json.forall_inside_obj.mpr ⟨⟨by simp; decide, by simp; decide⟩, ?_⟩
  simp [Json.inside, Json.WellFormed]

/-- What a well-formed message is serialized to is well formed. -/
theorem wellFormed_serialize (m : Message N) (hm : ∀ u ∈ m.inside, Json.WellFormed nums u) {v : Json.Plain N}
    (hv : serialize nums fromArray m = .ok v) : ∀ u ∈ v.inside, Json.WellFormed nums u := by
  have hmarked {m : Message N} {v : Json.Plain N} (hv : serialize nums fromArray m = .ok v)
      (h : ∀ replaced, binaryToBase64Replacer fromArray (toJSON nums m) = .ok replaced →
        ∃ data, replaced = base64Object data) : ∀ u ∈ v.inside, Json.WellFormed nums u := by
    cases hreplaced : binaryToBase64Replacer fromArray (toJSON nums m) with
    | error e =>
      rw [serialize_of_error hreplaced] at hv
      cases hv
    | ok replaced =>
      obtain ⟨data, rfl⟩ := h replaced hreplaced
      rw [serialize_base64Object hreplaced] at hv
      obtain rfl := Except.ok.inj hv
      exact wellFormed_base64Object
  induction m using Json.induct generalizing v with
  | null =>
    rw [serialize] at hv
    obtain rfl := Except.ok.inj hv
    simp [Json.inside, Json.WellFormed]
  | bool b =>
    rw [serialize] at hv
    obtain rfl := Except.ok.inj hv
    simp [Json.inside, Json.WellFormed]
  | num n =>
    rw [serialize] at hv
    obtain rfl := Except.ok.inj hv
    simpa [Json.inside, Json.WellFormed] using hm
  | str s =>
    rw [serialize] at hv
    obtain rfl := Except.ok.inj hv
    simp [Json.inside, Json.WellFormed]
  | host binary => exact hmarked hv fun replaced hreplaced => replaced_binary hreplaced
  | arr xs ih =>
    obtain ⟨-, hxs⟩ := Json.forall_inside_arr.mp hm
    rw [serialize_of_arr rfl] at hv
    obtain ⟨ys, hys, rfl⟩ := map_eq_ok_iff.mp hv
    refine Json.forall_inside_arr.mpr ⟨trivial, fun y hy => ?_⟩
    obtain ⟨x, hx, hserialize⟩ := exists_of_mem_forall₂ (forall₂_of_mapM hys) y hy
    exact ih x hx (hxs x hx) hserialize
  | obj fields ih =>
    by_cases hbuffer : BufferMarked (.obj fields)
    · refine hmarked hv fun replaced hreplaced => ?_
      obtain ⟨bytes, rfl⟩ := replaced_of_marked hbuffer hreplaced
      exact ⟨_, rfl⟩
    · obtain ⟨henumerated, hfields⟩ := Json.forall_inside_obj.mp hm
      rw [serialize_of_obj (replaced_of_not_marked hbuffer)] at hv
      obtain ⟨ys, hys, rfl⟩ := map_eq_ok_iff.mp hv
      have heach := forall₂_of_mapM hys
      have hkeys : List.Forall₂ Eq (fields.map Prod.fst) (ys.map Prod.fst) := by
        rw [List.forall₂_map_left_iff, List.forall₂_map_right_iff]
        refine heach.imp fun field entry hentry => ?_
        obtain ⟨w, -, rfl⟩ := map_eq_ok_iff.mp hentry
        rfl
      rw [List.forall₂_eq_eq_eq] at hkeys
      rw [Json.WellFormed, hkeys] at henumerated
      refine Json.forall_inside_obj.mpr ⟨henumerated, fun entry hentry => ?_⟩
      obtain ⟨field, hfield, hserialize⟩ := exists_of_mem_forall₂ heach entry hentry
      obtain ⟨w, hw, rfl⟩ := map_eq_ok_iff.mp hserialize
      exact ih field hfield (hfields field hfield) hw

/-- An array or an object, be it one of the platform. -/
def IsObject (m : Message N) : Prop :=
  match m with
  | .arr _ | .obj _ | .host _ => True
  | _ => False

/-- The text of an array or an object is decoded to what is revived of it. -/
theorem decode_print {v : Json.Plain N} (hv : ∀ u ∈ v.inside, Json.WellFormed nums u)
    (hobject : (∃ xs, v = .arr xs) ∨ ∃ fields, v = .obj fields) :
    decode nums (Json.print nums v) = some (revive v) := by
  have hstart : ∃ c text, Json.print nums v = c :: text ∧ (c = unit '[' ∨ c = unit '\x7b') := by
    obtain ⟨xs, rfl⟩ | ⟨fields, rfl⟩ := hobject
    · exact ⟨_, _, by rw [Json.print, List.cons_append], .inl rfl⟩
    · exact ⟨_, _, by rw [Json.print, List.cons_append], .inr rfl⟩
  obtain ⟨c, text, hprint, hc⟩ := hstart
  have hping : isPingOrPong (Json.print nums v) = false := by
    rw [hprint]
    obtain rfl | rfl := hc
    · simp [isPingOrPong, units, unit]
    · simp [isPingOrPong, units, unit]
  have hvalid : validJSONStart (Json.print nums v) = true := by
    rw [hprint]
    obtain rfl | rfl := hc <;> rfl
  have hparse := Json.parse_print v hv
  rw [decode, if_neg (by simp [hprint]), if_neg (by simp [hping]), if_neg (by simp [hvalid]), hparse]

theorem encode_of_isObject (h : IsObject m) :
    encode nums fromArray m = (serialize nums fromArray m).map (Json.print nums) := by
  cases m with
  | arr xs => rfl
  | obj fields => rfl
  | host binary => rfl
  | _ => cases h

theorem isObject_serialize (h : IsObject m) {v : Json.Plain N} (hv : serialize nums fromArray m = .ok v) :
    (∃ xs, v = .arr xs) ∨ ∃ fields, v = .obj fields := by
  have hreplaced {fields : List (JsString × Message N)}
      (h : binaryToBase64Replacer fromArray (toJSON nums m) = .ok (.obj fields)) :
      ∃ fields, v = .obj fields := by
    rw [serialize_of_obj h] at hv
    obtain ⟨ys, -, rfl⟩ := map_eq_ok_iff.mp hv
    exact ⟨ys, rfl⟩
  have hmarked (h : ∀ replaced, binaryToBase64Replacer fromArray (toJSON nums m) = .ok replaced →
      ∃ fields, replaced = .obj fields) : ∃ fields, v = .obj fields := by
    cases hsame : binaryToBase64Replacer fromArray (toJSON nums m) with
    | error e =>
      rw [serialize_of_error hsame] at hv
      cases hv
    | ok replaced =>
      obtain ⟨fields, rfl⟩ := h replaced hsame
      exact hreplaced hsame
  cases m with
  | arr xs =>
    rw [serialize_of_arr rfl] at hv
    obtain ⟨ys, -, rfl⟩ := map_eq_ok_iff.mp hv
    exact .inl ⟨ys, rfl⟩
  | obj fields =>
    refine .inr (hmarked fun replaced hsame => ?_)
    have hplain (binary : Binary) : Json.obj fields ≠ .host binary := nofun
    rw [toJSON_of_plain hplain] at hsame
    obtain rfl | ⟨-, data, rfl⟩ := replaced_plain hplain hsame
    · exact ⟨fields, rfl⟩
    · exact ⟨_, rfl⟩
  | host binary =>
    refine .inr (hmarked fun replaced hsame => ?_)
    obtain ⟨data, rfl⟩ := replaced_binary hsame
    exact ⟨_, rfl⟩
  | _ => cases h

theorem asBuffers_eq_self (m : Message N) (h : ∀ u ∈ m.inside, ∀ bytes, u ≠ .host (.arrayBuffer bytes)) :
    asBuffers m = m := by
  induction m using Json.induct with
  | null => rfl
  | bool b => rfl
  | num n => rfl
  | str s => rfl
  | host binary =>
    cases binary with
    | buffer bytes => rfl
    | arrayBuffer bytes => exact absurd rfl (h _ (List.mem_singleton.mpr rfl) bytes)
  | arr xs ih =>
    obtain ⟨-, hxs⟩ := Json.forall_inside_arr.mp h
    rw [asBuffers_arr, List.map_congr_left fun x hx => ih x hx (hxs x hx), List.map_id']
  | obj fields ih =>
    obtain ⟨-, hfields⟩ := Json.forall_inside_obj.mp h
    have hsame : ∀ field ∈ fields, (field.1, asBuffers field.2) = field := by
      intro field hfield
      rw [ih field hfield (hfields field hfield)]
    rw [asBuffers_obj, List.map_congr_left hsame, List.map_id']

/-- A message comes back from its text with every part the same, and every
    `ArrayBuffer` in it as a `Buffer`, exactly if no object in it is marked. -/
theorem decode_encode_iff (hfromArray : ∀ bytes, fromArray (byteValues nums bytes) = .ok bytes)
    (hobject : IsObject m) (hm : ∀ u ∈ m.inside, Json.WellFormed nums u) :
    ((encode nums fromArray m).map (decode nums) = .ok (some (asBuffers m)) ↔ Unmarked m) ∧
      ((∀ u ∈ m.inside, ∀ bytes, u ≠ .host (.arrayBuffer bytes)) → asBuffers m = m) := by
  have hdecode {v : Json.Plain N} (hv : serialize nums fromArray m = .ok v) :
      (encode nums fromArray m).map (decode nums) = .ok (some (revive v)) := by
    rw [encode_of_isObject hobject, hv]
    exact congrArg Except.ok (decode_print (wellFormed_serialize m hm hv) (isObject_serialize hobject hv))
  refine ⟨⟨fun h => ?_, fun h => ?_⟩, asBuffers_eq_self m⟩
  · cases hv : serialize nums fromArray m with
    | error e =>
      rw [encode_of_isObject hobject, hv] at h
      cases h
    | ok v =>
      rw [hdecode hv, Except.ok.injEq, Option.some.injEq] at h
      exact unmarked_of_revive m hv h
  · obtain ⟨v, hv, hrevive⟩ := serialize_of_unmarked hfromArray m h
    rw [hdecode hv, hrevive]

/-- Integers and their decimal texts. -/
def decimal : Numbers ℤ where
  print n := (if n < 0 then units "-" else []) ++ (Nat.toDigits 10 n.natAbs).map unit
  parse text :=
    let value (digits : JsString) : ℤ := digits.foldl (fun n c => 10 * n + (c.toNat - (unit '0').toNat)) 0
    if text.head? = some (unit '-') then -value text.tail else value text
  ofNat n := n

/-- `Buffer.from`, for an array of numbers. -/
def truncated : FromArray ℤ := fun xs =>
  .ok (xs.map fun
    | .num n => UInt8.ofNat (n % 256).toNat
    | _ => 0)

theorem truncated_byteValues (bytes : List UInt8) : truncated (byteValues decimal bytes) = .ok bytes := by
  have hbyte (b : UInt8) : UInt8.ofNat ((b.toNat : ℤ) % 256).toNat = b := by
    have hb := b.toNat_lt
    have hsame : ((b.toNat : ℤ) % 256).toNat = b.toNat := by omega
    rw [hsame, UInt8.ofNat_toNat]
  simp [truncated, byteValues, decimal, Function.comp_def, hbyte]

/-- Objects that are almost marked, but for `Buffer`s where the text and the array
    would be. -/
def almostMarked : Message ℤ :=
  .obj [(units "type", .str (units "Buffer")), (units "data", .host (.buffer [1, 2, 255])),
    (units "list", .arr [.null, .num (-12),
      .obj [(units "base64", .bool true), (units "data", .host (.buffer []))]])]

theorem decode_encode_almostMarked :
    (encode decimal truncated almostMarked).map (decode decimal) = .ok (some almostMarked) := by
  have hobject : IsObject almostMarked := trivial
  have hnumber : Json.Exact decimal (-12) := ⟨rfl, rfl⟩
  have hkeys : Enumerated [units "type", units "data", units "list"] ∧
    Enumerated [units "base64", units "data"] :=
    ⟨⟨by decide, by decide⟩, ⟨by decide, by decide⟩⟩
  have hwellFormed : ∀ u ∈ almostMarked.inside, Json.WellFormed decimal u := by
    simp [almostMarked, Json.inside, Json.insideFields, Json.insideElements, Json.WellFormed, hnumber, hkeys]
  have hunmarked : Unmarked almostMarked := by
    intro u hu
    have hdata : property u "data" = none ∨ ∃ binary, property u "data" = some (.host binary) := by
      simp only [almostMarked, Json.inside, Json.insideFields, Json.insideElements,
        List.cons_append, List.nil_append,
        List.append_nil, List.mem_cons, List.not_mem_nil, or_false] at hu
      rcases hu with rfl | rfl | rfl | rfl | rfl | rfl | rfl | rfl | rfl <;>
        first | exact .inl rfl | exact .inr ⟨_, rfl⟩
    obtain hnone | ⟨binary, hbinary⟩ := hdata
    · simp [Base64Marked, BufferMarked, hnone]
    · simp [Base64Marked, BufferMarked, hbinary]
  exact (decode_encode_iff truncated_byteValues hobject hwellFormed).1.mpr hunmarked

end anisa.p2p.codec
