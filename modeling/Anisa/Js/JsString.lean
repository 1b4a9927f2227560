import Anisa.Js.Value

namespace anisa.js

/-- A string, with the code units of UTF-16 that it is made of. -/
abbrev JsString := List UInt16

/-- The code unit of a character of the basic plane. -/
def unit (c : Char) : UInt16 := UInt16.ofNat c.toNat

/-- A text of such characters. -/
def units (text : String) : JsString := text.toList.map unit

/-- The key of a property as text. A surrogate is no part of an array index, and
    becomes another character here that is not. -/
def keyText (key : JsString) : String := String.ofList (key.map fun c => Char.ofNat c.toNat)

/-- The order in which own properties are enumerated. -/
def ownOrder {α : Type} (fields : List (JsString × α)) : List (JsString × α) :=
  (propertyOrder (fields.map fun field => (keyText field.1, field))).map Prod.snd

/-- Each key once, and in the order of enumeration. -/
structure Enumerated (keys : List JsString) : Prop where
  nodup : keys.Nodup
  ordered : (keys.map keyText).Pairwise Precedes

theorem ownOrder_eq_self {α : Type} {fields : List (JsString × α)} (h : Enumerated (fields.map Prod.fst)) :
    ownOrder fields = fields := by
  have hordered : ((fields.map fun field => (keyText field.1, field)).map Prod.fst).Pairwise Precedes := by
    simpa [List.map_map, Function.comp_def] using h.ordered
  rw [ownOrder, propertyOrder_eq_self hordered]
  simp [List.map_map, Function.comp_def]

theorem ownOrder_perm {α : Type} (fields : List (JsString × α)) : (ownOrder fields).Perm fields := by
  have hmap := (propertyOrder_perm (fields.map fun field => (keyText field.1, field))).map Prod.snd
  simpa [ownOrder, List.map_map, Function.comp_def] using hmap

theorem enumerated_ownOrder {α : Type} {fields : List (JsString × α)} (h : (fields.map Prod.fst).Nodup) :
    Enumerated ((ownOrder fields).map Prod.fst) := by
  have hkeyed (e) (he : e ∈ propertyOrder (fields.map fun field => (keyText field.1, field))) :
      keyText e.2.1 = e.1 := by
    obtain ⟨field, -, rfl⟩ := List.mem_map.mp ((propertyOrder_perm _).mem_iff.mp he)
    rfl
  refine ⟨?_, ?_⟩
  · have hperm : (ownOrder fields).Perm fields := by
      have hmap := (propertyOrder_perm (fields.map fun field => (keyText field.1, field))).map Prod.snd
      simpa [ownOrder, List.map_map, Function.comp_def] using hmap
    exact (hperm.map Prod.fst).nodup_iff.mpr h
  · have hpairwise := propertyOrder_pairwise (fields.map fun field => (keyText field.1, field))
    have hkeys : ((ownOrder fields).map Prod.fst).map keyText =
        (propertyOrder (fields.map fun field => (keyText field.1, field))).map Prod.fst := by
      rw [ownOrder, List.map_map, List.map_map]
      exact List.map_congr_left hkeyed
    rw [hkeys]
    exact hpairwise

end anisa.js
