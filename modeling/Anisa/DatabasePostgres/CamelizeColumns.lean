import Anisa.Js.Renaming
import Anisa.Js.Value

open anisa.js

namespace anisa.databasePostgres

/-- The names that every object inherits. -/
def objectPrototype : List String :=
  ["constructor", "__defineGetter__", "__defineSetter__", "hasOwnProperty", "__lookupGetter__",
    "__lookupSetter__", "isPrototypeOf", "propertyIsEnumerable", "toString", "valueOf", "__proto__",
    "toLocaleString"]

variable {V : Type}

section Loop

variable [Inhabited V]

/-- `d[camel] = d[prop]; delete d[prop]`. A property that is not there reads as
    `default`. -/
def moveColumn (prop camel : String) (d : OrderedMap String V) : OrderedMap String V :=
  (d.set camel ((d.get prop).getD default)).erase prop

/-- One round of the loop. `camel in tmp` also sees the inherited names. -/
def visit (camelize : String → String) (data : List (OrderedMap String V)) (prop : String) :
    List (OrderedMap String V) :=
  match data with
  | [] => []
  | tmp :: _ =>
    if camelize prop ∈ tmp.keys ∨ camelize prop ∈ objectPrototype then data
    else data.map (moveColumn prop (camelize prop))

/-- The loop over the names that `for (const prop in tmp)` visits. -/
def camelizeColumns (camelize : String → String) (visits : List String) (data : List (OrderedMap String V)) :
    List (OrderedMap String V) :=
  visits.foldl (visit camelize) data

/-- What `for (const prop in tmp)` may visit while the loop changes `tmp`: no name
    twice, a name only while it is there, and each that was there at the start, in
    the order of properties. A name that is added may be visited or not. -/
structure Enumerates (camelize : String → String) (data : List (OrderedMap String V)) (visits : List String) :
    Prop where
  nodup : visits.Nodup
  present : ∀ before prop after, visits = before ++ prop :: after →
    ∀ tmp ∈ (camelizeColumns camelize before data).head?, prop ∈ tmp.keys
  columns : ∀ tmp ∈ data.head?,
    visits.filter (· ∈ tmp.keys) = (propertyOrder tmp.entries).map Prod.fst

end Loop

/-- All rows have the same column names. -/
def Aligned (data : List (OrderedMap String V)) : Prop :=
  ∀ row ∈ data, ∀ other ∈ data, ∀ name, name ∈ row.keys ↔ name ∈ other.keys

variable {camelize : String → String} {data after : List (OrderedMap String V)} {tmp : OrderedMap String V}
  {name name' : String → String} {prop : String} {visits : List String}

theorem aligned_of_renamed (haligned : Aligned data)
    (hrenamed : List.Forall₂ (OrderedMap.Renamed name) data after) : Aligned after := by
  intro row hrow other hother k
  obtain ⟨row₀, hrow₀, hkeys⟩ := exists_of_mem_forall₂ hrenamed row hrow
  obtain ⟨other₀, hother₀, hkeys'⟩ := exists_of_mem_forall₂ hrenamed other hother
  rw [hkeys.mem_keys_iff, hkeys'.mem_keys_iff]
  simp only [haligned row₀ hrow₀ other₀ hother₀]

theorem renamed_trans {middle : List (OrderedMap String V)}
    (hfirst : List.Forall₂ (OrderedMap.Renamed name) data middle)
    (hsecond : List.Forall₂ (OrderedMap.Renamed name') middle after) :
    List.Forall₂ (OrderedMap.Renamed (name' ∘ name)) data after := by
  induction hfirst generalizing after with
  | nil =>
    cases hsecond
    exact .nil
  | cons hrow _ ih =>
    cases hsecond with
    | cons hrow' hrows' => exact .cons (hrow.trans hrow') (ih hrows')

variable [Inhabited V]

/-- The name a column is stored under from its visit on. -/
def storedName (camelize : String → String) (tmp : OrderedMap String V) (prop : String) : String :=
  if camelize prop ∈ tmp.keys ∨ camelize prop ∈ objectPrototype then prop else camelize prop

theorem length_camelizeColumns (camelize : String → String) (visits : List String)
    (data : List (OrderedMap String V)) :
    (camelizeColumns camelize visits data).length = data.length := by
  have hvisit (prop : String) (data : List (OrderedMap String V)) :
      (visit camelize data prop).length = data.length := by
    unfold visit
    split
    · rfl
    · split
      · rfl
      · exact List.length_map _
  induction visits generalizing data with
  | nil => rfl
  | cons prop visits ih => exact (ih _).trans (hvisit prop data)

/-- There is a first row throughout. -/
theorem exists_head (camelize : String → String) (visits : List String) (hhead : data.head? = some tmp) :
    ∃ row, (camelizeColumns camelize visits data).head? = some row := by
  rw [← Option.isSome_iff_exists, List.isSome_head?, ← List.length_pos_iff, length_camelizeColumns,
    List.length_pos_iff]
  rintro rfl
  cases hhead

/-- A round that moves a column renames it in every row. -/
theorem visit_renames {rest : List (OrderedMap String V)} (haligned : Aligned (tmp :: rest))
    (hprop : prop ∈ tmp.keys) (hmove : ¬ (camelize prop ∈ tmp.keys ∨ camelize prop ∈ objectPrototype)) :
    List.Forall₂ (OrderedMap.Renamed fun i => if i = prop then camelize prop else i) (tmp :: rest)
      (visit camelize (tmp :: rest) prop) := by
  rw [visit, if_neg hmove, List.forall₂_map_right_iff, List.forall₂_same]
  intro row hrow
  have hkeys := haligned tmp (List.mem_cons_self ..) row hrow
  obtain ⟨v, hget⟩ := OrderedMap.mem_keys_iff.mp ((hkeys prop).mp hprop)
  rw [moveColumn, hget, Option.getD_some]
  exact OrderedMap.renamed_set_erase hget fun h => hmove (.inl ((hkeys _).mpr h))

/-- A round keeps the rows alike, and every name but the one that is visited. -/
theorem visit_keeps (camelize : String → String) (haligned : Aligned data)
    (hprop : ∀ tmp ∈ data.head?, prop ∈ tmp.keys) :
    Aligned (visit camelize data prop) ∧ ∀ row ∈ (visit camelize data prop).head?, ∀ c, c ≠ prop →
      (∀ tmp ∈ data.head?, c ∈ tmp.keys) → c ∈ row.keys := by
  cases data with
  | nil => exact ⟨haligned, fun row hrow => by cases hrow⟩
  | cons tmp rest =>
    by_cases hkeep : camelize prop ∈ tmp.keys ∨ camelize prop ∈ objectPrototype
    · have hvisit : visit camelize (tmp :: rest) prop = tmp :: rest := if_pos hkeep
      rw [hvisit]
      exact ⟨haligned, fun row hrow c _ hc => hc row hrow⟩
    · have hmoved := visit_renames haligned (hprop tmp rfl) hkeep
      obtain ⟨tmp₁, rest₁, htmp₁, -, heq⟩ := List.forall₂_cons_left_iff.mp hmoved
      refine ⟨aligned_of_renamed haligned hmoved, fun row hrow c hne hc => ?_⟩
      rw [heq] at hrow
      obtain rfl : tmp₁ = row := Option.some.inj hrow
      exact htmp₁.mem_keys_iff.mpr ⟨c, hc tmp rfl, if_neg hne⟩

/-- The names of the first row are there until they are visited. -/
theorem present_of_columns (haligned : Aligned data) (hnodup : visits.Nodup)
    (hcolumns : ∀ tmp ∈ data.head?, ∀ c ∈ visits, c ∈ tmp.keys) :
    ∀ before prop after, visits = before ++ prop :: after →
      ∀ tmp ∈ (camelizeColumns camelize before data).head?, prop ∈ tmp.keys := by
  induction visits generalizing data with
  | nil =>
    intro before prop after h
    simp at h
  | cons p visits ih =>
    intro before prop after hsplit tmp htmp
    rw [List.nodup_cons] at hnodup
    cases before with
    | nil =>
      obtain ⟨rfl, rfl⟩ := List.cons_eq_cons.mp hsplit
      exact hcolumns tmp htmp p (List.mem_cons_self ..)
    | cons q before =>
      obtain ⟨rfl, rfl⟩ := List.cons_eq_cons.mp hsplit
      obtain ⟨haligned', hkeys⟩ := visit_keeps camelize haligned
        fun tmp htmp => hcolumns tmp htmp p (List.mem_cons_self ..)
      refine ih haligned' hnodup.2 (fun row hrow c hc => ?_) before prop after rfl tmp htmp
      have hne : c ≠ p := by
        rintro rfl
        exact hnodup.1 hc
      exact hkeys row hrow c hne fun tmp htmp => hcolumns tmp htmp c (List.mem_cons_of_mem p hc)

/-- An engine may visit the names of the first row and no others. -/
theorem enumerates_columns (haligned : Aligned data) (hhead : data.head? = some tmp) :
    Enumerates camelize data ((propertyOrder tmp.entries).map Prod.fst) := by
  have hperm := (propertyOrder_perm tmp.entries).map Prod.fst
  have hnodup := hperm.nodup_iff.mpr tmp.nodup
  have hkeys : ∀ tmp' ∈ data.head?, ∀ c ∈ (propertyOrder tmp.entries).map Prod.fst, c ∈ tmp'.keys := by
    intro tmp' htmp' c hc
    obtain rfl : tmp = tmp' := Option.some.inj (hhead.symm.trans htmp')
    exact hperm.mem_iff.mp hc
  refine ⟨hnodup, present_of_columns haligned hnodup hkeys, fun tmp' htmp' => ?_⟩
  obtain rfl : tmp = tmp' := Option.some.inj (hhead.symm.trans htmp')
  exact List.filter_eq_self.mpr fun c hc => decide_eq_true (hkeys tmp hhead c hc)

/-- The loop renames the rows so: a column that is not visited keeps its name, and
    one that is has that which it is stored under at its visit. -/
structure Renames (camelize : String → String) (visits : List String) (data : List (OrderedMap String V))
    (name : String → String) : Prop where
  rows : List.Forall₂ (OrderedMap.Renamed name) data (camelizeColumns camelize visits data)
  others : ∀ tmp ∈ data.head?, ∀ k ∈ tmp.keys, k ∉ visits → name k = k
  stored : ∀ before prop after, visits = before ++ prop :: after →
    ∀ tmp ∈ (camelizeColumns camelize before data).head?, name prop = storedName camelize tmp prop

theorem Renames.nil (camelize : String → String) (data : List (OrderedMap String V)) :
    Renames camelize [] data id where
  rows := List.forall₂_same.mpr fun row _ => .refl row fun _ _ => rfl
  others := fun _ _ _ _ _ => rfl
  stored := by
    intro before prop after h
    simp at h

theorem Renames.of_no_rows (camelize : String → String) (visits : List String) :
    Renames camelize visits ([] : List (OrderedMap String V)) id := by
  have hempty (visits : List String) :
      camelizeColumns camelize visits ([] : List (OrderedMap String V)) = [] := by
    rw [← List.length_eq_zero_iff, length_camelizeColumns, List.length_nil]
  refine ⟨by rw [hempty]; exact .nil, by simp, ?_⟩
  intro before prop after _ tmp htmp
  rw [hempty] at htmp
  cases htmp

variable {rest : List (OrderedMap String V)}

/-- The first round keeps the column. -/
theorem Renames.keep (hprop : prop ∈ tmp.keys) (hunvisited : prop ∉ visits)
    (hkeep : camelize prop ∈ tmp.keys ∨ camelize prop ∈ objectPrototype)
    (h : Renames camelize visits (tmp :: rest) name) : Renames camelize (prop :: visits) (tmp :: rest) name := by
  have hvisit : visit camelize (tmp :: rest) prop = tmp :: rest := if_pos hkeep
  have hloop (visits : List String) : camelizeColumns camelize (prop :: visits) (tmp :: rest) =
      camelizeColumns camelize visits (tmp :: rest) := congrArg (camelizeColumns camelize visits) hvisit
  refine ⟨by rw [hloop]; exact h.rows, ?_, ?_⟩
  · intro tmp' htmp' k hk hnot
    exact h.others tmp' htmp' k hk fun hmem => hnot (List.mem_cons_of_mem prop hmem)
  · intro before column after hsplit tmp' htmp'
    cases before with
    | nil =>
      obtain ⟨rfl, rfl⟩ := List.cons_eq_cons.mp hsplit
      obtain rfl : tmp = tmp' := Option.some.inj htmp'
      rw [storedName, if_pos hkeep]
      exact h.others tmp rfl prop hprop hunvisited
    | cons q before =>
      obtain ⟨rfl, rfl⟩ := List.cons_eq_cons.mp hsplit
      rw [hloop] at htmp'
      exact h.stored before column after rfl tmp' htmp'

/-- The first round moves the column to a name that the later ones leave alone. -/
theorem Renames.move (hidem : ∀ c, camelize (camelize c) = camelize c) (haligned : Aligned (tmp :: rest))
    (hprop : prop ∈ tmp.keys) (hunvisited : prop ∉ visits)
    (hmove : ¬ (camelize prop ∈ tmp.keys ∨ camelize prop ∈ objectPrototype))
    (h : Renames camelize visits (visit camelize (tmp :: rest) prop) name) :
    Renames camelize (prop :: visits) (tmp :: rest) (name ∘ fun i => if i = prop then camelize prop else i) := by
  have hmoved := visit_renames haligned hprop hmove
  obtain ⟨tmp₁, rest₁, htmp₁, -, heq⟩ := List.forall₂_cons_left_iff.mp hmoved
  have hhead : (visit camelize (tmp :: rest) prop).head? = some tmp₁ := by rw [heq, List.head?_cons]
  -- the new name is stored under itself, whether the loop visits it or not
  have hfixed : name (camelize prop) = camelize prop := by
    by_cases hvisited : camelize prop ∈ visits
    · obtain ⟨before, after, rfl⟩ := List.append_of_mem hvisited
      obtain ⟨row, hrow⟩ := exists_head camelize before hhead
      rw [h.stored before (camelize prop) after rfl row hrow, storedName, hidem, ite_self]
    · exact h.others tmp₁ hhead (camelize prop) (htmp₁.mem_keys_iff.mpr ⟨prop, hprop, if_pos rfl⟩) hvisited
  refine ⟨renamed_trans hmoved h.rows, ?_, ?_⟩
  · intro tmp' htmp' k hk hnot
    obtain rfl : tmp = tmp' := Option.some.inj htmp'
    rw [List.mem_cons, not_or] at hnot
    rw [Function.comp_apply, if_neg hnot.1]
    exact h.others tmp₁ hhead k (htmp₁.mem_keys_iff.mpr ⟨k, hk, if_neg hnot.1⟩) hnot.2
  · intro before column after hsplit tmp' htmp'
    cases before with
    | nil =>
      obtain ⟨rfl, rfl⟩ := List.cons_eq_cons.mp hsplit
      obtain rfl : tmp = tmp' := Option.some.inj htmp'
      rw [storedName, if_neg hmove, Function.comp_apply, if_pos rfl, hfixed]
    | cons q before =>
      obtain ⟨rfl, rfl⟩ := List.cons_eq_cons.mp hsplit
      have hne : column ≠ prop := by
        rintro rfl
        exact hunvisited (by simp)
      rw [Function.comp_apply, if_neg hne]
      exact h.stored before column after rfl tmp' htmp'

/-- A loop that visits every name while it is there renames the rows by what each
    visited name is stored under. -/
theorem exists_renames (hidem : ∀ c, camelize (camelize c) = camelize c) (haligned : Aligned data)
    (hnodup : visits.Nodup) (hpresent : ∀ before prop after, visits = before ++ prop :: after →
      ∀ tmp ∈ (camelizeColumns camelize before data).head?, prop ∈ tmp.keys) :
    ∃ name, Renames camelize visits data name := by
  induction visits generalizing data with
  | nil => exact ⟨id, .nil camelize data⟩
  | cons prop visits ih =>
    rw [List.nodup_cons] at hnodup
    cases data with
    | nil => exact ⟨id, .of_no_rows camelize (prop :: visits)⟩
    | cons tmp rest =>
      have hprop : prop ∈ tmp.keys := hpresent [] prop visits rfl tmp rfl
      have hlater : ∀ before column after, visits = before ++ column :: after →
          ∀ tmp' ∈ (camelizeColumns camelize before (visit camelize (tmp :: rest) prop)).head?,
            column ∈ tmp'.keys := by
        rintro before column after rfl
        exact hpresent (prop :: before) column after rfl
      obtain ⟨haligned', -⟩ := visit_keeps camelize haligned fun tmp' htmp' =>
        Option.some.inj htmp' ▸ hprop
      obtain ⟨name, hrenames⟩ := ih haligned' hnodup.2 hlater
      by_cases hkeep : camelize prop ∈ tmp.keys ∨ camelize prop ∈ objectPrototype
      · have hvisit : visit camelize (tmp :: rest) prop = tmp :: rest := if_pos hkeep
        rw [hvisit] at hrenames
        exact ⟨name, hrenames.keep hprop hnodup.1 hkeep⟩
      · exact ⟨_, hrenames.move hidem haligned hprop hnodup.1 hkeep⟩

/-- What the columns of a row become under their new names: nothing is lost. -/
structure KeepsColumns (name : String → String) (row after : OrderedMap String V) : Prop where
  size_eq : after.size = row.size
  values : ∀ c v, row.get c = some v → after.get (name c) = some v
  keys : ∀ k, k ∈ after.keys ↔ ∃ c ∈ row.keys, name c = k

/-- Every row keeps its columns, all rows alike, and a column keeps its own name
    exactly if its camelized one is another column's when it is visited, or one that
    every object inherits. -/
theorem camelizeColumns_keeps_columns (hidem : ∀ c, camelize (camelize c) = camelize c)
    (haligned : Aligned data) (hvisits : Enumerates camelize data visits) :
    ∃ name, List.Forall₂ (KeepsColumns name) data (camelizeColumns camelize visits data) ∧
      Aligned (camelizeColumns camelize visits data) ∧
      ∀ first, data.head? = some first → ∀ c ∈ first.keys, ∃ before after row,
        visits = before ++ c :: after ∧ (camelizeColumns camelize before data).head? = some row ∧
        name c = if (camelize c ∈ row.keys ∧ camelize c ≠ c) ∨ camelize c ∈ objectPrototype then c
          else camelize c := by
  obtain ⟨name, hrenamed, -, hstored⟩ := exists_renames hidem haligned hvisits.nodup hvisits.present
  have hkeeps : List.Forall₂ (KeepsColumns name) data (camelizeColumns camelize visits data) :=
    hrenamed.imp fun row after h => ⟨h.size_eq, fun _ _ => h.get_of_get, fun _ => h.mem_keys_iff⟩
  refine ⟨name, hkeeps, aligned_of_renamed haligned hrenamed, ?_⟩
  intro first hfirst c hc
  have hvisited : c ∈ visits := by
    have hlisted : c ∈ (propertyOrder first.entries).map Prod.fst :=
      ((propertyOrder_perm first.entries).map Prod.fst).mem_iff.mpr hc
    rw [← hvisits.columns first hfirst] at hlisted
    exact (List.mem_filter.mp hlisted).1
  obtain ⟨before, after, hsplit⟩ := List.append_of_mem hvisited
  obtain ⟨row, hrow⟩ := exists_head camelize before hfirst
  refine ⟨before, after, row, hsplit, hrow, ?_⟩
  rw [hstored before c after hsplit row hrow, storedName]
  by_cases hown : camelize c = c
  · rw [hown, ite_self, ite_self]
  · simp only [hown, ne_eq, not_false_eq_true, and_true]

/-- What the library answers for the columns of the samples. -/
def sampleCamelize (column : String) : String :=
  if column = "block_id" then "blockId" else if column = "to_string" then "toString"
  else if column = "created_at" then "createdAt" else column

theorem sampleCamelize_idempotent (c : String) : sampleCamelize (sampleCamelize c) = sampleCamelize c := by
  unfold sampleCamelize
  split_ifs <;> simp_all

/-- Two rows in which one column is free to take its camelized name. Of the others
    that have one, another column has it or every object inherits it. -/
def sampleRows : List (OrderedMap String Nat) :=
  [(((OrderedMap.empty.set "block_id" 1).set "to_string" 2).set "blockId" 3).set "created_at" 7,
    (((OrderedMap.empty.set "blockId" 4).set "created_at" 8).set "block_id" 5).set "to_string" 6]

def sampleColumns : List String := ["block_id", "to_string", "blockId", "created_at"]

theorem sampleRows_aligned : Aligned sampleRows := by
  have hkeys : ∀ row ∈ sampleRows, row.keys.Perm sampleColumns := by decide
  intro row hrow other hother name
  rw [(hkeys row hrow).mem_iff, (hkeys other hother).mem_iff]

theorem camelizeColumns_keeps_columns_sample :
    (camelizeColumns sampleCamelize sampleColumns sampleRows).map OrderedMap.entries =
        [[("block_id", 1), ("to_string", 2), ("blockId", 3), ("createdAt", 7)],
          [("blockId", 4), ("block_id", 5), ("to_string", 6), ("createdAt", 8)]] ∧
      ∃ name, List.Forall₂ (KeepsColumns name) sampleRows
          (camelizeColumns sampleCamelize sampleColumns sampleRows) ∧
        Aligned (camelizeColumns sampleCamelize sampleColumns sampleRows) ∧
        ∀ first, sampleRows.head? = some first → ∀ c ∈ first.keys, ∃ before after row,
          sampleColumns = before ++ c :: after ∧
            (camelizeColumns sampleCamelize before sampleRows).head? = some row ∧
            name c = if (sampleCamelize c ∈ row.keys ∧ sampleCamelize c ≠ c) ∨
              sampleCamelize c ∈ objectPrototype then c else sampleCamelize c :=
  ⟨by decide, camelizeColumns_keeps_columns sampleCamelize_idempotent sampleRows_aligned
    (enumerates_columns sampleRows_aligned rfl)⟩

/-- A column whose camelized name is inherited keeps its own, though no column is
    called so. -/
theorem inherited_name_not_taken :
    (∀ c, sampleCamelize (sampleCamelize c) = sampleCamelize c) ∧
      Enumerates sampleCamelize [OrderedMap.empty.set "to_string" 1] ["to_string"] ∧
      sampleCamelize "to_string" = "toString" ∧
      (camelizeColumns sampleCamelize ["to_string"] [OrderedMap.empty.set "to_string" 1]).map OrderedMap.keys =
        [["to_string"]] := by
  have haligned : Aligned [OrderedMap.empty.set "to_string" 1] := by simp [Aligned]
  exact ⟨sampleCamelize_idempotent, enumerates_columns haligned rfl, by decide, by decide⟩

end anisa.databasePostgres
