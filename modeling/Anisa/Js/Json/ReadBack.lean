import Anisa.Js.Json.Denotation

namespace anisa.js.Json

variable {N : Type} {nums : Numbers N} {fields : List (JsString × Plain N)}

/-! The text of a number need not be read as that number: there is none for what is
not finite, and no sign of a zero. -/

/-- The text of a number is `null`, or that of the number it is read as. -/
def Stable (nums : Numbers N) : Prop :=
  ∀ n, nums.print n = units "null" ∨
    isNumber (nums.print n) = true ∧ nums.print (nums.parse (nums.print n)) = nums.print n

mutual

/-- The value with every number as it is read from its text. -/
def readBack (nums : Numbers N) : Plain N → Plain N
  | .num n => if isNumber (nums.print n) then .num (nums.parse (nums.print n)) else .null
  | .arr xs => .arr (readBackElements nums xs)
  | .obj fields => .obj (readBackFields nums fields)
  | v => v

def readBackElements (nums : Numbers N) : List (Plain N) → List (Plain N)
  | [] => []
  | x :: xs => readBack nums x :: readBackElements nums xs

def readBackFields (nums : Numbers N) : List (JsString × Plain N) → List (JsString × Plain N)
  | [] => []
  | (key, v) :: fields => (key, readBack nums v) :: readBackFields nums fields

end

theorem readBack_arr {xs : List (Plain N)} : readBack nums (.arr xs) = .arr (xs.map (readBack nums)) := by
  have h : readBackElements nums xs = xs.map (readBack nums) := by
    induction xs with
    | nil => rfl
    | cons x xs ih => rw [readBackElements, ih, List.map_cons]
  rw [readBack, h]

theorem readBack_obj :
    readBack nums (.obj fields) = .obj (fields.map fun field => (field.1, readBack nums field.2)) := by
  have h : readBackFields nums fields = fields.map fun field => (field.1, readBack nums field.2) := by
    induction fields with
    | nil => rfl
    | cons field fields ih => rw [readBackFields, ih, List.map_cons]
  rw [readBack, h]

theorem Stable.exact {n : N} (h : Stable nums) (hnumber : isNumber (nums.print n) = true) :
    Exact nums (nums.parse (nums.print n)) := by
  obtain hnull | ⟨-, hsame⟩ := h n
  · rw [hnull] at hnumber
    cases hnumber
  · rw [Exact, hsame]
    exact ⟨hnumber, rfl⟩

theorem printElements_eq {xs : List (Plain N)} : printElements nums xs = xs.map (print nums) := by
  induction xs with
  | nil => rfl
  | cons x xs ih => rw [printElements, ih, List.map_cons]

theorem printFields_eq :
    printFields nums fields = fields.map fun field => quote field.1 ++ unit ':' :: print nums field.2 := by
  induction fields with
  | nil => rfl
  | cons field fields ih => rw [printFields, ih, List.map_cons]

theorem print_readBack (h : Stable nums) (v : Plain N) : print nums (readBack nums v) = print nums v := by
  induction v using Json.induct with
  | null => rfl
  | bool b => rfl
  | str s => rfl
  | host b => exact b.elim
  | num n =>
    rw [readBack]
    obtain hnull | ⟨hnumber, hsame⟩ := h n
    · have hword : isNumber (nums.print n) = false := by
        rw [hnull]
        rfl
      rw [if_neg (by simp [hword]), print, print, hnull]
    · rw [if_pos hnumber, print, print, hsame]
  | arr xs ih =>
    have hsame : xs.map (print nums ∘ readBack nums) = xs.map (print nums) := List.map_congr_left ih
    rw [readBack_arr, print, print, printElements_eq, printElements_eq, List.map_map, hsame]
  | obj fields ih =>
    have heach : ∀ field ∈ fields, quote field.1 ++ unit ':' :: print nums (readBack nums field.2) =
        quote field.1 ++ unit ':' :: print nums field.2 := by
      intro field hfield
      rw [ih field hfield]
    rw [readBack_obj, print, print, printFields_eq, printFields_eq, List.map_map,
      ← List.map_congr_left heach]
    rfl

theorem wellFormed_readBack (h : Stable nums) (v : Plain N) (hv : InOrder v) :
    ∀ u ∈ (readBack nums v).inside, WellFormed nums u := by
  induction v using Json.induct with
  | null => simp [readBack, inside, WellFormed]
  | bool b => simp [readBack, inside, WellFormed]
  | str s => simp [readBack, inside, WellFormed]
  | host b => exact b.elim
  | num n =>
    rw [readBack]
    split_ifs with hnumber
    · exact List.forall_mem_singleton.mpr (h.exact hnumber)
    · exact List.forall_mem_singleton.mpr trivial
  | arr xs ih =>
    rw [readBack_arr, forall_inside_arr]
    exact ⟨trivial, List.forall_mem_map.mpr fun x hx => ih x hx (inOrder_arr.mp hv x hx)⟩
  | obj fields ih =>
    obtain ⟨henumerated, hfields⟩ := inOrder_obj.mp hv
    rw [readBack_obj, forall_inside_obj]
    refine ⟨?_, List.forall_mem_map.mpr fun field hfield => ih field hfield (hfields field hfield)⟩
    rw [WellFormed, List.map_map]
    exact henumerated

/-- A text that is printed is read as the value with its numbers read back. -/
theorem parse_print_readBack (h : Stable nums) (v : Plain N) (hv : InOrder v) :
    parse nums (print nums v) = some (readBack nums v) := by
  rw [← print_readBack h v, parse_print _ (wellFormed_readBack h v hv)]

/-- A line break after the text of a value is not read. -/
theorem parse_print_line (h : Stable nums) (v : Plain N) (hv : InOrder v) :
    parse nums (print nums v ++ [unit '\n']) = some (readBack nums v) := by
  have hread := parse_print_readBack h v hv
  have hlexes := lexes_print _ (wellFormed_readBack h v hv)
  rw [print_readBack h v] at hlexes
  have hlex := hlexes [] nofun
  have hline := hlexes [unit '\n'] fun c hc => by
    obtain rfl := Option.some.inj hc
    rfl
  rw [List.append_nil] at hlex
  rw [parse, hlex] at hread
  rw [parse, hline]
  exact hread

theorem readBack_eq_self (v : Plain N) (hv : ∀ u ∈ v.inside, WellFormed nums u) : readBack nums v = v := by
  induction v using Json.induct with
  | null => rfl
  | bool b => rfl
  | str s => rfl
  | host b => exact b.elim
  | num n =>
    have hexact : Exact nums n := hv _ (List.mem_singleton.mpr rfl)
    rw [readBack, if_pos hexact.1, hexact.2]
  | arr xs ih =>
    obtain ⟨-, hxs⟩ := forall_inside_arr.mp hv
    rw [readBack_arr, List.map_congr_left fun x hx => ih x hx (hxs x hx), List.map_id']
  | obj fields ih =>
    obtain ⟨-, hfields⟩ := forall_inside_obj.mp hv
    have hsame : ∀ field ∈ fields, (field.1, readBack nums field.2) = field := by
      intro field hfield
      rw [ih field hfield (hfields field hfield)]
    rw [readBack_obj, List.map_congr_left hsame, List.map_id']

end anisa.js.Json
