import Anisa.Js.Json.Text
import Anisa.Js.OrderedMap

namespace anisa.js.Json

variable {N : Type} (nums : Numbers N)

/-- An array or object that is being read, with what it has so far. -/
inductive Context (N : Type) where
  | arr (xs : List (Plain N))
  | obj (fields : List (JsString × Plain N)) (key : JsString)

/-- What is expected next: a value; the first element of an array or its end; the
    first key of an object or its end; another key; a colon; or what follows a
    value. -/
inductive Expects (N : Type) where
  | value
  | element
  | property
  | key (fields : List (JsString × Plain N))
  | colon (fields : List (JsString × Plain N)) (key : JsString)
  | follows (v : Plain N)

/-- The contexts are those of the innermost array or object first. -/
structure Parser (N : Type) where
  contexts : List (Context N)
  expects : Expects N

namespace Parser

variable {nums}

def startValue (contexts : List (Context N)) : Token N → Option (Parser N)
  | .scalar v => some ⟨contexts, .follows v⟩
  | .leftBracket => some ⟨.arr [] :: contexts, .element⟩
  | .leftBrace => some ⟨contexts, .property⟩
  | _ => none

/-- A key that occurs again keeps its place and takes the later value. The fields
    of a complete object are in the order of enumeration. -/
def afterValue (v : Plain N) : List (Context N) → Token N → Option (Parser N)
  | .arr xs :: contexts, .comma => some ⟨.arr (xs ++ [v]) :: contexts, .value⟩
  | .arr xs :: contexts, .rightBracket => some ⟨contexts, .follows (.arr (xs ++ [v]))⟩
  | .obj fields key :: contexts, .comma => some ⟨contexts, .key (OrderedMap.setEntries key v fields)⟩
  | .obj fields key :: contexts, .rightBrace =>
    some ⟨contexts, .follows (.obj (ownOrder (OrderedMap.setEntries key v fields)))⟩
  | _, _ => none

def step (self : Parser N) (token : Token N) : Option (Parser N) :=
  match self.expects, token with
  | .value, token => startValue self.contexts token
  | .element, .rightBracket => some ⟨self.contexts.tail, .follows (.arr [])⟩
  | .element, token => startValue self.contexts token
  | .property, .rightBrace => some ⟨self.contexts, .follows (.obj [])⟩
  | .property, .scalar (.str key) => some ⟨self.contexts, .colon [] key⟩
  | .key fields, .scalar (.str key) => some ⟨self.contexts, .colon fields key⟩
  | .colon fields key, .colon => some ⟨.obj fields key :: self.contexts, .value⟩
  | .follows v, token => afterValue v self.contexts token
  | _, _ => none

def run (self : Parser N) : List (Token N) → Option (Parser N)
  | [] => some self
  | token :: tokens => (self.step token).bind (·.run tokens)

def finish (self : Parser N) : Option (Plain N) :=
  match self.contexts, self.expects with
  | [], .follows v => some v
  | _, _ => none

end Parser

/-- `JSON.parse` without a reviver. `none` is the SyntaxError. -/
def parse (text : JsString) : Option (Plain N) := do
  let tokens ← lex nums .between text
  let parser ← Parser.run ⟨[], .value⟩ tokens
  parser.finish

mutual

/-- The tokens of the text that is printed for a value. -/
def tokens : Plain N → List (Token N)
  | .arr xs => .leftBracket :: List.intercalate [.comma] (tokensElements xs) ++ [.rightBracket]
  | .obj fields => .leftBrace :: List.intercalate [.comma] (tokensFields fields) ++ [.rightBrace]
  | v => [.scalar v]

def tokensElements : List (Plain N) → List (List (Token N))
  | [] => []
  | x :: xs => tokens x :: tokensElements xs

def tokensFields : List (JsString × Plain N) → List (List (Token N))
  | [] => []
  | (k, v) :: fields => (.scalar (.str k) :: .colon :: tokens v) :: tokensFields fields

end

/-- What is true of every object that JSON text can denote. -/
def Enumerates (v : Plain N) : Prop :=
  match v with
  | .obj fields => Enumerated (fields.map Prod.fst)
  | _ => True

variable {contexts : List (Context N)} {rest : List (Token N)} {v x : Plain N} {xs : List (Plain N)}
  {key : JsString} {fields : List (JsString × Plain N)}

namespace Parser

/-- From a context in which a value is expected, its tokens lead to where it has
    been read. -/
def Reads (v : Plain N) : Prop :=
  ∀ contexts rest, run ⟨contexts, .value⟩ (tokens v ++ rest) = run ⟨contexts, .follows v⟩ rest

theorem run_element (v : Plain N) :
    run ⟨contexts, .element⟩ (tokens v ++ rest) = run ⟨contexts, .value⟩ (tokens v ++ rest) := by
  cases v <;> rfl

theorem run_elements {done : List (Plain N)} (hx : Reads x) (hxs : ∀ y ∈ xs, Reads y) :
    run ⟨.arr done :: contexts, .value⟩
        (List.intercalate [.comma] (tokensElements (x :: xs)) ++ .rightBracket :: rest) =
      run ⟨contexts, .follows (.arr (done ++ x :: xs))⟩ rest := by
  induction xs generalizing done x with
  | nil =>
    simp only [tokensElements, List.intercalate_singleton]
    exact hx _ _
  | cons y ys ih =>
    rw [List.forall_mem_cons] at hxs
    have hnext := @ih y (done ++ [x]) hxs.1 hxs.2
    simp only [tokensElements, List.intercalate_cons_cons, List.append_assoc,
      List.singleton_append] at hnext ⊢
    rw [hx, ← hnext]
    rfl

/-- With a key that is new, the value read goes last. -/
theorem run_rightBrace {done : List (JsString × Plain N)} (hnew : key ∉ done.map Prod.fst) :
    run ⟨.obj done key :: contexts, .follows v⟩ (.rightBrace :: rest) =
      run ⟨contexts, .follows (.obj (ownOrder (done ++ [(key, v)])))⟩ rest := by
  rw [← OrderedMap.setEntries_of_notMem hnew]
  rfl

theorem run_comma {done : List (JsString × Plain N)} (hnew : key ∉ done.map Prod.fst) :
    run ⟨.obj done key :: contexts, .follows v⟩ (.comma :: rest) =
      run ⟨contexts, .key (done ++ [(key, v)])⟩ rest := by
  rw [← OrderedMap.setEntries_of_notMem hnew]
  rfl

theorem run_property {done : List (JsString × Plain N)} (hv : Reads v) :
    run ⟨contexts, .key done⟩ (.scalar (.str key) :: .colon :: tokens v ++ rest) =
      run ⟨.obj done key :: contexts, .follows v⟩ rest :=
  hv _ _

theorem run_properties {done : List (JsString × Plain N)} (hv : Reads v)
    (hfields : ∀ field ∈ fields, Reads field.2) (hnodup : ((done ++ (key, v) :: fields).map Prod.fst).Nodup) :
    run ⟨contexts, .key done⟩
        (List.intercalate [.comma] (tokensFields ((key, v) :: fields)) ++ .rightBrace :: rest) =
      run ⟨contexts, .follows (.obj (ownOrder (done ++ (key, v) :: fields)))⟩ rest := by
  have hnew : key ∉ done.map Prod.fst := by
    rw [List.map_append, List.nodup_append] at hnodup
    exact fun hmem => hnodup.2.2 key hmem key (by simp) rfl
  induction fields generalizing done key v with
  | nil =>
    simp only [tokensFields, List.intercalate_singleton]
    rw [run_property hv, run_rightBrace hnew]
  | cons field fields ih =>
    obtain ⟨following, w⟩ := field
    rw [List.forall_mem_cons] at hfields
    have hsplit : done ++ (key, v) :: (following, w) :: fields =
      (done ++ [(key, v)]) ++ (following, w) :: fields := by
      simp
    rw [hsplit] at hnodup ⊢
    have hlater : following ∉ (done ++ [(key, v)]).map Prod.fst := by
      rw [List.map_append, List.nodup_append] at hnodup
      exact fun hmem => hnodup.2.2 following hmem following (by simp) rfl
    have hnext := @ih w following (done ++ [(key, v)]) hfields.1 hfields.2 hnodup hlater
    simp only [tokensFields, List.intercalate_cons_cons, List.append_assoc, List.singleton_append] at hnext ⊢
    rw [← hnext, ← run_comma hnew]
    exact run_property hv

/-- The tokens of a value are read as that value. -/
theorem reads_of_enumerates (v : Plain N) (hv : ∀ u ∈ v.inside, Enumerates u) : Reads v := by
  induction v using Json.induct with
  | null => exact fun _ _ => rfl
  | bool b => exact fun _ _ => rfl
  | num n => exact fun _ _ => rfl
  | str s => exact fun _ _ => rfl
  | host b => exact b.elim
  | arr xs ih =>
    obtain ⟨-, hxs⟩ := forall_inside_arr.mp hv
    intro contexts rest
    cases xs with
    | nil => rfl
    | cons x xs =>
      have hreads (y : Plain N) (hy : y ∈ x :: xs) : Reads y := ih y hy (hxs y hy)
      rw [List.forall_mem_cons] at hreads
      have helements := @run_elements _ contexts rest x xs [] hreads.1 hreads.2
      rw [List.nil_append] at helements
      rw [tokens, List.cons_append, List.cons_append, List.append_assoc, List.singleton_append, ← helements]
      cases xs with
      | nil =>
        simp only [tokensElements, List.intercalate_singleton]
        exact run_element x
      | cons y ys =>
        simp only [tokensElements, List.intercalate_cons_cons, List.append_assoc]
        exact run_element x
  | obj fields ih =>
    obtain ⟨henumerated, hfields⟩ := forall_inside_obj.mp hv
    intro contexts rest
    cases fields with
    | nil => rfl
    | cons field fields =>
      obtain ⟨key, v⟩ := field
      have hreads (field) (hfield : field ∈ (key, v) :: fields) : Reads field.2 :=
        ih field hfield (hfields field hfield)
      rw [List.forall_mem_cons] at hreads
      have hproperties := @run_properties _ contexts rest v key fields [] hreads.1 hreads.2 henumerated.nodup
      rw [List.nil_append, ownOrder_eq_self henumerated] at hproperties
      rw [tokens, List.cons_append, List.cons_append, List.append_assoc, List.singleton_append, ← hproperties]
      cases fields with
      | nil => rfl
      | cons field fields =>
        simp only [tokensFields, List.intercalate_cons_cons, List.append_assoc]
        rfl

end Parser

end anisa.js.Json
