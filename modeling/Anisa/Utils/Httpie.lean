import Anisa.Js.Json.Digits
import Anisa.Js.Json.Text
import Anisa.Js.OrderedMap

open anisa.js

namespace anisa.utils

/-- The methods that `Httpie` has. -/
inductive Method where
  | get
  | post
  | put
  | patch
  | head
  | delete

/-- The fields of the options that a request reads or writes. `none` is `undefined`. -/
structure Opts (N : Type) where
  headers : Option (OrderedMap JsString JsString)
  body : Option (Json.Plain N)
  retry : Option (Json.Plain N)
  timeout : Option (Json.Plain N)

/-- What is handed to `got`. -/
structure Request (N : Type) where
  method : Method
  url : JsString
  opts : Opts N

namespace Httpie

variable {N : Type} (nums : Numbers N) (isZero : N → Bool)

def truthy : Option (Json.Plain N) → Bool
  | none | some .null => false
  | some (.bool b) => b
  | some (.num n) => !isZero n
  | some (.str s) => s ≠ []
  | some (.arr _) | some (.obj _) => true

/-- `JSON.stringify` of a value that there is. -/
def stringify (body : Option (Json.Plain N)) : Option (Json.Plain N) :=
  body.map fun v => .str (Json.print nums v)

/-- `sendRequest` up to its await. The options that it is given are those that `got`
    is given, so that the caller has them as they are here. That `opts` is no string
    is true of every object. -/
def sendRequest (test : Bool) (method : Method) (url : JsString) (opts : Option (Opts N)) : Request N :=
  let opts := opts.getD ⟨none, none, none, none⟩
  let headers := (opts.headers.getD .empty).set (units "content-type") (units "application/json")
  let body := if truthy isZero opts.body then stringify nums opts.body else opts.body
  let retry :=
    if truthy isZero opts.retry then opts.retry else some (.obj [(units "retries", .num (nums.ofNat 0))])
  let timeout :=
    if !truthy isZero opts.timeout && !test then some (.num (nums.ofNat 1500)) else opts.timeout
  ⟨method, url, ⟨some headers, body, retry, timeout⟩⟩

/-- The requests of calls that are all given one options object. -/
def sendRequests (test : Bool) (opts : Opts N) : List (Method × JsString) → List (Request N)
  | [] => []
  | (method, url) :: calls =>
    let request := sendRequest nums isZero test method url (some opts)
    request :: sendRequests test request.opts calls

/-- The body to transmit: a string itself, and the JSON text of another value. -/
def intended (body : Option (Json.Plain N)) : Option (Json.Plain N) :=
  match body with
  | some (.str s) => some (.str s)
  | body => stringify nums body

/-- Every request has the body that the options had at first. -/
def Repeats (test : Bool) (opts : Opts N) (calls : List (Method × JsString)) : Prop :=
  ∀ request ∈ sendRequests nums isZero test opts calls, request.opts.body = intended nums opts.body

variable {nums isZero} {test : Bool} {opts : Opts N} {calls : List (Method × JsString)} {method : Method}
  {url s : JsString}

theorem length_quoteUnits (paired : Bool) (s : JsString) :
    s.length ≤ (Json.quoteUnits paired s).length := by
  have hunit (lone : Bool) (c : UInt16) : 0 < (Json.quoteUnit lone c).length := by
    unfold Json.quoteUnit
    split
    · exact Nat.zero_lt_two
    · split
      · exact Nat.zero_lt_succ 5
      · exact Nat.zero_lt_one
  induction s generalizing paired with
  | nil => exact Nat.le_refl 0
  | cons c s ih =>
    rw [Json.quoteUnits, List.length_append, List.length_cons]
    have hrest := ih (Json.isLeading c && s.head?.any Json.isTrailing)
    have hfirst := hunit ((Json.isLeading c || Json.isTrailing c) &&
      !(Json.isLeading c && s.head?.any Json.isTrailing) && !paired) c
    omega

/-- A string is longer in quotes. -/
theorem length_quote (s : JsString) : s.length < (Json.quote s).length := by
  have hunits := length_quoteUnits false s
  rw [Json.quote, List.cons_append, List.length_cons, List.length_append]
  omega

theorem body_sendRequest : (sendRequest nums isZero test method url (some opts)).opts.body =
    if truthy isZero opts.body then stringify nums opts.body else opts.body := rfl

/-- A body that is not truthy stays in the options. -/
theorem body_of_not_truthy (hbody : truthy isZero opts.body = false) :
    ∀ request ∈ sendRequests nums isZero test opts calls, request.opts.body = opts.body := by
  induction calls generalizing opts with
  | nil => exact nofun
  | cons call calls ih =>
    have hsame : (sendRequest nums isZero test call.1 call.2 (some opts)).opts.body = opts.body := by
      rw [body_sendRequest, hbody, if_neg Bool.false_ne_true]
    rw [sendRequests, List.forall_mem_cons]
    refine ⟨hsame, ?_⟩
    rw [← hsame] at hbody ⊢
    exact ih hbody

/-- Every call puts the string that it finds in quotes once more. -/
theorem body_of_string (hbody : opts.body = some (.str s)) (hne : s ≠ []) :
    ∀ (k : Nat) (request : Request N), (sendRequests nums isZero test opts calls)[k]? = some request →
      request.opts.body = some (.str (Json.quote^[k + 1] s)) := by
  induction calls generalizing opts s with
  | nil => exact nofun
  | cons call calls ih =>
    have hquoted : (sendRequest nums isZero test call.1 call.2 (some opts)).opts.body =
        some (.str (Json.quote s)) := by
      rw [body_sendRequest, hbody, truthy, if_pos (decide_eq_true hne)]
      rfl
    intro k request hrequest
    cases k with
    | zero =>
      obtain rfl := Option.some.inj hrequest
      exact hquoted
    | succ k =>
      have hlonger : Json.quote s ≠ [] := List.cons_ne_nil _ _
      exact ih hquoted hlonger k request hrequest

/-- A string that is not empty is sent as another at once. -/
theorem exists_requoted (hbody : opts.body = some (.str s)) (hne : s ≠ []) (hcalls : calls ≠ []) :
    ∃ request ∈ sendRequests nums isZero test opts calls, request.opts.body ≠ some (.str s) := by
  cases calls with
  | nil => exact absurd rfl hcalls
  | cons call calls =>
    have hfirst : (sendRequests nums isZero test opts (call :: calls))[0]? =
      some (sendRequest nums isZero test call.1 call.2 (some opts)) := rfl
    refine ⟨_, List.mem_cons_self .., ?_⟩
    rw [body_of_string hbody hne 0 _ hfirst]
    intro heq
    have hlonger := length_quote s
    have hsame : Json.quote s = s := Json.str.inj (Option.some.inj heq)
    rw [hsame] at hlonger
    exact absurd hlonger (Nat.lt_irrefl _)

/-- What is truthy has a text. -/
theorem print_ne_nil (hprint : ∀ n, nums.print n ≠ []) {v : Json.Plain N}
    (hv : truthy isZero (some v) = true) : Json.print nums v ≠ [] := by
  cases v with
  | null => cases hv
  | bool b =>
    cases b with
    | false => cases hv
    | true => exact List.cons_ne_nil _ _
  | num n => exact hprint n
  | str s => exact List.cons_ne_nil _ _
  | arr xs => exact List.cons_ne_nil _ _
  | obj fields => exact List.cons_ne_nil _ _
  | host b => exact b.elim

/-- Only a string is sent as it is. -/
theorem eq_intended_iff {body : Option (Json.Plain N)} :
    body = intended nums body ↔ body = none ∨ ∃ s, body = some (.str s) := by
  cases body with
  | none => simp [intended, stringify]
  | some v => cases v <;> simp [intended, stringify]

theorem intended_of_not_string {body : Option (Json.Plain N)} (h : ∀ s, body ≠ some (.str s)) :
    intended nums body = stringify nums body := by
  unfold intended
  split
  · exact absurd rfl (h _)
  · rfl

theorem repeats_iff_of_not_truthy {call : Method × JsString} (htruthy : truthy isZero opts.body = false) :
    Repeats nums isZero test opts (call :: calls) ↔ opts.body = none ∨ opts.body = some (.str []) := by
  have hsent : ∀ request ∈ sendRequests nums isZero test opts (call :: calls),
    request.opts.body = opts.body := body_of_not_truthy htruthy
  have hrepeats : Repeats nums isZero test opts (call :: calls) ↔ opts.body = intended nums opts.body :=
    ⟨fun h => (hsent _ (List.mem_cons_self ..)).symm.trans (h _ (List.mem_cons_self ..)),
      fun h request hrequest => (hsent request hrequest).trans h⟩
  rw [hrepeats, eq_intended_iff]
  refine or_congr_right ⟨?_, fun hempty => ⟨[], hempty⟩⟩
  rintro ⟨s, hs⟩
  rw [hs, truthy, decide_eq_false_iff_not, not_not] at htruthy
  exact htruthy ▸ hs

theorem ne_of_truthy {body : Option (Json.Plain N)} (h : truthy isZero body = true) :
    body ≠ none ∧ body ≠ some (.str []) := by
  refine ⟨?_, ?_⟩ <;> rintro rfl <;> cases h

theorem not_repeats_of_string {call : Method × JsString} (hbody : opts.body = some (.str s)) (hne : s ≠ []) :
    ¬ Repeats nums isZero test opts (call :: calls) := by
  intro h
  obtain ⟨request, hrequest, hother⟩ : ∃ request ∈ sendRequests nums isZero test opts (call :: calls),
    request.opts.body ≠ some (.str s) := exists_requoted hbody hne (List.cons_ne_nil _ _)
  rw [h request hrequest, hbody] at hother
  exact hother rfl

/-- The second call finds the text that the first one made. -/
theorem not_repeats_again (hprint : ∀ n, nums.print n ≠ []) {call : Method × JsString}
    (htruthy : truthy isZero opts.body = true) (hstring : ∀ s, opts.body ≠ some (.str s))
    (hcalls : calls ≠ []) : ¬ Repeats nums isZero test opts (call :: calls) := by
  intro h
  obtain ⟨v, hv⟩ := Option.ne_none_iff_exists'.mp (ne_of_truthy htruthy).1
  have htext : (sendRequest nums isZero test call.1 call.2 (some opts)).opts.body =
      some (.str (Json.print nums v)) := by
    rw [body_sendRequest, if_pos htruthy, hv]
    rfl
  have hne : Json.print nums v ≠ [] := print_ne_nil hprint (hv ▸ htruthy)
  obtain ⟨request, hrequest, hother⟩ : ∃ request ∈ sendRequests nums isZero test
      (sendRequest nums isZero test call.1 call.2 (some opts)).opts calls,
    request.opts.body ≠ some (.str (Json.print nums v)) := exists_requoted htext hne hcalls
  rw [h request (List.mem_cons_of_mem _ hrequest), intended_of_not_string hstring, hv] at hother
  exact hother rfl

theorem repeats_iff_of_truthy (hprint : ∀ n, nums.print n ≠ []) {call : Method × JsString}
    (htruthy : truthy isZero opts.body = true) :
    Repeats nums isZero test opts (call :: calls) ↔ calls = [] ∧ ∀ s, opts.body ≠ some (.str s) := by
  refine ⟨fun h => ?_, ?_⟩
  · have hstring : ∀ s, opts.body ≠ some (.str s) := by
      intro s hs
      have hne : s ≠ [] := fun hempty => (ne_of_truthy htruthy).2 (hempty ▸ hs)
      exact not_repeats_of_string hs hne h
    refine ⟨?_, hstring⟩
    by_contra hcalls
    exact not_repeats_again hprint htruthy hstring hcalls h
  · rintro ⟨rfl, hstring⟩ request hrequest
    obtain rfl := List.mem_singleton.mp hrequest
    rw [body_sendRequest, if_pos htruthy, intended_of_not_string hstring]

/-- Calls with the same options repeat the body exactly if there is none or it is
    empty, or there is one call, with a truthy body that is no string. -/
theorem repeats_iff (hprint : ∀ n, nums.print n ≠ []) (test : Bool) (opts : Opts N)
    (calls : List (Method × JsString)) :
    Repeats nums isZero test opts calls ↔
      calls = [] ∨ opts.body = none ∨ opts.body = some (.str []) ∨
        calls.length = 1 ∧ truthy isZero opts.body = true ∧ ∀ s, opts.body ≠ some (.str s) := by
  cases calls with
  | nil => exact ⟨fun _ => .inl rfl, fun _ => nofun⟩
  | cons call calls =>
    rw [or_iff_right (List.cons_ne_nil call calls), List.length_cons, Nat.add_eq_right,
      List.length_eq_zero_iff]
    cases htruthy : truthy isZero opts.body with
    | false => simp [repeats_iff_of_not_truthy htruthy]
    | true =>
      obtain ⟨hnone, hempty⟩ := ne_of_truthy htruthy
      rw [repeats_iff_of_truthy hprint htruthy, or_iff_right hnone, or_iff_right hempty]
      simp only [true_and]

/-- Options with a body alone. -/
def bodyOpts (body : Json.Plain Nat) : Opts Nat := ⟨none, some body, none, none⟩

theorem repeats_iff_sample :
    Repeats Json.naturals (· == 0) false (bodyOpts (.obj [(units "id", .num 7)])) [(.post, units "/")] ↔
      [(Method.post, units "/")] = [] ∨ (bodyOpts (.obj [(units "id", .num 7)])).body = none ∨
        (bodyOpts (.obj [(units "id", .num 7)])).body = some (.str []) ∨
        [(Method.post, units "/")].length = 1 ∧
          truthy (· == 0) (bodyOpts (.obj [(units "id", .num 7)])).body = true ∧
          ∀ s, (bodyOpts (.obj [(units "id", .num 7)])).body ≠ some (.str s) := by
  refine repeats_iff (fun n => ?_) false _ _
  simp [Json.naturals, Json.indexKey]

/-- The second time the text is sent as a string in JSON. -/
theorem repeated_body_differs :
    ¬ Repeats Json.naturals (· == 0) false (bodyOpts (.obj [(units "id", .num 7)]))
      [(.post, units "/"), (.post, units "/")] := by
  intro h
  have hsecond := h _ (List.mem_cons_of_mem _ (List.mem_singleton.mpr rfl))
  have htext := Json.str.inj (Option.some.inj hsecond)
  revert htext
  decide

end Httpie

end anisa.utils
