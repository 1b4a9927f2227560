import Anisa.Js.OrderedMap
import Anisa.Js.Value

open anisa.js

namespace anisa.walletApi

/-- Header names are in lower case, as the server hands them over. -/
structure Request where
  method : String
  headers : OrderedMap String String

/-- What is sent. A field is `none` where it is undefined. -/
structure Output where
  statusCode : Option Nat
  payload : JsValue
  headers : Option (OrderedMap String JsValue)

/-- A Boom error with its data, or any other response, which has these fields
    itself. -/
inductive Response where
  | boom (data : JsValue) (output : Output)
  | plain (response : Output)

/-- A header is set to that of the request, if it has a value. -/
def setGiven (headers : OrderedMap String JsValue) (name : String) (value : Option String) :
    OrderedMap String JsValue :=
  match value.filter (· ≠ "") with
  | some value => headers.set name (.str value)
  | none => headers

/-- `cors-headers` on the output of an error, or on a response. `maxAge` is the
    option of that name. -/
def setCorsHeaders (maxAge : JsValue) (request : Request) (response : Output) : Except JsError Output :=
  match (request.headers.get "origin").filter (· ≠ "") with
  | none => .ok response
  | some origin =>
    match response.headers with
    | none => .error .typeError
    | some headers =>
      let headers := headers.set "access-control-allow-origin" (.str origin)
      let headers := headers.set "access-control-allow-credentials" (.str "true")
      if request.method ≠ "options" then .ok { response with headers := some headers }
      else
        let headers := headers.set "access-control-expose-headers" (.str "content-type, content-length, etag")
        let headers := headers.set "access-control-max-age" (if maxAge.truthy then maxAge else .num (60 * 10))
        let headers := setGiven headers "access-control-allow-headers"
          (request.headers.get "access-control-request-headers")
        let headers := setGiven headers "access-control-allow-methods"
          (request.headers.get "access-control-request-method")
        .ok { response with statusCode := some 200, headers := some headers }

def corsHeaders (maxAge : JsValue) (request : Request) : Response → Except JsError Response
  | .boom data output => (setCorsHeaders maxAge request output).map (.boom data)
  | .plain response => (setCorsHeaders maxAge request response).map .plain

/-- `set-headers`. What it deletes from the payload goes with the old payload. -/
def setHeaders : Response → Response
  | .boom data output =>
    if data.truthy then
      .boom data { statusCode := none, payload := .obj [("error", data)], headers := none }
    else .boom data output
  | response => response

/-- The two extensions in the order of their registration, in which `cors-headers`
    is given no options. -/
def onPreResponse (request : Request) (response : Response) : Except JsError Response :=
  (corsHeaders .undefined request response).map setHeaders

variable {request : Request} {output : Output} {headers : OrderedMap String JsValue}
  {origin name : String} {code : Nat} {data payload : JsValue}

/-- The headers that `cors-headers` answers a request with. -/
def corsNames (request : Request) : List String :=
  ["access-control-allow-origin", "access-control-allow-credentials"] ++
    if request.method = "options" then
      ["access-control-expose-headers", "access-control-max-age"] ++
        (if ((request.headers.get "access-control-request-headers").filter (· ≠ "")).isSome then
          ["access-control-allow-headers"] else []) ++
        (if ((request.headers.get "access-control-request-method").filter (· ≠ "")).isSome then
          ["access-control-allow-methods"] else [])
    else []

theorem get_setGiven {value : Option String} {key : String} (hname : name ≠ key) :
    (setGiven headers key value).get name = headers.get name := by
  unfold setGiven
  split
  · exact OrderedMap.get_set_of_ne hname
  · rfl

theorem get_setGiven_of_unnamed {value : Option String} {key : String}
    (hname : name ∉ if (value.filter (· ≠ "")).isSome then [key] else []) :
    (setGiven headers key value).get name = headers.get name := by
  unfold setGiven
  split
  · next heq =>
    rw [heq] at hname
    exact OrderedMap.get_set_of_ne (by simpa using hname)
  · rfl

theorem mem_keys_setGiven_of_mem {value : Option String} {key : String} (hname : name ∈ headers.keys) :
    name ∈ (setGiven headers key value).keys := by
  unfold setGiven
  split
  · exact OrderedMap.mem_keys_set.mpr (.inr hname)
  · exact hname

/-- What is sent has the status code of the error, or 200, the two headers of a
    cross-origin answer and the headers of the error. Only those that the request
    is answered with have other values. -/
structure Keeps (request : Request) (origin : String) (code : Nat) (headers sent : OrderedMap String JsValue)
    (after : Output) : Prop where
  statusCode : after.statusCode = some (if request.method = "options" then 200 else code)
  sends : after.headers = some sent
  allowOrigin : sent.get "access-control-allow-origin" = some (.str origin)
  allowCredentials : sent.get "access-control-allow-credentials" = some (.str "true")
  present : ∀ name ∈ headers.keys, name ∈ sent.keys
  others : ∀ name, name ∉ corsNames request → sent.get name = headers.get name

/-- With a value of the Origin header `cors-headers` does all that is asked of it. -/
theorem setCorsHeaders_keeps (maxAge : JsValue) (horigin : request.headers.get "origin" = some origin)
    (hvalue : origin ≠ "") : ∃ after,
      setCorsHeaders maxAge request ⟨some code, payload, some headers⟩ = .ok after ∧
        ∃ sent, Keeps request origin code headers sent after := by
  have hfilter : (request.headers.get "origin").filter (· ≠ "") = some origin := by
    simp [horigin, hvalue]
  by_cases hoptions : request.method = "options"
  · refine ⟨_, by simp only [setCorsHeaders, hfilter, hoptions, ne_eq, not_true_eq_false, if_false]; rfl,
      _, by rw [if_pos hoptions], rfl, ?_, ?_, ?_, ?_⟩
    · rw [get_setGiven (by decide), get_setGiven (by decide), OrderedMap.get_set_of_ne (by decide),
        OrderedMap.get_set_of_ne (by decide), OrderedMap.get_set_of_ne (by decide), OrderedMap.get_set_self]
    · rw [get_setGiven (by decide), get_setGiven (by decide), OrderedMap.get_set_of_ne (by decide),
        OrderedMap.get_set_of_ne (by decide), OrderedMap.get_set_self]
    · intro name hname
      refine mem_keys_setGiven_of_mem (mem_keys_setGiven_of_mem ?_)
      simp only [OrderedMap.mem_keys_set, hname, or_true]
    · intro name hname
      simp only [corsNames, hoptions, if_true, List.mem_append, List.mem_cons, List.not_mem_nil, or_false,
        not_or] at hname
      obtain ⟨⟨horiginName, hcredentials⟩, ⟨⟨hexpose, hmaxAge⟩, hallowHeaders⟩, hallowMethods⟩ := hname
      rw [get_setGiven_of_unnamed hallowMethods, get_setGiven_of_unnamed hallowHeaders,
        OrderedMap.get_set_of_ne hmaxAge, OrderedMap.get_set_of_ne hexpose,
        OrderedMap.get_set_of_ne hcredentials, OrderedMap.get_set_of_ne horiginName]
  · refine ⟨_, by simp only [setCorsHeaders, hfilter, hoptions, ne_eq, not_false_eq_true, if_true]; rfl,
      _, by rw [if_neg hoptions], rfl, ?_, OrderedMap.get_set_self, ?_, ?_⟩
    · rw [OrderedMap.get_set_of_ne (by decide), OrderedMap.get_set_self]
    · intro name hname
      simp only [OrderedMap.mem_keys_set, hname, or_true]
    · intro name hname
      simp only [corsNames, hoptions, if_false, List.append_nil, List.mem_cons, List.not_mem_nil, or_false,
        not_or] at hname
      rw [OrderedMap.get_set_of_ne hname.2, OrderedMap.get_set_of_ne hname.1]

theorem setCorsHeaders_of_no_value (maxAge : JsValue) (horigin : request.headers.get "origin" = some "") :
    setCorsHeaders maxAge request output = .ok output := by
  have hfilter : (request.headers.get "origin").filter (· ≠ "") = none := by simp [horigin]
  rw [setCorsHeaders, hfilter]

/-- Nothing but the payload differs. -/
def SameButPayload : Response → Response → Prop
  | .boom data output, .boom data' output' =>
    data' = data ∧ output' = { output with payload := output'.payload }
  | .plain response, .plain response' => response' = { response with payload := response'.payload }
  | _, _ => False

/-- An error keeps its status and headers through the two extensions, the second of
    which changes nothing but the payload. -/
def ErrorKept (request : Request) (origin : String) (data payload : JsValue) (code : Nat)
    (headers : OrderedMap String JsValue) : Prop :=
  ∃ middle after sent,
    corsHeaders .undefined request (.boom data ⟨some code, payload, some headers⟩) = .ok middle ∧
      SameButPayload middle (setHeaders middle) ∧
      onPreResponse request (.boom data ⟨some code, payload, some headers⟩) = .ok (.boom data after) ∧
      Keeps request origin code headers sent after

/-- An Origin header without a value is taken for none; the error must then have
    what is asked for already. -/
def AlreadyKept (request : Request) (code : Nat) (headers : OrderedMap String JsValue) : Prop :=
  (request.method = "options" → code = 200) ∧ headers.get "access-control-allow-origin" = some (.str "") ∧
    headers.get "access-control-allow-credentials" = some (.str "true")

theorem alreadyKept_iff : AlreadyKept request code headers ↔
    ∃ sent, Keeps request "" code headers sent ⟨some code, payload, some headers⟩ := by
  refine ⟨?_, ?_⟩
  · rintro ⟨hcode, hallowOrigin, hallowCredentials⟩
    refine ⟨headers, ?_, rfl, hallowOrigin, hallowCredentials, fun _ h => h, fun _ _ => rfl⟩
    split
    · next hoptions => rw [hcode hoptions]
    · rfl
  · rintro ⟨sent, hkeeps⟩
    obtain rfl : headers = sent := Option.some.inj hkeeps.sends
    refine ⟨fun hoptions => ?_, hkeeps.allowOrigin, hkeeps.allowCredentials⟩
    have hcode := hkeeps.statusCode
    rw [if_pos hoptions] at hcode
    exact Option.some.inj hcode

/-- An error keeps its status and headers exactly if it has no data. -/
theorem errorKept_iff (request : Request) (origin : String)
    (horigin : request.headers.get "origin" = some origin)
    (data payload : JsValue) (code : Nat) (headers : OrderedMap String JsValue) :
    ErrorKept request origin data payload code headers ↔
      data.truthy = false ∧ (origin = "" → AlreadyKept request code headers) := by
  have hset (output : Output) : setHeaders (.boom data output) = if data.truthy then
      .boom data { statusCode := none, payload := .obj [("error", data)], headers := none }
      else .boom data output := rfl
  refine ⟨?_, ?_⟩
  · rintro ⟨middle, after, sent, hcors, -, hresponse, hkeeps⟩
    rw [onPreResponse, hcors] at hresponse
    obtain ⟨output, houtput, rfl⟩ := map_eq_ok_iff.mp hcors
    have hafter := Except.ok.inj hresponse
    rw [hset] at hafter
    cases hdata : data.truthy with
    | true =>
      rw [hdata, if_pos rfl] at hafter
      obtain rfl := (Response.boom.inj hafter).2
      cases hkeeps.statusCode
    | false =>
      rw [hdata, if_neg Bool.false_ne_true] at hafter
      obtain rfl := (Response.boom.inj hafter).2
      refine ⟨rfl, ?_⟩
      rintro rfl
      rw [setCorsHeaders_of_no_value _ horigin] at houtput
      obtain rfl := Except.ok.inj houtput
      exact alreadyKept_iff.mpr ⟨sent, hkeeps⟩
  · rintro ⟨hdata, halready⟩
    have hkept (output : Output) : setHeaders (.boom data output) = .boom data output := by
      rw [hset, hdata, if_neg Bool.false_ne_true]
    obtain ⟨after, hafter, sent, hkeeps⟩ : ∃ after,
        setCorsHeaders .undefined request ⟨some code, payload, some headers⟩ = .ok after ∧
          ∃ sent, Keeps request origin code headers sent after := by
      by_cases hvalue : origin = ""
      · subst hvalue
        exact ⟨_, setCorsHeaders_of_no_value _ horigin, alreadyKept_iff.mp (halready rfl)⟩
      · exact setCorsHeaders_keeps .undefined horigin hvalue
    have hcors : corsHeaders .undefined request (.boom data ⟨some code, payload, some headers⟩) =
        .ok (.boom data after) := by
      rw [corsHeaders, hafter]
      rfl
    refine ⟨_, after, sent, hcors, ?_, ?_, hkeeps⟩
    · rw [hkept]
      exact ⟨rfl, rfl⟩
    · rw [onPreResponse, hcors]
      exact congrArg Except.ok (hkept after)

def sampleRequest : Request := ⟨"get", OrderedMap.empty.set "origin" "https://wallet.example"⟩

theorem errorKept_iff_sample :
    ErrorKept sampleRequest "https://wallet.example" .undefined (.obj [("statusCode", .num 404)]) 404
        (OrderedMap.empty.set "retry-after" (.num 60)) ↔
      JsValue.undefined.truthy = false ∧ ("https://wallet.example" = "" →
        AlreadyKept sampleRequest 404 (OrderedMap.empty.set "retry-after" (.num 60))) :=
  errorKept_iff sampleRequest "https://wallet.example" rfl _ _ _ _

/-- An error with data loses its status and all headers. -/
theorem error_with_data_not_kept :
    ¬ ErrorKept sampleRequest "https://wallet.example" (.str "the asset is unknown")
      (.obj [("statusCode", .num 404), ("error", .str "Not Found")]) 404 .empty := by
  rintro ⟨middle, after, sent, -, -, hresponse, hkeeps⟩
  obtain rfl := (Response.boom.inj (Except.ok.inj hresponse)).2
  cases hkeeps.statusCode

end anisa.walletApi
