import Anisa.Js.Json.RoundTrip

namespace anisa.js.Json

variable {N : Type} {nums : Numbers N} {text rest : JsString} {token : Token N} {ts :
    List (Token N)} {v : Plain N}
  {key : JsString} {fields : List (JsString × Plain N)}

/-- Every object in the value has each key once, and in the order of enumeration. -/
def InOrder (v : Plain N) : Prop := ∀ u ∈ v.inside, Enumerates u

def FieldsInOrder (fields : List (JsString × Plain N)) : Prop :=
  (fields.map Prod.fst).Nodup ∧ ∀ field ∈ fields, InOrder field.2

theorem inOrder_arr {xs : List (Plain N)} : InOrder (.arr xs) ↔ ∀ x ∈ xs, InOrder x := by
  rw [InOrder, forall_inside_arr]
  exact ⟨fun h => h.2, fun h => ⟨trivial, h⟩⟩

theorem inOrder_obj : InOrder (.obj fields) ↔ Enumerated (fields.map Prod.fst) ∧
    ∀ field ∈ fields, InOrder field.2 := forall_inside_obj

/-- There is no order in what has no parts. -/
theorem inOrder_of_inside (h : v.inside = [v]) (hv : Enumerates v) : InOrder v := by
  rw [InOrder, h]
  exact List.forall_mem_singleton.mpr hv

theorem FieldsInOrder.set (h : FieldsInOrder fields) (hv : InOrder v) :
    FieldsInOrder (OrderedMap.setEntries key v fields) := by
  refine ⟨OrderedMap.nodup_setEntries h.1, fun field hfield => ?_⟩
  obtain rfl | hmem := OrderedMap.mem_setEntries hfield
  · exact hv
  · exact h.2 field hmem

theorem FieldsInOrder.inOrder (h : FieldsInOrder fields) : InOrder (.obj (ownOrder fields)) :=
  inOrder_obj.mpr ⟨enumerated_ownOrder h.1, fun field hfield => h.2 field
    ((ownOrder_perm fields).mem_iff.mp hfield)⟩

/-- What a token stands for is in order: all but strings, numbers and literals are
    punctuation. -/
def Token.InOrder (token : Token N) : Prop := ∀ v, token = .scalar v → Json.InOrder v

theorem inOrder_str {s : JsString} : Token.InOrder (.scalar (.str s) : Token N) := by
  rintro v ⟨⟩ u hu
  obtain rfl := List.mem_singleton.mp hu
  trivial

theorem inOrder_wordToken {word : JsString} (h : wordToken nums word = some token) : token.InOrder := by
  unfold wordToken at h
  split_ifs at h <;>
  · obtain rfl := Option.some.inj h
    rintro v ⟨⟩ u hu
    obtain rfl := List.mem_singleton.mp hu
    trivial

theorem inOrder_stepBetween {c : UInt16} (h : token ∈ (stepBetween c : List (Token N) × Mode).1) :
    token.InOrder := by
  have hpunctuator {token : Token N} (h : punctuator? c = some token) : token.InOrder := by
    unfold punctuator? at h
    split_ifs at h <;>
    · obtain rfl := Option.some.inj h
      rintro v ⟨⟩
  unfold stepBetween at h
  split at h
  · cases h
  split at h
  · rename_i hsome
    obtain rfl := List.mem_singleton.mp h
    exact hpunctuator hsome
  · split at h <;> cases h

theorem inOrder_lexStep {mode : Mode} {c : UInt16} {next : List (Token N) × Mode}
    (h : lexStep nums mode c = some next) (htoken : token ∈ next.1) : token.InOrder := by
  cases mode with
  | between =>
    obtain rfl := Option.some.inj h
    exact inOrder_stepBetween htoken
  | word read =>
    rw [lexStep] at h
    split_ifs at h
    · obtain ⟨word, hword, h⟩ := Option.bind_eq_some_iff.mp h
      obtain rfl := Option.some.inj h
      obtain rfl | hmem := List.mem_cons.mp htoken
      · exact inOrder_wordToken hword
      · exact inOrder_stepBetween hmem
    · obtain rfl := Option.some.inj h
      cases htoken
  | string read =>
    rw [lexStep] at h
    split_ifs at h
    · obtain rfl := Option.some.inj h
      obtain rfl := List.mem_singleton.mp htoken
      exact inOrder_str
    all_goals
      obtain rfl := Option.some.inj h
      cases htoken
  | escape read =>
    rw [lexStep] at h
    split_ifs at h
    · obtain rfl := Option.some.inj h
      cases htoken
    · obtain ⟨d, -, rfl⟩ := Option.map_eq_some_iff.mp h
      cases htoken
  | unicode read digits =>
    rw [lexStep] at h
    obtain ⟨d, -, rfl⟩ := Option.map_eq_some_iff.mp h
    split at htoken <;> cases htoken

theorem inOrder_lex {mode : Mode} (h : lex nums mode text = some ts) : ∀ token ∈ ts, token.InOrder := by
  induction text generalizing mode ts with
  | nil =>
    cases mode with
    | between =>
      obtain rfl := Option.some.inj h
      exact List.forall_mem_nil _
    | word read =>
      obtain ⟨token, hword, rfl⟩ := Option.map_eq_some_iff.mp h
      exact List.forall_mem_singleton.mpr (inOrder_wordToken hword)
    | _ => cases h
  | cons c text ih =>
    rw [lex_cons] at h
    obtain ⟨next, hstep, h⟩ := Option.bind_eq_some_iff.mp h
    obtain ⟨rest, hrest, rfl⟩ := Option.map_eq_some_iff.mp h
    exact List.forall_mem_append.mpr ⟨fun token => inOrder_lexStep hstep, ih hrest⟩

def Context.InOrder : Context N → Prop
  | .arr xs => ∀ x ∈ xs, Json.InOrder x
  | .obj fields _ => FieldsInOrder fields

def Expects.InOrder : Expects N → Prop
  | .key fields | .colon fields _ => FieldsInOrder fields
  | .follows v => Json.InOrder v
  | _ => True

structure Parser.InOrder (parser : Parser N) : Prop where
  contexts : ∀ context ∈ parser.contexts, context.InOrder
  expects : parser.expects.InOrder

namespace Parser

variable {self next : Parser N} {contexts : List (Context N)}

theorem inOrder_startValue (hcontexts : ∀ context ∈ contexts, context.InOrder) (htoken : token.InOrder)
    (h : startValue contexts token = some next) : next.InOrder := by
  cases token with
  | scalar v =>
    obtain rfl := Option.some.inj h
    exact ⟨hcontexts, htoken v rfl⟩
  | leftBracket =>
    obtain rfl := Option.some.inj h
    exact ⟨List.forall_mem_cons.mpr ⟨List.forall_mem_nil _, hcontexts⟩, trivial⟩
  | leftBrace =>
    obtain rfl := Option.some.inj h
    exact ⟨hcontexts, trivial⟩
  | _ => cases h

theorem inOrder_afterValue (hcontexts : ∀ context ∈ contexts, context.InOrder) (hv : Json.InOrder v)
    (h : afterValue v contexts token = some next) : next.InOrder := by
  unfold afterValue at h
  split at h
  · rw [List.forall_mem_cons] at hcontexts
    obtain rfl := Option.some.inj h
    refine ⟨List.forall_mem_cons.mpr ⟨?_, hcontexts.2⟩, trivial⟩
    exact List.forall_mem_append.mpr ⟨hcontexts.1, List.forall_mem_singleton.mpr hv⟩
  · rw [List.forall_mem_cons] at hcontexts
    obtain rfl := Option.some.inj h
    refine ⟨hcontexts.2, inOrder_arr.mpr ?_⟩
    exact List.forall_mem_append.mpr ⟨hcontexts.1, List.forall_mem_singleton.mpr hv⟩
  · rw [List.forall_mem_cons] at hcontexts
    obtain rfl := Option.some.inj h
    exact ⟨hcontexts.2, FieldsInOrder.set hcontexts.1 hv⟩
  · rw [List.forall_mem_cons] at hcontexts
    obtain rfl := Option.some.inj h
    exact ⟨hcontexts.2, (FieldsInOrder.set hcontexts.1 hv).inOrder⟩
  · cases h

theorem inOrder_step (hself : self.InOrder) (htoken : token.InOrder) (h : self.step token = some next) :
    next.InOrder := by
  obtain ⟨contexts, expects⟩ := self
  obtain ⟨hcontexts, hexpects⟩ := hself
  have hnone : FieldsInOrder ([] : List (JsString × Plain N)) := ⟨List.nodup_nil, List.forall_mem_nil _⟩
  unfold step at h
  split at h
  · exact inOrder_startValue hcontexts htoken h
  · obtain rfl := Option.some.inj h
    exact ⟨fun context hmem => hcontexts context (List.mem_of_mem_tail hmem),
      inOrder_arr.mpr (List.forall_mem_nil _)⟩
  · exact inOrder_startValue hcontexts htoken h
  · obtain rfl := Option.some.inj h
    exact ⟨hcontexts, hnone.inOrder⟩
  · obtain rfl := Option.some.inj h
    exact ⟨hcontexts, hnone⟩
  · obtain rfl := Option.some.inj h
    rename_i fields key hsame
    cases hsame
    exact ⟨hcontexts, hexpects⟩
  · obtain rfl := Option.some.inj h
    rename_i fields key hsame
    cases hsame
    exact ⟨List.forall_mem_cons.mpr ⟨hexpects, hcontexts⟩, trivial⟩
  · rename_i v hsame
    cases hsame
    exact inOrder_afterValue hcontexts hexpects h
  · cases h

theorem inOrder_run (hself : self.InOrder) (hts : ∀ token ∈ ts, token.InOrder) (h : self.run ts = some next) :
    next.InOrder := by
  induction ts generalizing self with
  | nil =>
    obtain rfl := Option.some.inj h
    exact hself
  | cons token ts ih =>
    rw [List.forall_mem_cons] at hts
    obtain ⟨middle, hstep, hrest⟩ := Option.bind_eq_some_iff.mp h
    exact ih (inOrder_step hself hts.1 hstep) hts.2 hrest

end Parser

/-- What is read from a text has the keys of each object in order. -/
theorem inOrder_parse (h : parse nums text = some v) : InOrder v := by
  obtain ⟨ts, hts, h⟩ := Option.bind_eq_some_iff.mp h
  obtain ⟨parser, hrun, h⟩ := Option.bind_eq_some_iff.mp h
  have hstart : Parser.InOrder (⟨[], .value⟩ : Parser N) := ⟨List.forall_mem_nil _, trivial⟩
  have hparser := Parser.inOrder_run hstart (inOrder_lex hts) hrun
  obtain ⟨contexts, expects⟩ := parser
  unfold Parser.finish at h
  split at h
  · rename_i hfollows
    obtain rfl := Option.some.inj h
    have hexpects := hparser.expects
    rwa [hfollows] at hexpects
  · cases h

/-! What begins with a bracket or a brace is an array or an object. -/

def IsComposite (v : Plain N) : Prop := (∃ xs, v = .arr xs) ∨ ∃ fields, v = .obj fields

namespace Parser

variable {self next : Parser N} {contexts : List (Context N)}

/-- An array or object has been entered, or is what has been read. -/
def Entered (parser : Parser N) : Prop :=
  parser.contexts ≠ [] ∨
    match parser.expects with
    | .property | .key _ | .colon _ _ => True
    | .follows v => IsComposite v
    | _ => False

theorem entered_startValue (hcontexts : contexts ≠ []) (h : startValue contexts token = some next) :
    next.Entered := by
  cases token with
  | leftBracket =>
    obtain rfl := Option.some.inj h
    exact .inl (List.cons_ne_nil _ _)
  | leftBrace | scalar =>
    obtain rfl := Option.some.inj h
    exact .inl hcontexts
  | _ => cases h

theorem entered_afterValue (h : afterValue v contexts token = some next) : next.Entered := by
  unfold afterValue at h
  split at h
  · obtain rfl := Option.some.inj h
    exact .inl (List.cons_ne_nil _ _)
  · obtain rfl := Option.some.inj h
    exact .inr (.inl ⟨_, rfl⟩)
  · obtain rfl := Option.some.inj h
    exact .inr trivial
  · obtain rfl := Option.some.inj h
    exact .inr (.inr ⟨_, rfl⟩)
  · cases h

theorem entered_step (hself : self.Entered) (h : self.step token = some next) : next.Entered := by
  obtain ⟨contexts, expects⟩ := self
  unfold step at h
  split at h
  · rename_i hsame
    cases hsame
    exact entered_startValue (hself.resolve_right id) h
  · obtain rfl := Option.some.inj h
    exact .inr (.inl ⟨_, rfl⟩)
  · rename_i hsame _
    cases hsame
    exact entered_startValue (hself.resolve_right id) h
  · obtain rfl := Option.some.inj h
    exact .inr (.inr ⟨_, rfl⟩)
  · obtain rfl := Option.some.inj h
    exact .inr trivial
  · obtain rfl := Option.some.inj h
    exact .inr trivial
  · obtain rfl := Option.some.inj h
    exact .inl (List.cons_ne_nil _ _)
  · exact entered_afterValue h
  · cases h

theorem entered_run (hself : self.Entered) (h : self.run ts = some next) : next.Entered := by
  induction ts generalizing self with
  | nil =>
    obtain rfl := Option.some.inj h
    exact hself
  | cons token ts ih =>
    obtain ⟨middle, hstep, hrest⟩ := Option.bind_eq_some_iff.mp h
    exact ih (entered_step hself hstep) hrest

end Parser

/-- White space in front of a text has no tokens. -/
theorem lex_dropWhile : lex nums .between (text.dropWhile isWhitespace) = lex nums .between text := by
  induction text with
  | nil => rfl
  | cons c text ih =>
    cases hspace : isWhitespace c with
    | false => rw [List.dropWhile_cons_of_neg (by simp [hspace])]
    | true =>
      have hskip : stepBetween (N := N) c = ([], .between) := by rw [stepBetween, if_pos hspace]
      rw [List.dropWhile_cons_of_pos hspace, ih, lex_between_cons, hskip]
      simp

theorem isComposite_parse {c : UInt16} (hstart : text.dropWhile isWhitespace = c :: rest)
    (hc : c = unit '\x7b' ∨ c = unit '[') (h : parse nums text = some v) : IsComposite v := by
  obtain ⟨ts, hts, h⟩ := Option.bind_eq_some_iff.mp h
  obtain ⟨parser, hrun, h⟩ := Option.bind_eq_some_iff.mp h
  rw [← lex_dropWhile, hstart, lex_between_cons] at hts
  have hentered : parser.Entered := by
    obtain rfl | rfl := hc
    · obtain ⟨us, -, rfl⟩ := Option.map_eq_some_iff.mp hts
      have hstart : Parser.Entered (⟨[], .property⟩ : Parser N) := .inr trivial
      exact Parser.entered_run hstart hrun
    · obtain ⟨us, -, rfl⟩ := Option.map_eq_some_iff.mp hts
      have hstart : Parser.Entered (⟨[.arr []], .element⟩ : Parser N) := .inl (List.cons_ne_nil _ _)
      exact Parser.entered_run hstart hrun
  obtain ⟨contexts, expects⟩ := parser
  unfold Parser.finish at h
  split at h
  · rename_i hcontexts hfollows
    cases hcontexts
    cases hfollows
    obtain rfl := Option.some.inj h
    exact hentered.resolve_left fun hne => hne rfl
  · cases h

end anisa.js.Json
