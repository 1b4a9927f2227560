import Anisa.Js.Json.Parser

namespace anisa.js.Json

variable {N : Type} {nums : Numbers N} {c : UInt16} {text rest read word s : JsString} {token : Token N}
  {ts us : List (Token N)}

/-- A number or a literal does not go on there. -/
def Delimited (rest : JsString) : Prop := ∀ c, rest.head? = some c → endsWord c = true

/-- In front of anything that does not go on with its last word, the text has these
    tokens. -/
def Lexes (nums : Numbers N) (text : JsString) (ts : List (Token N)) : Prop :=
  ∀ rest, Delimited rest → lex nums .between (text ++ rest) = (lex nums .between rest).map (ts ++ ·)

theorem lex_cons (mode : Mode) : lex nums mode (c :: text) =
    (lexStep nums mode c).bind fun next => (lex nums next.2 text).map (next.1 ++ ·) := by
  cases mode <;> rfl

theorem lex_of_step {mode next : Mode} (h : lexStep nums mode c = some ([], next)) :
    lex nums mode (c :: text) = lex nums next text := by
  rw [lex_cons, h, Option.bind_some]
  simp

theorem lex_between_cons : lex nums .between (c :: text) =
    (lex nums (stepBetween (N := N) c).2 text).map ((stepBetween c).1 ++ ·) := by
  rw [lex_cons, lexStep, Option.bind_some]

theorem Lexes.cons (h : Lexes nums text ts) (hc : stepBetween c = ([token], .between)) :
    Lexes nums (c :: text) (token :: ts) := by
  intro rest hrest
  rw [List.cons_append, lex_between_cons, hc, h rest hrest, Option.map_map]
  rfl

theorem Lexes.append (h : Lexes nums text ts) (hs : Lexes nums s us) (hne : s ≠ [])
    (hdelimited : Delimited s) :
    Lexes nums (text ++ s) (ts ++ us) := by
  intro rest hrest
  have hgoes : Delimited (s ++ rest) := by
    intro c hc
    rw [List.head?_append_of_ne_nil _ hne] at hc
    exact hdelimited c hc
  rw [List.append_assoc, h _ hgoes, hs rest hrest, Option.map_map]
  congr 1
  funext vs
  simp

theorem Lexes.nil : Lexes nums [] [] := by
  intro rest _
  simp

/-! Numbers and literals. -/

theorem mem_of_endsWord (h : endsWord c = true) :
    c ∈ [unit ' ', unit '\n', unit '\r', unit '\t', unit '\x7b', unit '\x7d', unit '[', unit ']', unit ',',
      unit ':', quotationMark] := by
  by_contra hnot
  simp only [List.mem_cons, List.not_mem_nil, or_false, not_or] at hnot
  simp [endsWord, isWhitespace, punctuator?, hnot] at h

theorem next_of_endsWord (h : endsWord c = true) (state : NumberState) : state.next c = none := by
  have hmem := mem_of_endsWord h
  simp only [List.mem_cons, List.not_mem_nil, or_false] at hmem
  cases state <;> rcases hmem with rfl | rfl | rfl | rfl | rfl | rfl | rfl | rfl | rfl | rfl | rfl <;> rfl

theorem endsWord_of_mem_number {state : NumberState} (h : state.run word = true) (hc : c ∈ word) :
    endsWord c = false := by
  induction word generalizing state with
  | nil => cases hc
  | cons d word ih =>
    rw [NumberState.run] at h
    cases hends : endsWord d with
    | true =>
      rw [next_of_endsWord hends] at h
      cases h
    | false =>
      split at h
      · obtain rfl | hmem := List.mem_cons.mp hc
        · exact hends
        · exact ih h hmem
      · cases h

theorem lex_word (hword : ∀ c ∈ word, endsWord c = false) :
    lex nums (.word read) (word ++ rest) = lex nums (.word (read ++ word)) rest := by
  induction word generalizing read with
  | nil => simp
  | cons c word ih =>
    rw [List.forall_mem_cons] at hword
    rw [List.cons_append, lex_cons, lexStep, if_neg (by simp [hword.1]), Option.bind_some, ih hword.2]
    simp

theorem lex_word_end (htoken : wordToken nums read = some token) (hrest : Delimited rest) :
    lex nums (.word read) rest = (lex nums .between rest).map (token :: ·) := by
  cases rest with
  | nil => simp [lex, htoken]
  | cons c rest =>
    rw [lex_cons, lexStep, if_pos (hrest c rfl), lex_between_cons]
    simp [htoken, Function.comp_def]

theorem stepBetween_of_word (h : endsWord c = false) :
    stepBetween c = (([], .word [c]) : List (Token N) × Mode) := by
  simp only [endsWord, Bool.or_eq_false_iff, decide_eq_false_iff_not, Option.isSome_eq_false_iff,
    Option.isNone_iff_eq_none] at h
  obtain ⟨⟨hspace, hpunctuator⟩, hquote⟩ := h
  have hnone : punctuator? c = (none : Option (Token N)) := by
    simp only [punctuator?] at hpunctuator ⊢
    split_ifs at hpunctuator ⊢
    rfl
  simp [stepBetween, hspace, hnone, hquote]

theorem endsWord_of_all (h : word.all (fun c => !endsWord c) = true) : ∀ c ∈ word, endsWord c = false := by
  simpa using h

theorem lexes_word (hne : word ≠ []) (hword : ∀ c ∈ word, endsWord c = false)
    (htoken : wordToken nums word = some token) : Lexes nums word [token] := by
  intro rest hrest
  cases word with
  | nil => exact absurd rfl hne
  | cons c word =>
    rw [List.forall_mem_cons] at hword
    rw [List.cons_append, lex_between_cons, stepBetween_of_word hword.1, lex_word hword.2,
      List.singleton_append, lex_word_end htoken hrest, Option.map_map]
    rfl

/-- The text of a number is read as that number. -/
def Exact (nums : Numbers N) (n : N) : Prop := isNumber (nums.print n) = true ∧ nums.parse (nums.print n) = n

theorem lexes_number {n : N} (h : Exact nums n) : Lexes nums (nums.print n) [.scalar (.num n)] := by
  refine lexes_word ?_ (fun c hc => endsWord_of_mem_number h.1 hc) ?_
  · intro hnil
    have hnumber := h.1
    rw [hnil] at hnumber
    cases hnumber
  · rw [wordToken, if_pos h.1, h.2]

/-! Strings. -/

theorem hexValue_hexDigit {n : Nat} (h : n < 16) : hexValue? (hexDigit n) = some n := by
  have hall : ∀ n < 16, hexValue? (hexDigit n) = some n := by decide
  exact hall n h

theorem lex_unicodeEscape :
    lex nums (.string read) (unicodeEscape c ++ rest) = lex nums (.string (read ++ [c])) rest := by
  have hc := c.toNat_lt
  have hvalue : UInt16.ofNat (((c.toNat / 4096 * 16 + c.toNat / 256 % 16) * 16 + c.toNat / 16 % 16) * 16 +
      c.toNat % 16) = c := by
    have hsum : ((c.toNat / 4096 * 16 + c.toNat / 256 % 16) * 16 + c.toNat / 16 % 16) * 16 + c.toNat % 16 =
        c.toNat := by omega
    rw [hsum, UInt16.ofNat_toNat]
  have hopen : lexStep nums (.string read) reverseSolidus = some ([], .escape read) := rfl
  have hunicode : lexStep nums (.escape read) (unit 'u') = some ([], .unicode read []) := rfl
  have hdigit {n : Nat} {digits : List Nat} (hn : n < 16) (hdigits : digits.length < 3) :
      lexStep nums (.unicode read digits) (hexDigit n) = some ([], .unicode read (digits ++ [n])) := by
    rw [lexStep, hexValue_hexDigit hn, Option.map_some]
    split
    · simp at hdigits
    · rfl
  have hlast {x y z n : Nat} (hn : n < 16) : lexStep nums (.unicode read [x, y, z]) (hexDigit n) =
      some ([], .string (read ++ [UInt16.ofNat (((x * 16 + y) * 16 + z) * 16 + n)])) := by
    rw [lexStep, hexValue_hexDigit hn, Option.map_some]
  simp only [unicodeEscape, List.cons_append, List.nil_append]
  rw [lex_of_step hopen, lex_of_step hunicode, lex_of_step (hdigit (by omega) (by simp)),
    lex_of_step (hdigit (by omega) (by simp)), lex_of_step (hdigit (by omega) (by simp))]
  simp only [List.nil_append, List.cons_append]
  rw [lex_of_step (hlast (by omega)), hvalue]

theorem escaped_shortEscape {d : UInt16} (h : shortEscape? c = some d) :
    d ≠ unit 'u' ∧ escaped? d = some c := by
  unfold shortEscape? at h
  split_ifs at h with hself
  · obtain rfl := Option.some.inj h
    obtain rfl | rfl : c = quotationMark ∨ c = reverseSolidus := by simpa using hself
    · exact ⟨by decide, rfl⟩
    · exact ⟨by decide, rfl⟩
  all_goals
    subst c
    obtain rfl := Option.some.inj h
    exact ⟨by decide, rfl⟩

theorem lex_quoteUnit {lone : Bool} :
    lex nums (.string read) (quoteUnit lone c ++ rest) = lex nums (.string (read ++ [c])) rest := by
  unfold quoteUnit
  split
  · rename_i d hescape
    obtain ⟨hunicode, hescaped⟩ := escaped_shortEscape hescape
    have hopen : lexStep nums (.string read) reverseSolidus = some ([], .escape read) := rfl
    have hclose : lexStep nums (.escape read) d = some ([], .string (read ++ [c])) := by
      rw [lexStep, if_neg hunicode, hescaped, Option.map_some]
    rw [List.cons_append, List.singleton_append, lex_of_step hopen, lex_of_step hclose]
  · rename_i hplain
    by_cases hunicode : (c < 0x20 || lone) = true
    · rw [if_pos hunicode, lex_unicodeEscape]
    · have hself : c ≠ quotationMark ∧ c ≠ reverseSolidus := by
        refine ⟨?_, ?_⟩
        · rintro rfl
          cases hplain
        · rintro rfl
          cases hplain
      rw [if_neg hunicode]
      simp only [Bool.or_eq_true, decide_eq_true_eq, not_or] at hunicode
      rw [List.singleton_append, lex_of_step]
      rw [lexStep, if_neg hself.1, if_neg hself.2, if_neg hunicode.1]

theorem lex_quoteUnits {paired : Bool} :
    lex nums (.string read) (quoteUnits paired s ++ rest) = lex nums (.string (read ++ s)) rest := by
  induction s generalizing read paired with
  | nil => simp [quoteUnits]
  | cons c s ih =>
    rw [quoteUnits, List.append_assoc, lex_quoteUnit, ih]
    simp

theorem lexes_quote (s : JsString) : Lexes nums (quote s) [.scalar (.str s)] := by
  intro rest _
  have hopen : stepBetween (N := N) quotationMark = ([], .string []) := rfl
  have hclose : lexStep nums (.string s) quotationMark = some ([.scalar (.str s)], .between) := rfl
  rw [quote, List.cons_append, List.cons_append, List.append_assoc, lex_between_cons, hopen, lex_quoteUnits,
    List.nil_append, List.singleton_append, lex_cons, hclose, Option.bind_some, Option.map_map]
  rfl

/-! Arrays and objects. -/

variable {v : Plain N} {xs : List (Plain N)} {fields : List (JsString × Plain N)}

theorem delimited_cons (h : endsWord c = true) : Delimited (c :: text) := by
  intro d hd
  obtain rfl := Option.some.inj hd
  exact h

theorem lexes_rightBracket : Lexes nums [unit ']'] [.rightBracket] := Lexes.nil.cons rfl

theorem lexes_rightBrace : Lexes nums [unit '\x7d'] [.rightBrace] := Lexes.nil.cons rfl

/-- Texts between commas have the tokens of each, between commas. -/
theorem lexes_intercalate {texts : List JsString} {tss : List (List (Token N))}
    (h : List.Forall₂ (Lexes nums) texts tss) :
    Lexes nums (List.intercalate [unit ','] texts) (List.intercalate [.comma] tss) := by
  induction h with
  | nil => exact Lexes.nil
  | @cons text ts texts tss hhead htail ih =>
    cases htail with
    | nil => simpa using hhead
    | cons hnext hrest =>
      rw [List.intercalate_cons_cons, List.intercalate_cons_cons, List.append_assoc, List.append_assoc]
      exact hhead.append (ih.cons rfl) (List.cons_ne_nil _ _) (delimited_cons rfl)

theorem forall₂_elements (h : ∀ x ∈ xs, Lexes nums (print nums x) (tokens x)) :
    List.Forall₂ (Lexes nums) (printElements nums xs) (tokensElements xs) := by
  induction xs with
  | nil => exact .nil
  | cons x xs ih =>
    rw [List.forall_mem_cons] at h
    exact .cons h.1 (ih h.2)

theorem forall₂_fields (h : ∀ field ∈ fields, Lexes nums (print nums field.2) (tokens field.2)) :
    List.Forall₂ (Lexes nums) (printFields nums fields) (tokensFields fields) := by
  induction fields with
  | nil => exact .nil
  | cons field fields ih =>
    obtain ⟨key, v⟩ := field
    rw [List.forall_mem_cons] at h
    refine .cons ?_ (ih h.2)
    exact (lexes_quote key).append (h.1.cons rfl) (List.cons_ne_nil _ _) (delimited_cons rfl)

/-- What is asked of every part of a value: a number has a text that is read as that
    number, and an object has its keys in order. -/
def WellFormed (nums : Numbers N) {B : Type} (v : Json N B) : Prop :=
  match v with
  | .num n => Exact nums n
  | .obj fields => Enumerated (fields.map Prod.fst)
  | _ => True

theorem lexes_print (v : Plain N) (hv : ∀ u ∈ v.inside, WellFormed nums u) :
    Lexes nums (print nums v) (tokens v) := by
  induction v using Json.induct with
  | null =>
    rw [print]
    exact lexes_word nofun (endsWord_of_all rfl) rfl
  | bool b =>
    rw [print]
    cases b with
    | true => exact lexes_word nofun (endsWord_of_all rfl) rfl
    | false => exact lexes_word nofun (endsWord_of_all rfl) rfl
  | num n => exact lexes_number (hv _ (List.mem_singleton.mpr rfl))
  | str s => exact lexes_quote s
  | host b => exact b.elim
  | arr xs ih =>
    obtain ⟨-, hxs⟩ := forall_inside_arr.mp hv
    have helements := lexes_intercalate (forall₂_elements fun x hx => ih x hx (hxs x hx))
    exact (helements.append lexes_rightBracket (List.cons_ne_nil _ _) (delimited_cons rfl)).cons rfl
  | obj fields ih =>
    obtain ⟨-, hfields⟩ := forall_inside_obj.mp hv
    have hproperties := lexes_intercalate (forall₂_fields
      fun field hfield => ih field hfield (hfields field hfield))
    exact (hproperties.append lexes_rightBrace (List.cons_ne_nil _ _) (delimited_cons rfl)).cons rfl

/-- A text with the tokens of a value is read as that value. -/
theorem parse_of_lexes {text : JsString} (v : Plain N) (hv : ∀ u ∈ v.inside, WellFormed nums u)
    (hlexes : Lexes nums text (tokens v)) : parse nums text = some v := by
  have henumerates (u : Plain N) (hu : u ∈ v.inside) : Enumerates u := by
    have hwellFormed := hv u hu
    cases u <;> trivial
  have hlex := hlexes [] nofun
  have hreads := Parser.reads_of_enumerates v henumerates [] []
  rw [List.append_nil] at hlex hreads
  simp only [parse, hlex, lex, Option.map_some, List.append_nil, Option.bind_eq_bind, Option.bind_some,
    hreads]
  rfl

theorem parse_print (v : Plain N) (hv : ∀ u ∈ v.inside, WellFormed nums u) :
    parse nums (print nums v) = some v := parse_of_lexes v hv (lexes_print v hv)

end anisa.js.Json
