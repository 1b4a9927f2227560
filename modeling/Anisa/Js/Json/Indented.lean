import Anisa.Js.Json.ReadBack

namespace anisa.js.Json

variable {N : Type} {nums : Numbers N} {text s indent gap : JsString} {ts : List (Token N)} {c : UInt16}

/-! The text that `JSON.stringify` makes with a gap: every part of an array or object is on
a line of its own. -/

/-- The parts, each on a line that is indented further, between brackets. -/
def layout (opening closing : UInt16) (indent inner : JsString) (parts : List JsString) : JsString :=
  if parts = [] then [opening, closing]
  else opening :: List.intercalate [unit ','] (parts.map fun part => unit '\n' :: (inner ++ part)) ++
    unit '\n' :: (indent ++ [closing])

mutual

/-- A gap that is not empty; `indent` is that of the line the value begins on. -/
def printIndented (nums : Numbers N) (gap : JsString) (indent : JsString) : Plain N → JsString
  | .null => units "null"
  | .bool b => units (if b then "true" else "false")
  | .num n => nums.print n
  | .str s => quote s
  | .arr xs => layout (unit '[') (unit ']') indent (indent ++ gap)
      (printIndentedElements nums gap (indent ++ gap) xs)
  | .obj fields => layout (unit '\x7b') (unit '\x7d') indent (indent ++ gap)
      (printIndentedFields nums gap (indent ++ gap) fields)

def printIndentedElements (nums : Numbers N) (gap : JsString) (indent : JsString) :
    List (Plain N) → List JsString
  | [] => []
  | x :: xs => printIndented nums gap indent x :: printIndentedElements nums gap indent xs

def printIndentedFields (nums : Numbers N) (gap : JsString) (indent : JsString) :
    List (JsString × Plain N) → List JsString
  | [] => []
  | (k, v) :: fields => (quote k ++ unit ':' :: unit ' ' :: printIndented nums gap indent v) ::
      printIndentedFields nums gap indent fields

end

variable {xs : List (Plain N)} {fields : List (JsString × Plain N)}

theorem Lexes.space (h : Lexes nums text ts) (hc : isWhitespace c = true) : Lexes nums (c :: text) ts := by
  intro rest hrest
  have hbetween : stepBetween (N := N) c = ([], .between) := by simp [stepBetween, hc]
  rw [List.cons_append, lex_between_cons, hbetween, h rest hrest, Option.map_map]
  rfl

end anisa.js.Json
