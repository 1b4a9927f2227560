import Anisa.Js.Json.Value

namespace anisa.js

/-- The numbers of a program. `print` is what `JSON.stringify` makes of one, `null`
    if it is not finite, and `parse` what `JSON.parse` makes of a number's text. -/
structure Numbers (N : Type) where
  print : N → JsString
  parse : JsString → N
  ofNat : Nat → N

/-- How far a number has been read. -/
inductive NumberState where
  | start
  | minus
  | zero
  | integer
  | point
  | fraction
  | exponent
  | sign
  | digits

namespace NumberState

def isDigit (c : UInt16) : Bool := unit '0' ≤ c && c ≤ unit '9'

def isExponent (c : UInt16) : Bool := c = unit 'e' || c = unit 'E'

def next (c : UInt16) : NumberState → Option NumberState
  | .start =>
    if c = unit '-' then some .minus else if c = unit '0' then some .zero
    else if isDigit c then some .integer else none
  | .minus => if c = unit '0' then some .zero else if isDigit c then some .integer else none
  | .zero => if c = unit '.' then some .point else if isExponent c then some .exponent else none
  | .integer =>
    if isDigit c then some .integer else if c = unit '.' then some .point
    else if isExponent c then some .exponent else none
  | .point => if isDigit c then some .fraction else none
  | .fraction => if isDigit c then some .fraction else if isExponent c then some .exponent else none
  | .exponent =>
    if isDigit c then some .digits else if c = unit '+' || c = unit '-' then some .sign else none
  | .sign | .digits => if isDigit c then some .digits else none

/-- The number may end there. -/
def accepts : NumberState → Bool
  | .zero | .integer | .fraction | .digits => true
  | _ => false

def run : NumberState → JsString → Bool
  | s, [] => s.accepts
  | s, c :: text =>
    match s.next c with
    | some t => t.run text
    | none => false

end NumberState

/-- The text of a number in JSON. -/
def isNumber (text : JsString) : Bool := NumberState.start.run text

namespace Json

variable {N : Type} (nums : Numbers N)

def quotationMark : UInt16 := 0x22

def reverseSolidus : UInt16 := 0x5c

/-- A value that a JSON text denotes. -/
abbrev Plain (N : Type) := Json N Empty

inductive Token (N : Type) where
  | leftBrace
  | rightBrace
  | leftBracket
  | rightBracket
  | comma
  | colon
  | scalar (v : Plain N)

/-- What is being read: nothing, a number or a literal, a string, an escape in one,
    or the digits of a `\u` escape. -/
inductive Mode where
  | between
  | word (read : JsString)
  | string (read : JsString)
  | escape (read : JsString)
  | unicode (read : JsString) (digits : List Nat)

def isWhitespace (c : UInt16) : Bool := c = unit ' ' || c = unit '\n' || c = unit '\r' || c = unit '\t'

def punctuator? (c : UInt16) : Option (Token N) :=
  if c = unit '\x7b' then some .leftBrace
  else if c = unit '\x7d' then some .rightBrace
  else if c = unit '[' then some .leftBracket
  else if c = unit ']' then some .rightBracket
  else if c = unit ',' then some .comma
  else if c = unit ':' then some .colon
  else none

/-- A number or a literal does not go on with that. -/
def endsWord (c : UInt16) : Bool :=
  isWhitespace c || (punctuator? (N := Empty) c).isSome || c = quotationMark

def wordToken (word : JsString) : Option (Token N) :=
  if isNumber word then some (.scalar (.num (nums.parse word)))
  else if word = units "null" then some (.scalar .null)
  else if word = units "true" then some (.scalar (.bool true))
  else if word = units "false" then some (.scalar (.bool false))
  else none

/-- The character that a letter after a backslash stands for. -/
def escaped? (c : UInt16) : Option UInt16 :=
  if c = quotationMark || c = reverseSolidus || c = unit '/' then some c
  else if c = unit 'b' then some 0x08
  else if c = unit 'f' then some 0x0c
  else if c = unit 'n' then some 0x0a
  else if c = unit 'r' then some 0x0d
  else if c = unit 't' then some 0x09
  else none

def hexValue? (c : UInt16) : Option Nat :=
  if unit '0' ≤ c && c ≤ unit '9' then some (c.toNat - (unit '0').toNat)
  else if unit 'a' ≤ c && c ≤ unit 'f' then some (c.toNat - (unit 'a').toNat + 10)
  else if unit 'A' ≤ c && c ≤ unit 'F' then some (c.toNat - (unit 'A').toNat + 10)
  else none

def stepBetween (c : UInt16) : List (Token N) × Mode :=
  if isWhitespace c then ([], .between)
  else
    match punctuator? c with
    | some token => ([token], .between)
    | none => if c = quotationMark then ([], .string []) else ([], .word [c])

def lexStep : Mode → UInt16 → Option (List (Token N) × Mode)
  | .between, c => some (stepBetween c)
  | .word read, c =>
    if endsWord c then do
      let token ← wordToken nums read
      let (tokens, mode) := stepBetween c
      some (token :: tokens, mode)
    else some ([], .word (read ++ [c]))
  | .string read, c =>
    if c = quotationMark then some ([.scalar (.str read)], .between)
    else if c = reverseSolidus then some ([], .escape read)
    else if c < 0x20 then none
    else some ([], .string (read ++ [c]))
  | .escape read, c =>
    if c = unit 'u' then some ([], .unicode read [])
    else (escaped? c).map fun d => ([], .string (read ++ [d]))
  | .unicode read digits, c =>
    (hexValue? c).map fun d =>
      match digits with
      | [x, y, z] => ([], .string (read ++ [UInt16.ofNat (((x * 16 + y) * 16 + z) * 16 + d)]))
      | _ => ([], .unicode read (digits ++ [d]))

/-- The tokens of a text, from the middle of one on. -/
def lex : Mode → JsString → Option (List (Token N))
  | .between, [] => some []
  | .word read, [] => (wordToken nums read).map ([·])
  | _, [] => none
  | mode, c :: text => (lexStep nums mode c).bind fun next => (lex next.2 text).map (next.1 ++ ·)

/-- The letter after the backslash. -/
def shortEscape? (c : UInt16) : Option UInt16 :=
  if c = quotationMark || c = reverseSolidus then some c
  else if c = 0x08 then some (unit 'b')
  else if c = 0x0c then some (unit 'f')
  else if c = 0x0a then some (unit 'n')
  else if c = 0x0d then some (unit 'r')
  else if c = 0x09 then some (unit 't')
  else none

def hexDigit (n : Nat) : UInt16 := (units "0123456789abcdef").getD n (unit '0')

def unicodeEscape (c : UInt16) : JsString :=
  [reverseSolidus, unit 'u', hexDigit (c.toNat / 4096), hexDigit (c.toNat / 256 % 16),
    hexDigit (c.toNat / 16 % 16), hexDigit (c.toNat % 16)]

def isLeading (c : UInt16) : Bool := 0xd800 ≤ c && c ≤ 0xdbff

def isTrailing (c : UInt16) : Bool := 0xdc00 ≤ c && c ≤ 0xdfff

def quoteUnit (lone : Bool) (c : UInt16) : JsString :=
  match shortEscape? c with
  | some d => [reverseSolidus, d]
  | none => if c < 0x20 || lone then unicodeEscape c else [c]

/-- The text of a string between the quotes. `paired` is whether the first unit is
    the second of a surrogate pair. A surrogate in no pair is escaped. -/
def quoteUnits (paired : Bool) : JsString → JsString
  | [] => []
  | c :: s =>
    let leads := isLeading c && s.head?.any isTrailing
    quoteUnit ((isLeading c || isTrailing c) && !leads && !paired) c ++ quoteUnits leads s

/-- `QuoteJSONString`. -/
def quote (s : JsString) : JsString := quotationMark :: quoteUnits false s ++ [quotationMark]

mutual

/-- `JSON.stringify`, for what has been through the replacer. -/
def print : Plain N → JsString
  | .null => units "null"
  | .bool b => units (if b then "true" else "false")
  | .num n => nums.print n
  | .str s => quote s
  | .arr xs => unit '[' :: List.intercalate [unit ','] (printElements xs) ++ [unit ']']
  | .obj fields => unit '\x7b' :: List.intercalate [unit ','] (printFields fields) ++ [unit '\x7d']

def printElements : List (Plain N) → List JsString
  | [] => []
  | x :: xs => print x :: printElements xs

def printFields : List (JsString × Plain N) → List JsString
  | [] => []
  | (k, v) :: fields => (quote k ++ unit ':' :: print v) :: printFields fields

end

end Json

end anisa.js
