import Anisa.Js.Json.Text
import Anisa.Js.OrderedMap
import Anisa.Quoting

open anisa.js anisa.quoting

namespace anisa.core

/-- The value of a flag, with the text that one that is neither `true` nor a string
    has in a template. -/
inductive FlagValue where
  | isTrue
  | string (value : JsString)
  | other (text : JsString)
deriving DecidableEq

/-- `none` is `undefined`. -/
abbrev CommandFlags := OrderedMap JsString (Option FlagValue)

namespace BaseCommand

def space : UInt16 := unit ' '

/-- What is pushed for a flag. -/
def flagText (flag : JsString × FlagValue) : JsString :=
  match flag.2 with
  | .isTrue => units "--" ++ flag.1
  | .string value =>
    if value.contains space then
      units "--" ++ flag.1 ++ units "=" ++ Json.quotationMark :: value ++ [Json.quotationMark]
    else units "--" ++ flag.1 ++ units "=" ++ value
  | .other text => units "--" ++ flag.1 ++ units "=" ++ text

/-- The flags that the loop does not pass over. -/
def remaining (flags : CommandFlags) (ignoreKeys : List JsString) : List (JsString × FlagValue) :=
  (ownOrder flags.entries).filterMap fun flag =>
    if ignoreKeys.contains flag.1 then none else flag.2.map (flag.1, ·)

def flagsToStrings (flags : CommandFlags) (ignoreKeys : List JsString) : JsString :=
  List.intercalate [space] ((remaining flags ignoreKeys).map flagText)

/-- What `\s` matches. -/
def isWhitespace (c : UInt16) : Bool :=
  (0x09 ≤ c && c ≤ 0x0d) || (0x2000 ≤ c && c ≤ 0x200a) ||
    [0x20, 0xa0, 0x1680, 0x2028, 0x2029, 0x202f, 0x205f, 0x3000, 0xfeff].contains c

structure CleanKey (key : JsString) : Prop where
  whitespace : ∀ c ∈ key, isWhitespace c = false
  quote : Json.quotationMark ∉ key
  equals : unit '=' ∉ key

/-- All that remains are strings, under keys without whitespace, quotes and equals
    signs. -/
def Textual (flags : CommandFlags) (ignoreKeys : List JsString) : Prop :=
  ∀ flag ∈ remaining flags ignoreKeys, CleanKey flag.1 ∧ ∃ value, flag.2 = .string value

/-- A flag from its word: the key ends at the first equals sign, and a value with a
    space stands in quotes. -/
def readFlag (word : JsString) : JsString × FlagValue :=
  let flag := word.drop 2
  let key := flag.takeWhile (· ≠ unit '=')
  let value := flag.drop (key.length + 1)
  (key, .string (if value.contains space then (value.drop 1).dropLast else value))

/-- The words of the command line are those of the flags, which can be read from
    them. -/
structure Recovered (flags : CommandFlags) (ignoreKeys : List JsString) : Prop where
  words : words Json.quotationMark isWhitespace (flagsToStrings flags ignoreKeys) =
    (remaining flags ignoreKeys).map flagText
  read : (quoting.words Json.quotationMark isWhitespace (flagsToStrings flags ignoreKeys)).map readFlag =
    remaining flags ignoreKeys

/-- Whether the value ends in quotes, unless there is whitespace out of them. One
    with a space begins in quotes. -/
def ends (value : JsString) : Option Bool :=
  scan Json.quotationMark isWhitespace (value.contains space) value

/-- No value has whitespace out of quotes, and all but the last have their own quotes
    in pairs. -/
structure KeepTogether (flags : CommandFlags) (ignoreKeys : List JsString) : Prop where
  closed : ∀ flag ∈ (remaining flags ignoreKeys).dropLast, ∀ value, flag.2 = .string value →
    ends value = some (value.contains space)
  whole : ∀ flag ∈ (remaining flags ignoreKeys).getLast?, ∀ value, flag.2 = .string value →
    (ends value).isSome = true

variable {flags flags' : CommandFlags} {ignoreKeys : List JsString} {key value : JsString}

/-- The text of a string after the equals sign. -/
def shown (value : JsString) : JsString :=
  if value.contains space then Json.quotationMark :: value ++ [Json.quotationMark] else value

theorem flagText_string : flagText (key, .string value) = units "--" ++ (key ++ unit '=' :: shown value) := by
  have hequals : units "=" = [unit '='] := rfl
  cases hspace : value.contains space <;>
    simp only [flagText, shown, hspace, hequals, if_true, Bool.false_eq_true, if_false, List.append_assoc,
      List.cons_append, List.nil_append]

theorem scan_shown : scan Json.quotationMark isWhitespace false (shown value) =
    (ends value).map (· != value.contains space) := by
  cases hspace : value.contains space with
  | false =>
    rw [shown, ends, hspace, if_neg Bool.false_ne_true]
    simp only [Bool.bne_false, Option.map_id']
  | true =>
    have hopen : scan Json.quotationMark isWhitespace false [Json.quotationMark] = some true := by decide
    have hclose (inside : Bool) : scan Json.quotationMark isWhitespace inside [Json.quotationMark] =
        some (inside != true) := by
      cases inside <;> decide
    rw [shown, ends, hspace, if_pos rfl, List.cons_append, ← List.singleton_append, scan_append, hopen,
      Option.bind_some, scan_append]
    simp only [hclose]
    cases scan Json.quotationMark isWhitespace true value <;> rfl

/-- Under such a key only the value counts. -/
theorem scan_flagText (hkey : CleanKey key) :
    scan Json.quotationMark isWhitespace false (flagText (key, .string value)) =
      (ends value).map (· != value.contains space) := by
  have hdashes : scan Json.quotationMark isWhitespace false (units "--") = some false := by decide
  have hname : scan Json.quotationMark isWhitespace false key = some false :=
    scan_plain fun c hc => ⟨hkey.whitespace c hc, fun h => hkey.quote (h ▸ hc)⟩
  have hequals : scan Json.quotationMark isWhitespace false [unit '='] = some false := by decide
  rw [flagText_string, scan_append, hdashes, Option.bind_some, scan_append, hname, Option.bind_some,
    ← List.singleton_append, scan_append, hequals, Option.bind_some, scan_shown]

theorem readFlag_flagText (hkey : CleanKey key) :
    readFlag (flagText (key, .string value)) = (key, .string value) := by
  have hflag : (flagText (key, .string value)).drop 2 = key ++ unit '=' :: shown value := by
    rw [flagText_string]
    rfl
  have htake : (key ++ unit '=' :: shown value).takeWhile (· ≠ unit '=') = key := by
    have hkept : ∀ c ∈ key, decide (c ≠ unit '=') = true := by
      intro c hc
      exact decide_eq_true fun h => hkey.equals (h ▸ hc)
    rw [List.takeWhile_append_of_pos hkept]
    simp
  have hdrop : (key ++ unit '=' :: shown value).drop (key.length + 1) = shown value := by
    rw [List.drop_append]
    simp
  have hshown : (shown value).contains space = value.contains space := by
    have hquote : space ≠ Json.quotationMark := by decide
    rw [shown]
    split
    · simp [hquote]
    · rfl
  have hvalue : (if (shown value).contains space then ((shown value).drop 1).dropLast else shown value) =
      value := by
    rw [hshown]
    cases hspace : value.contains space with
    | false => simp only [shown, hspace, Bool.false_eq_true, if_false]
    | true => simp only [shown, hspace, if_true, List.cons_append, List.drop_succ_cons, List.drop_zero,
        List.dropLast_concat]
  simp only [readFlag, hflag, htake, hdrop, hvalue]

theorem flagText_ne_nil (flag : JsString × FlagValue) : flagText flag ≠ [] := by
  have hdashes : units "--" ≠ [] := by decide
  obtain ⟨key, value⟩ := flag
  cases value with
  | isTrue => simp [flagText, hdashes]
  | string value => simp [flagText_string, hdashes]
  | other text => simp [flagText, hdashes]

/-- The quotes of a flag's text come in pairs exactly if the value has its own in
    pairs. -/
theorem closed_flagText_iff (hkey : CleanKey key) :
    scan Json.quotationMark isWhitespace false (flagText (key, .string value)) = some false ↔
      ends value = some (value.contains space) := by
  rw [scan_flagText hkey, Option.map_eq_some_iff]
  refine ⟨?_, fun hends => ⟨_, hends, bne_self_eq_false _⟩⟩
  rintro ⟨inside, hends, hsame⟩
  rw [hends, bne_eq_false_iff_eq.mp hsame]

/-- The flags keep together exactly if their texts do. -/
theorem keepTogether_iff (h : Textual flags ignoreKeys) : KeepTogether flags ignoreKeys ↔
    Together Json.quotationMark isWhitespace ((remaining flags ignoreKeys).map flagText) := by
  have hclosed : ∀ flag ∈ (remaining flags ignoreKeys).dropLast,
      scan Json.quotationMark isWhitespace false (flagText flag) = some false ↔
        ∀ value, flag.2 = .string value → ends value = some (value.contains space) := by
    rintro ⟨key, flagValue⟩ hmem
    obtain ⟨hkey, value, hvalue⟩ := h _ ((List.dropLast_sublist _).mem hmem)
    obtain rfl : flagValue = .string value := hvalue
    simp [closed_flagText_iff hkey]
  have hwhole : ∀ flag ∈ (remaining flags ignoreKeys).getLast?,
      (scan Json.quotationMark isWhitespace false (flagText flag)).isSome = true ↔
        ∀ value, flag.2 = .string value → (ends value).isSome = true := by
    rintro ⟨key, flagValue⟩ hmem
    obtain ⟨hkey, value, hvalue⟩ := h _ (List.mem_of_getLast? hmem)
    obtain rfl : flagValue = .string value := hvalue
    simp [scan_flagText hkey]
  refine ⟨fun hkeep => ⟨?_, ?_⟩, fun htogether => ⟨fun flag hmem => ?_, fun flag hmem => ?_⟩⟩
  · rw [← List.map_dropLast, List.forall_mem_map]
    exact fun flag hmem => (hclosed flag hmem).mpr (hkeep.closed flag hmem)
  · intro piece hpiece
    rw [List.getLast?_map] at hpiece
    obtain ⟨flag, hmem, rfl⟩ := Option.map_eq_some_iff.mp hpiece
    exact (hwhole flag hmem).mpr (hkeep.whole flag hmem)
  · refine (hclosed flag hmem).mp (htogether.closed _ ?_)
    rw [← List.map_dropLast]
    exact List.mem_map_of_mem hmem
  · refine (hwhole flag hmem).mp (htogether.whole _ ?_)
    rw [List.getLast?_map]
    exact Option.map_eq_some_iff.mpr ⟨flag, hmem, rfl⟩

/-- The flags are recovered exactly if they keep together. -/
theorem recovered_iff (h : Textual flags ignoreKeys) :
    Recovered flags ignoreKeys ↔ KeepTogether flags ignoreKeys := by
  have hspace : isWhitespace space = true := by decide
  have hne : ∀ piece ∈ (remaining flags ignoreKeys).map flagText, piece ≠ [] := by
    intro piece hpiece
    obtain ⟨flag, -, rfl⟩ := List.mem_map.mp hpiece
    exact flagText_ne_nil flag
  rw [keepTogether_iff h, ← words_intercalate_iff hspace hne]
  refine ⟨fun hrecovered => hrecovered.words, fun hwords => ⟨hwords, ?_⟩⟩
  rw [flagsToStrings, hwords, List.map_map]
  refine (List.map_congr_left ?_).trans (List.map_id _)
  rintro ⟨key, flagValue⟩ hflag
  obtain ⟨hkey, value, hvalue⟩ := h _ hflag
  obtain rfl : flagValue = .string value := hvalue
  exact readFlag_flagText hkey

/-- Two command lines are told apart, and their flags recovered, exactly if the
    values of both keep together. -/
theorem flagsToStrings_unambiguous_iff (h : Textual flags ignoreKeys) (h' : Textual flags' ignoreKeys) :
    ((flagsToStrings flags ignoreKeys = flagsToStrings flags' ignoreKeys →
        remaining flags ignoreKeys = remaining flags' ignoreKeys) ∧
      Recovered flags ignoreKeys ∧ Recovered flags' ignoreKeys) ↔
    KeepTogether flags ignoreKeys ∧ KeepTogether flags' ignoreKeys := by
  rw [recovered_iff h, recovered_iff h']
  refine ⟨And.right, fun hkeep => ⟨fun hsame => ?_, hkeep⟩⟩
  have hread := ((recovered_iff h).mpr hkeep.1).read
  have hread' := ((recovered_iff h').mpr hkeep.2).read
  rw [← hread, ← hread', hsame]

/-- Whether a key is clean is told unit by unit. -/
theorem cleanKey_of_all
    (h : key.all (fun c => !isWhitespace c && c != Json.quotationMark && c != unit '=') = true) :
    CleanKey key := by
  have hunit : ∀ c ∈ key, (isWhitespace c = false ∧ c ≠ Json.quotationMark) ∧ c ≠ unit '=' := by
    intro c hc
    simpa using List.all_eq_true.mp h c hc
  exact ⟨fun c hc => (hunit c hc).1.1, fun hquote => (hunit _ hquote).1.2 rfl,
    fun hequals => (hunit _ hequals).2 rfl⟩

/-- Two flags, one with a space and one with a quote that it closes. -/
def sampleFlags : CommandFlags :=
  ⟨[(units "token", some (.string (units "my token"))), (units "bip38", some (.string (units "6P\"R\"W")))],
    by decide⟩

/-- A value with spaces, and one that is left out. -/
def ignoringFlags : CommandFlags :=
  ⟨[(units "password", some (.string (units " a b "))), (units "suffix", some (.string (units "forger")))],
    by decide⟩

theorem flagsToStrings_unambiguous_iff_sample :
    ((flagsToStrings sampleFlags [units "suffix"] = flagsToStrings ignoringFlags [units "suffix"] →
        remaining sampleFlags [units "suffix"] = remaining ignoringFlags [units "suffix"]) ∧
      Recovered sampleFlags [units "suffix"] ∧ Recovered ignoringFlags [units "suffix"]) ↔
    KeepTogether sampleFlags [units "suffix"] ∧ KeepTogether ignoringFlags [units "suffix"] := by
  have htoken : CleanKey (units "token") := cleanKey_of_all (by decide)
  have hbip38 : CleanKey (units "bip38") := cleanKey_of_all (by decide)
  have hpassword : CleanKey (units "password") := cleanKey_of_all (by decide)
  refine flagsToStrings_unambiguous_iff ?_ ?_
  · intro flag hflag
    obtain rfl | hflag := List.mem_cons.mp hflag
    · exact ⟨htoken, _, rfl⟩
    · obtain rfl := List.mem_singleton.mp hflag
      exact ⟨hbip38, _, rfl⟩
  · intro flag hflag
    obtain rfl := List.mem_singleton.mp hflag
    exact ⟨hpassword, _, rfl⟩

/-- One value with a quote and a flag in it. -/
def quotedFlags : CommandFlags :=
  ⟨[(units "token", some (.string (units "a\" --network=\"b")))], by decide⟩

/-- What it is taken for. -/
def introducedFlags : CommandFlags :=
  ⟨[(units "token", some (.string (units "\"a\""))), (units "network", some (.string (units "\"b\"")))],
    by decide⟩

/-- A value introduces a flag of its own. -/
theorem flag_introduced_by_value :
    Textual quotedFlags [] ∧ Textual introducedFlags [] ∧
      flagsToStrings quotedFlags [] = flagsToStrings introducedFlags [] ∧
      remaining quotedFlags [] ≠ remaining introducedFlags [] := by
  have htoken : CleanKey (units "token") := cleanKey_of_all (by decide)
  have hnetwork : CleanKey (units "network") := cleanKey_of_all (by decide)
  refine ⟨?_, ?_, by decide, by decide⟩
  · intro flag hflag
    obtain rfl := List.mem_singleton.mp hflag
    exact ⟨htoken, _, rfl⟩
  · intro flag hflag
    obtain rfl | hflag := List.mem_cons.mp hflag
    · exact ⟨htoken, _, rfl⟩
    · obtain rfl := List.mem_singleton.mp hflag
      exact ⟨hnetwork, _, rfl⟩

end BaseCommand

end anisa.core
