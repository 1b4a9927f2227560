import Mathlib.Data.List.Basic

namespace anisa.quoting

variable {α : Type} [DecidableEq α] (quote : α) (white : α → Bool)

/-- Splits at whitespace outside quotes. The text begins inside of them if `quoted`
    says so. -/
def split (quoted : Bool) : List α → List (List α)
  | [] => [[]]
  | c :: text =>
    if !quoted && white c then [] :: split false text
    else (split (quoted != (c == quote)) text).modifyHead (c :: ·)

/-- The words of a text, with their quotes. -/
def words (text : List α) : List (List α) := (split quote white false text).filter (· ≠ [])

/-- Whether the text ends inside quotes, unless there is whitespace outside of them. -/
def scan (quoted : Bool) : List α → Option Bool
  | [] => some quoted
  | c :: text => if !quoted && white c then none else scan (quoted != (c == quote)) text

/-- Each is one word, and those but the last have their quotes in pairs. -/
structure Together (pieces : List (List α)) : Prop where
  closed : ∀ piece ∈ pieces.dropLast, scan quote white false piece = some false
  whole : ∀ piece ∈ pieces.getLast?, (scan quote white false piece).isSome = true

variable {quote white} {quoted ends : Bool} {c : α} {text rest piece : List α} {pieces : List (List α)}

theorem scan_append : scan quote white quoted (text ++ rest) =
    (scan quote white quoted text).bind fun ends => scan quote white ends rest := by
  induction text generalizing quoted with
  | nil => rfl
  | cons c text ih =>
    rw [List.cons_append, scan, scan]
    split
    · rfl
    · exact ih

/-- A text without quotes and whitespace changes nothing. -/
theorem scan_plain (h : ∀ c ∈ text, white c = false ∧ c ≠ quote) :
    scan quote white quoted text = some quoted := by
  induction text generalizing quoted with
  | nil => rfl
  | cons c text ih =>
    rw [List.forall_mem_cons] at h
    have hsame : (quoted != (c == quote)) = quoted := by
      rw [beq_false_of_ne h.1.2, Bool.bne_false]
    rw [scan, h.1.1, Bool.and_false, if_neg Bool.false_ne_true, hsame]
    exact ih h.2

theorem split_append (h : scan quote white quoted text = some ends) :
    split quote white quoted (text ++ rest) = (split quote white ends rest).modifyHead (text ++ ·) := by
  induction text generalizing quoted with
  | nil =>
    obtain rfl : quoted = ends := Option.some.inj h
    rw [List.nil_append]
    cases split quote white quoted rest <;> rfl
  | cons c text ih =>
    rw [List.cons_append, split]
    rw [scan] at h
    split at h
    · cases h
    · next hinside =>
      rw [if_neg hinside, ih h]
      cases split quote white ends rest <;> rfl

theorem words_append (hpiece : scan quote white false piece = some false) (hne : piece ≠ [])
    (hwhite : white c = true) : words quote white (piece ++ c :: rest) = piece :: words quote white rest := by
  have hbreak : split quote white false (c :: rest) = [] :: split quote white false rest := by
    rw [split]
    simp [hwhite]
  rw [words, split_append hpiece, hbreak, List.modifyHead_cons, List.append_nil,
    List.filter_cons_of_pos (by simpa using hne), words]

theorem words_singleton (hpiece : (scan quote white false piece).isSome = true) (hne : piece ≠ []) :
    words quote white piece = [piece] := by
  obtain ⟨ends, hends⟩ := Option.isSome_iff_exists.mp hpiece
  have hsplit : split quote white false (piece ++ []) =
    (split quote white ends []).modifyHead (piece ++ ·) := split_append hends
  rw [List.append_nil] at hsplit
  rw [words, hsplit, split, List.modifyHead_cons, List.append_nil,
    List.filter_cons_of_pos (by simpa using hne), List.filter_nil]

theorem together_singleton :
    Together quote white [piece] ↔ (scan quote white false piece).isSome = true := by
  refine ⟨fun h => h.whole piece rfl, fun h => ⟨nofun, ?_⟩⟩
  intro last hlast
  obtain rfl := Option.some.inj hlast
  exact h

theorem together_cons (hne : pieces ≠ []) : Together quote white (piece :: pieces) ↔
    scan quote white false piece = some false ∧ Together quote white pieces := by
  have hdrop : (piece :: pieces).dropLast = piece :: pieces.dropLast := List.dropLast_cons_of_ne_nil hne
  have hlast : (piece :: pieces).getLast? = pieces.getLast? := by
    rw [List.getLast?_cons, List.getLast?_eq_some_getLast hne, Option.getD_some]
  refine ⟨fun h => ?_, fun h => ⟨?_, ?_⟩⟩
  · have hclosed := h.closed
    have hwhole := h.whole
    rw [hdrop, List.forall_mem_cons] at hclosed
    rw [hlast] at hwhole
    exact ⟨hclosed.1, hclosed.2, hwhole⟩
  · rw [hdrop, List.forall_mem_cons]
    exact ⟨h.1, h.2.closed⟩
  · rw [hlast]
    exact h.2.whole

/-- What is joined by whitespace is found again. -/
theorem words_intercalate (hwhite : white c = true) (hne : ∀ piece ∈ pieces, piece ≠ [])
    (h : Together quote white pieces) : words quote white (List.intercalate [c] pieces) = pieces := by
  induction pieces with
  | nil => rfl
  | cons piece pieces ih =>
    rw [List.forall_mem_cons] at hne
    cases pieces with
    | nil =>
      rw [List.intercalate_singleton]
      exact words_singleton (together_singleton.mp h) hne.1
    | cons next pieces =>
      obtain ⟨hclosed, hrest⟩ := (together_cons (List.cons_ne_nil _ _)).mp h
      rw [List.intercalate_cons_cons, List.append_assoc, List.singleton_append,
        words_append hclosed hne.1 hwhite, ih hne.2 hrest]

/-- The first piece is scanned from where the text begins, the others from outside
    of quotes. -/
theorem split_cases (quoted : Bool) (text : List α) :
    (∃ head, split quote white quoted text = [head] ∧ (scan quote white quoted head).isSome = true) ∨
      ∃ head tail, split quote white quoted text = head :: tail ∧ tail ≠ [] ∧
        scan quote white quoted head = some false ∧ Together quote white tail := by
  induction text generalizing quoted with
  | nil => exact .inl ⟨[], rfl, rfl⟩
  | cons c text ih =>
    by_cases hbreak : (!quoted && white c) = true
    · obtain rfl : quoted = false := by simpa using (Bool.and_eq_true_iff.mp hbreak).1
      have hsplit : split quote white false (c :: text) = [] :: split quote white false text := by
        rw [split, if_pos hbreak]
      refine .inr ⟨[], _, hsplit, ?_, rfl, ?_⟩
      · obtain ⟨head, heq, -⟩ | ⟨head, tail, heq, -⟩ := ih false <;> rw [heq] <;> exact List.cons_ne_nil _ _
      · obtain ⟨head, heq, hhead⟩ | ⟨head, tail, heq, hne, hhead, htail⟩ := ih false
        · rw [heq]
          exact together_singleton.mpr hhead
        · rw [heq]
          exact (together_cons hne).mpr ⟨hhead, htail⟩
    · have hsplit : split quote white quoted (c :: text) =
          (split quote white (quoted != (c == quote)) text).modifyHead (c :: ·) := by
        rw [split, if_neg hbreak]
      have hscan (head : List α) : scan quote white quoted (c :: head) =
          scan quote white (quoted != (c == quote)) head := by
        rw [scan, if_neg hbreak]
      rw [hsplit]
      obtain ⟨head, heq, hhead⟩ | ⟨head, tail, heq, hne, hhead, htail⟩ := ih (quoted != (c == quote))
      · exact .inl ⟨c :: head, by rw [heq, List.modifyHead_cons], by rw [hscan, hhead]⟩
      · exact .inr ⟨c :: head, tail, by rw [heq, List.modifyHead_cons], hne, by rw [hscan, hhead], htail⟩

theorem together_split (text : List α) : Together quote white (split quote white false text) := by
  obtain ⟨head, heq, hhead⟩ | ⟨head, tail, heq, hne, hhead, htail⟩ := split_cases false text
  · rw [heq]
    exact together_singleton.mpr hhead
  · rw [heq]
    exact (together_cons hne).mpr ⟨hhead, htail⟩

/-- What is left when some are taken out is together too. -/
theorem Together.filter (h : Together quote white pieces) (p : List α → Bool) :
    Together quote white (pieces.filter p) := by
  induction pieces with
  | nil => exact h
  | cons piece pieces ih =>
    by_cases hnil : pieces = []
    · subst hnil
      by_cases hp : p piece = true
      · rwa [List.filter_cons_of_pos hp]
      · rw [List.filter_cons_of_neg hp]
        exact ⟨nofun, nofun⟩
    · obtain ⟨hclosed, hrest⟩ := (together_cons hnil).mp h
      by_cases hp : p piece = true
      · rw [List.filter_cons_of_pos hp]
        by_cases hnone : pieces.filter p = []
        · rw [hnone, together_singleton, hclosed]
          rfl
        · exact (together_cons hnone).mpr ⟨hclosed, ih hrest⟩
      · rw [List.filter_cons_of_neg hp]
        exact ih hrest

/-- The words of a text are together, whatever the text. -/
theorem together_words (text : List α) : Together quote white (words quote white text) :=
  (together_split text).filter _

/-- Pieces joined by whitespace are its words exactly if they are together. -/
theorem words_intercalate_iff (hwhite : white c = true) (hne : ∀ piece ∈ pieces, piece ≠ []) :
    words quote white (List.intercalate [c] pieces) = pieces ↔ Together quote white pieces := by
  refine ⟨fun h => ?_, words_intercalate hwhite hne⟩
  rw [← h]
  exact together_words _

end anisa.quoting
