import Anisa.Container.Plugin
import Anisa.Js.Json.Digits
import Anisa.Js.Json.RoundTrip

open anisa.js
open anisa.container (nearestNumber)

namespace anisa.walletApi

/-- The fields of `request.query` that are read, `none` where one is absent. -/
structure Query where
  limit : Option Nat
  page : Option Nat
  offset : Option Nat

/-- What `paginationDefine` accepts: whole numbers from 1 on that are safe, and no
    field it does not know. -/
structure Query.Accepted (query : Query) : Prop where
  limit : ∀ n ∈ query.limit, 1 ≤ n ∧ n < 9007199254740992
  page : ∀ n ∈ query.page, 1 ≤ n ∧ n < 9007199254740992
  offset : query.offset = none

structure Pagination where
  offset : Nat
  limit : Nat

/-- `(page - 1) * limit`, where `none` is NaN. -/
def skipped (query : Query) : Option Nat := do
  let page ← query.page
  let limit ← query.limit
  return nearestNumber ((page - 1) * limit)

/-- `n || other`. Neither 0 nor NaN nor `undefined` is truthy. -/
def orElse : Option Nat → Nat → Nat
  | some n, other => if n = 0 then other else n
  | none, other => other

def paginateServer (query : Query) : Pagination where
  offset := orElse query.offset (orElse (skipped query) 0)
  limit := orElse query.limit 100

variable {D : Type}

/-- `generateCacheKey`: the digest of the object's JSON text. -/
def generateCacheKey (sha256 : JsString → D) (nums : Numbers Nat) (value : Pagination) : D :=
  sha256 (Json.print nums (.obj [(units "offset", .num value.offset), (units "limit", .num value.limit)]))

inductive CachedMethod where
  | information
  | search

/-- What comes before the window in the statement of a method. -/
def CachedMethod.select : CachedMethod → JsString
  | .information => units "select * from cs_frame_outside as a limit "
  | .search => units "select * from ow_member limit "

/-- The SQL text of a method: `limit ${(page - 1) * limit},${limit};`. -/
def sqlText (nums : Numbers Nat) (method : CachedMethod) (query : Query) : JsString :=
  method.select ++ (skipped query).elim (units "NaN") nums.print ++ units "," ++
    query.limit.elim (units "undefined") nums.print ++ units ";"

variable {sha256 : JsString → D} {nums : Numbers Nat} {query query' : Query} {n : Nat}

theorem nearestNumber_of_lt (h : n < 9007199254740992) : nearestNumber n = n := if_pos h

theorem nearestNumber_pos (h : 0 < n) : 0 < nearestNumber n := by
  by_cases hsafe : n < 9007199254740992
  · rwa [nearestNumber_of_lt hsafe]
  · have hpow : 2 ^ (n.log2 - 52) ≤ n :=
      (Nat.pow_le_pow_right (by decide) (Nat.sub_le _ _)).trans (Nat.log2_self_le (by omega))
    have hhigh : 0 < n >>> (n.log2 - 52) := by
      rw [Nat.shiftRight_eq_div_pow]
      exact Nat.div_pos hpow (Nat.two_pow_pos _)
    rw [nearestNumber, if_neg hsafe, Nat.shiftLeft_eq]
    refine Nat.mul_pos ?_ (Nat.two_pow_pos _)
    split
    · exact Nat.succ_pos _
    · exact hhigh

theorem orElse_some (n : Nat) : orElse (some n) 0 = n := by
  rw [orElse]
  split
  · next hn => exact hn.symm
  · rfl

theorem eq_of_orElse_eq {a b : Option Nat} (hsome : a.isSome = b.isSome)
    (h : orElse a 0 = orElse b 0) : a = b := by
  cases a with
  | none => exact (Option.isNone_iff_eq_none.mp (by simpa using hsome.symm)).symm
  | some n =>
    obtain ⟨m, rfl⟩ := Option.isSome_iff_exists.mp (by simpa using hsome.symm)
    rw [orElse_some, orElse_some] at h
    rw [h]

theorem limit_eq (h : query.Accepted) : (paginateServer query).limit = query.limit.getD 100 := by
  cases hlimit : query.limit with
  | none => simp [paginateServer, orElse, hlimit]
  | some n =>
    have hpos := (h.limit n hlimit).1
    simp [paginateServer, orElse, hlimit, Nat.ne_of_gt hpos]

theorem offset_eq (h : query.Accepted) : (paginateServer query).offset = orElse (skipped query) 0 := by
  rw [paginateServer, h.offset]
  rfl

/-- The key is that of the first rows. -/
def FirstWindow (query : Query) : Prop := query.page = none ∨ query.limit = none ∨ query.page = some 1

theorem offset_eq_zero_iff (h : query.Accepted) : (paginateServer query).offset = 0 ↔ FirstWindow query := by
  rw [offset_eq h]
  cases hpage : query.page with
  | none => simp [skipped, orElse, FirstWindow, hpage]
  | some page =>
    cases hlimit : query.limit with
    | none => simp [skipped, orElse, FirstWindow, hpage, hlimit]
    | some limit =>
      have hskipped : skipped query = some (nearestNumber ((page - 1) * limit)) := by
        simp [skipped, hpage, hlimit]
      have hfirst : FirstWindow query ↔ page = 1 := by simp [FirstWindow, hpage, hlimit]
      rw [hskipped, orElse_some, hfirst]
      have hpagePos := (h.page page hpage).1
      have hlimitPos := (h.limit limit hlimit).1
      refine ⟨fun hzero => ?_, fun hone => by simp [hone, nearestNumber]⟩
      by_contra hne
      have hpos : 0 < (page - 1) * limit := Nat.mul_pos (by omega) hlimitPos
      exact absurd hzero (Nat.ne_of_gt (nearestNumber_pos hpos))

/-- Both queries have a limit or none has, and if they have one then both have a
    page or none has. -/
def SameFields (query query' : Query) : Prop :=
  query.limit.isSome = query'.limit.isSome ∧
    (query.limit.isSome = true → query.page.isSome = query'.page.isSome)

/-- The queries have different fields but the key of the first rows, as many. -/
def Clash (query query' : Query) : Prop :=
  FirstWindow query ∧ FirstWindow query' ∧ query.limit.getD 100 = query'.limit.getD 100 ∧
    ¬ SameFields query query'

/-- Every number that is computed is read back from its text. -/
def Printable (nums : Numbers Nat) : Prop := ∀ n, Json.Exact nums (nearestNumber n)

theorem Printable.of_lt (h : Printable nums) (hn : n < 9007199254740992) : Json.Exact nums n := by
  have hexact := h n
  rwa [nearestNumber_of_lt hn] at hexact

theorem Printable.skipped (h : Printable nums) (hn : skipped query = some n) : Json.Exact nums n := by
  simp only [walletApi.skipped, Option.bind_eq_bind, Option.bind_eq_some_iff, Option.pure_def,
    Option.some.injEq] at hn
  obtain ⟨page, -, limit, -, rfl⟩ := hn
  exact h _

theorem exact_paginateServer (hprint : Printable nums) (h : query.Accepted) :
    Json.Exact nums (paginateServer query).offset ∧ Json.Exact nums (paginateServer query).limit := by
  refine ⟨?_, ?_⟩
  · rw [offset_eq h]
    cases hskipped : skipped query with
    | none => exact hprint.of_lt (by decide)
    | some n =>
      rw [orElse_some]
      exact hprint.skipped hskipped
  · rw [limit_eq h]
    cases hlimit : query.limit with
    | none => exact hprint.of_lt (by decide)
    | some n => exact hprint.of_lt (h.limit n hlimit).2

theorem generateCacheKey_eq_iff (hsha256 : Function.Injective sha256) {value value' : Pagination}
    (hvalue : Json.Exact nums value.offset ∧ Json.Exact nums value.limit)
    (hvalue' : Json.Exact nums value'.offset ∧ Json.Exact nums value'.limit) :
    generateCacheKey sha256 nums value = generateCacheKey sha256 nums value' ↔
      value.offset = value'.offset ∧ value.limit = value'.limit := by
  have hparse (v : Pagination) (hv : Json.Exact nums v.offset ∧ Json.Exact nums v.limit) :
      Json.parse nums (Json.print nums (.obj [(units "offset", .num v.offset),
        (units "limit", .num v.limit)])) =
        some (.obj [(units "offset", .num v.offset), (units "limit", .num v.limit)]) := by
    refine Json.parse_print _ ?_
    have hkeys : Enumerated [units "offset", units "limit"] := ⟨by decide, by decide⟩
    simp [Json.inside, Json.insideFields, Json.WellFormed, hkeys, hv.1, hv.2]
  refine ⟨fun h => ?_, fun h => by rw [generateCacheKey, generateCacheKey, h.1, h.2]⟩
  have htext := hparse value hvalue
  rw [hsha256 h, hparse value' hvalue'] at htext
  simpa [eq_comm] using htext

section Texts

variable {word : String} {a b : Option Nat}

/-- A number, or a word where there is none, is told by its text. -/
theorem elim_print_inj (hword : isNumber (units word) = false) (ha : ∀ n ∈ a, Json.Exact nums n)
    (hb : ∀ n ∈ b, Json.Exact nums n) :
    a.elim (units word) nums.print = b.elim (units word) nums.print ↔ a = b := by
  refine ⟨fun h => ?_, fun h => by rw [h]⟩
  cases a with
  | none =>
    cases b with
    | none => rfl
    | some n =>
      have hnumber := (hb n rfl).1
      rw [show nums.print n = units word from h.symm, hword] at hnumber
      cases hnumber
  | some n =>
    cases b with
    | none =>
      have hnumber := (ha n rfl).1
      rw [show nums.print n = units word from h, hword] at hnumber
      cases hnumber
    | some m =>
      have hparse := (ha n rfl).2
      rw [show nums.print n = nums.print m from h, (hb m rfl).2] at hparse
      rw [hparse]

theorem comma_notMem (word : String) (hword : unit ',' ∉ units word) (ha : ∀ n ∈ a, Json.Exact nums n) :
    unit ',' ∉ a.elim (units word) nums.print := by
  cases a with
  | none => exact hword
  | some n =>
    intro hmem
    have hends := Json.endsWord_of_mem_number (ha n rfl).1 hmem
    revert hends
    decide

end Texts

/-- The window is told by the statement. -/
theorem sqlText_eq_iff {method : CachedMethod} (hprint : Printable nums) (h : query.Accepted)
    (h' : query'.Accepted) : sqlText nums method query = sqlText nums method query' ↔
      skipped query = skipped query' ∧ query.limit = query'.limit := by
  have hskipped (q : Query) : ∀ n ∈ skipped q, Json.Exact nums n := fun n hn => hprint.skipped hn
  have hlimit {q : Query} (hq : q.Accepted) : ∀ n ∈ q.limit, Json.Exact nums n :=
    fun n hn => hprint.of_lt (hq.limit n hn).2
  have hsplit : sqlText nums method query = sqlText nums method query' ↔
      (skipped query).elim (units "NaN") nums.print = (skipped query').elim (units "NaN") nums.print ∧
      query.limit.elim (units "undefined") nums.print = query'.limit.elim (units "undefined") nums.print := by
    have hbefore := comma_notMem "NaN" (by decide) (hskipped query)
    have hafter : unit ',' ∉ query.limit.elim (units "undefined") nums.print ++ units ";" := by
      rw [List.mem_append, not_or]
      exact ⟨comma_notMem "undefined" (by decide) (hlimit h), by decide⟩
    have hcomma : units "," = [unit ','] := rfl
    simp only [sqlText, hcomma, List.append_assoc, List.append_cancel_left_eq, List.cons_append,
      List.nil_append]
    rw [List.append_cons_inj_of_notMem hbefore hafter]
    simp only [true_and, List.append_cancel_right_eq]
  rw [hsplit, elim_print_inj (by decide) (hskipped query) (hskipped query'),
    elim_print_inj (by decide) (hlimit h) (hlimit h')]

/-- Equal keys are equal windows. -/
theorem key_eq_iff (hsha256 : Function.Injective sha256) (hprint : Printable nums) (h : query.Accepted)
    (h' : query'.Accepted) :
    generateCacheKey sha256 nums (paginateServer query) =
      generateCacheKey sha256 nums (paginateServer query') ↔
      (paginateServer query).offset = (paginateServer query').offset ∧
        query.limit.getD 100 = query'.limit.getD 100 := by
  rw [generateCacheKey_eq_iff hsha256 (exact_paginateServer hprint h) (exact_paginateServer hprint h'),
    limit_eq h, limit_eq h']

theorem skipped_of_limit (hlimit : query.limit = none) : skipped query = none := by
  cases hpage : query.page <;> simp [skipped, hlimit, hpage]

theorem isSome_skipped (hlimit : query.limit.isSome = true) : (skipped query).isSome = query.page.isSome := by
  obtain ⟨limit, hlimit⟩ := Option.isSome_iff_exists.mp hlimit
  cases hpage : query.page <;> simp [skipped, hlimit, hpage]

theorem not_firstWindow (h : ¬ FirstWindow query) : query.page.isSome = true ∧ query.limit.isSome = true := by
  simp only [FirstWindow, not_or] at h
  exact ⟨Option.isSome_iff_ne_none.mpr h.1, Option.isSome_iff_ne_none.mpr h.2.1⟩

/-- Queries with one key that do not clash have the same fields. -/
theorem sameFields_of_not_clash (h : query.Accepted) (h' : query'.Accepted) (hclash : ¬ Clash query query')
    (hoffsets : (paginateServer query).offset = (paginateServer query').offset)
    (hlimits : query.limit.getD 100 = query'.limit.getD 100) : SameFields query query' := by
  by_contra hfields
  by_cases hfirst : FirstWindow query
  · have hzero := (offset_eq_zero_iff h).mpr hfirst
    exact hclash ⟨hfirst, (offset_eq_zero_iff h').mp (hoffsets ▸ hzero), hlimits, hfields⟩
  · have hfirst' : ¬ FirstWindow query' := fun hzero =>
      hfirst ((offset_eq_zero_iff h).mp (hoffsets.trans ((offset_eq_zero_iff h').mpr hzero)))
    obtain ⟨hpage, hlimit⟩ := not_firstWindow hfirst
    obtain ⟨hpage', hlimit'⟩ := not_firstWindow hfirst'
    exact hfields ⟨hlimit.trans hlimit'.symm, fun _ => hpage.trans hpage'.symm⟩

/-- Of queries with the same fields the key tells the window. -/
theorem window_eq_of_sameFields (h : query.Accepted) (h' : query'.Accepted) (hfields : SameFields query query')
    (hoffsets : (paginateServer query).offset = (paginateServer query').offset)
    (hlimits : query.limit.getD 100 = query'.limit.getD 100) :
    skipped query = skipped query' ∧ query.limit = query'.limit := by
  rw [offset_eq h, offset_eq h'] at hoffsets
  cases hlimit : query.limit with
  | none =>
    have hlimit' : query'.limit = none := by simpa [hlimit] using hfields.1.symm
    rw [skipped_of_limit hlimit, skipped_of_limit hlimit', hlimit']
    exact ⟨rfl, rfl⟩
  | some n =>
    have hsome : query.limit.isSome = true := by rw [hlimit, Option.isSome_some]
    obtain ⟨n', hlimit'⟩ := Option.isSome_iff_exists.mp (hfields.1.symm.trans hsome)
    have hsome' : query'.limit.isSome = true := by rw [hlimit', Option.isSome_some]
    refine ⟨eq_of_orElse_eq ?_ hoffsets, by simpa [hlimit, hlimit'] using hlimits⟩
    rw [isSome_skipped hsome, isSome_skipped hsome', hfields.2 hsome]

/-- A query is never answered from another's window exactly if the two do not ask
    for the first rows by different fields. -/
theorem query_cache_sound_iff (sha256 : JsString → D) (hsha256 : Function.Injective sha256)
    (nums : Numbers Nat) (hprint : Printable nums) (method : CachedMethod) (query query' : Query)
    (h : query.Accepted) (h' : query'.Accepted) :
    (generateCacheKey sha256 nums (paginateServer query) =
          generateCacheKey sha256 nums (paginateServer query') →
        sqlText nums method query = sqlText nums method query') ↔ ¬ Clash query query' := by
  rw [key_eq_iff hsha256 hprint h h', sqlText_eq_iff hprint h h']
  refine ⟨?_, ?_⟩
  · rintro hsound ⟨hfirst, hfirst', hlimits, hfields⟩
    have hoffsets := ((offset_eq_zero_iff h).mpr hfirst).trans ((offset_eq_zero_iff h').mpr hfirst').symm
    obtain ⟨hskipped, hlimit⟩ := hsound ⟨hoffsets, hlimits⟩
    refine hfields ⟨by rw [hlimit], fun hsome => ?_⟩
    rw [← isSome_skipped hsome, hskipped, isSome_skipped (hlimit ▸ hsome)]
  · rintro hclash ⟨hoffsets, hlimits⟩
    have hfields := sameFields_of_not_clash h h' hclash hoffsets hlimits
    exact window_eq_of_sameFields h h' hfields hoffsets hlimits

theorem printable_naturals : Printable Json.naturals := fun n => Json.exact_naturals (nearestNumber n)

/-- A page without a limit has the key and the text of a query without fields. A
    limit with the first page has the key of the limit alone, and not its text. -/
theorem query_cache_sound_iff_first_window :
    generateCacheKey id Json.naturals (paginateServer ⟨none, some 1, none⟩) =
        generateCacheKey id Json.naturals (paginateServer ⟨none, none, none⟩) ∧
      sqlText Json.naturals .information ⟨none, some 1, none⟩ =
        sqlText Json.naturals .information ⟨none, none, none⟩ ∧
      ¬ (generateCacheKey id Json.naturals (paginateServer ⟨some 7, some 1, none⟩) =
          generateCacheKey id Json.naturals (paginateServer ⟨some 7, none, none⟩) →
        sqlText Json.naturals .search ⟨some 7, some 1, none⟩ =
          sqlText Json.naturals .search ⟨some 7, none, none⟩) := by
  have hsame := query_cache_sound_iff id Function.injective_id Json.naturals printable_naturals .information
    ⟨none, some 1, none⟩ ⟨none, none, none⟩ ⟨by simp, by simp, rfl⟩ ⟨by simp, by simp, rfl⟩
  have hclash := query_cache_sound_iff id Function.injective_id Json.naturals printable_naturals .search
    ⟨some 7, some 1, none⟩ ⟨some 7, none, none⟩ ⟨by simp, by simp, rfl⟩ ⟨by simp, by simp, rfl⟩
  refine ⟨rfl, hsame.mpr ?_ rfl, ?_⟩
  · simp [Clash, SameFields]
  · rw [hclash]
    simp [Clash, SameFields, FirstWindow]

/-- A query without fields is answered from the window of the first hundred rows. -/
theorem other_window_served :
    Function.Injective (id : JsString → JsString) ∧ Printable Json.naturals ∧
      Query.Accepted ⟨none, none, none⟩ ∧ Query.Accepted ⟨some 100, some 1, none⟩ ∧
      generateCacheKey id Json.naturals (paginateServer ⟨none, none, none⟩) =
        generateCacheKey id Json.naturals (paginateServer ⟨some 100, some 1, none⟩) ∧
      sqlText Json.naturals .information ⟨none, none, none⟩ ≠
        sqlText Json.naturals .information ⟨some 100, some 1, none⟩ :=
  ⟨Function.injective_id, printable_naturals, ⟨by simp, by simp, rfl⟩, ⟨by simp, by simp, rfl⟩, rfl,
    by decide⟩

end anisa.walletApi
