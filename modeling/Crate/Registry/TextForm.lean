import Crate.PrivOps.ValidateReq
import Crate.Registry.JidOwner

/-!
# The text form of the registry

`serialize` writes one line for each entry without escaping, and `parse`
expects four tab-separated columns.  For entries whose name and path come from
the validators, a line is read back exactly when its jid fits in sixteen bits
and its path holds no tab, and the whole file exactly when every line is.
-/

namespace Crate.JidOwnerRegistryPure

open Crate.Foundation

/-! ## Columns -/

theorem splitColumn_append {a b : Str} (ha : a ≠ []) (htab : '\t' ∉ a) :
    splitColumn (a ++ '\t' :: b) = some (a, b) := by
  have htake := takeWhile_append_cons htab b
  have hdrop := dropWhile_append_cons htab b
  simp only [splitColumn, htake, hdrop, ha, if_false, List.tail_cons]
  simp

/-- An entry whose columns the validators have checked. -/
structure Plain (e : Entry) : Prop where
  name_ne_nil : e.name ≠ []
  name_tab : '\t' ∉ e.name
  name_newline : '\n' ∉ e.name
  path_ne_nil : e.path ≠ []
  path_newline : '\n' ∉ e.path

theorem splitTabs4_entryLine {jid : Nat} {e : Entry} (h : Plain e) :
    splitTabs4 (entryLine jid e) =
      if '\t' ∈ e.path then none
      else some (decimal jid, decimal e.uid.toNat, e.name, e.path) := by
  have hdigits : ∀ n, '\t' ∉ decimal n := not_mem_decimal (by decide)
  simp only [splitTabs4, entryLine, splitColumn_append (decimal_ne_nil _) (hdigits _),
    splitColumn_append h.name_ne_nil h.name_tab, h.path_ne_nil, false_or, Option.bind_eq_bind,
    Option.bind_some]

/-! ## Numbers -/

theorem parseDecimalLoop_digits {s : Str} (hs : ∀ c ∈ s, isDecimalDigit c = true)
    (v : UInt64) (hbound : Nat.ofDigitChars 10 s v.toNat < 2 ^ 64) :
    parseDecimalLoop s v = some (UInt64.ofNat (Nat.ofDigitChars 10 s v.toNat)) := by
  induction s generalizing v with
  | nil => simp [parseDecimalLoop, Nat.ofDigitChars]
  | cons c rest ih =>
      have hc := hs c (by simp)
      simp only [isDecimalDigit, Bool.and_eq_true, decide_eq_true_eq] at hc
      rw [Nat.ofDigitChars_cons] at hbound ⊢
      have hgrow := le_ofDigitChars rest (10 * v.toNat + (c.toNat - '0'.toNat))
      have hnv : (v * 10 + UInt64.ofNat (c.toNat - '0'.toNat)).toNat =
          10 * v.toNat + (c.toNat - '0'.toNat) := toNat_snoc_digit64 (by omega)
      have hlow : ¬c < '0' := not_lt.mpr hc.1
      have hhigh : ¬c > '9' := not_lt.mpr hc.2
      have hover : ¬v * 10 + UInt64.ofNat (c.toNat - '0'.toNat) < v := by
        rw [UInt64.lt_iff_toNat_lt, hnv]
        omega
      simp only [parseDecimalLoop, hlow, hhigh, decide_false, Bool.or_self,
        Bool.false_eq_true, if_false, hover]
      rw [ih (fun c hc => hs c (List.mem_cons_of_mem _ hc)) _ (by rw [hnv]; exact hbound), hnv]

theorem parseDecimal_decimal {n : Nat} (hn : n < 2 ^ 64) :
    parseDecimal (decimal n) = some (UInt64.ofNat n) := by
  have hvalue : Nat.ofDigitChars 10 (decimal n) (0 : UInt64).toNat = n :=
    decimalValue_decimal n
  have hne : (decimal n).isEmpty = false := by simp
  simp only [parseDecimal, hne, Bool.false_eq_true, if_false]
  rw [parseDecimalLoop_digits (fun c hc => isDecimalDigit_of_mem_decimal hc) _
    (by rw [hvalue]; exact hn), hvalue]

/-! ## One line -/

def Fits (jid : Nat) (e : Entry) : Prop := jid ≤ 65535 ∧ '\t' ∉ e.path

theorem parseEntry_entryLine {lineNo jid : Nat} {e : Entry} (h : Plain e)
    (hbound : jid < 2 ^ 64) :
    parseEntry lineNo (entryLine jid e) =
      if '\t' ∈ e.path then
        .error ("line " ++ decimal lineNo ++ ": expected exactly 4 tab-separated columns")
      else if jid = 0 ∨ jid > 65535 then
        .error ("line " ++ decimal lineNo ++ ": jid must be 1..65535")
      else .ok (jid, e) := by
  have huid := e.uid.toNat_lt
  have hnat : (UInt64.ofNat jid).toNat = jid := by
    rw [UInt64.toNat_ofNat']
    omega
  have hrange : (UInt64.ofNat jid = 0 ∨ UInt64.ofNat jid > 0xFFFF) ↔ jid = 0 ∨ jid > 65535 := by
    rw [gt_iff_lt, UInt64.lt_iff_toNat_lt, ← UInt64.toNat_inj, hnat]
    simp
  have hsmall : ¬UInt64.ofNat e.uid.toNat > 0xFFFFFFFF := by
    rw [gt_iff_lt, UInt64.lt_iff_toNat_lt, UInt64.toNat_ofNat']
    simp only [UInt64.reduceToNat]
    omega
  have hback : (UInt64.ofNat e.uid.toNat).toUInt32 = e.uid := by
    rw [← UInt32.toNat_inj, UInt64.toNat_toUInt32, UInt64.toNat_ofNat']
    omega
  rw [parseEntry, splitTabs4_entryLine h]
  by_cases htab : '\t' ∈ e.path
  · simp [htab]
  · simp only [htab, if_false, parseDecimal_decimal hbound,
      parseDecimal_decimal (show e.uid.toNat < 2 ^ 64 by omega), hrange, hsmall, hnat, hback]

theorem parseEntry_ok_iff {lineNo jid : Nat} {e : Entry} (h : Plain e) (hpos : 1 ≤ jid)
    (hbound : jid < 2 ^ 64) :
    (∃ found, parseEntry lineNo (entryLine jid e) = .ok found) ↔ Fits jid e := by
  rw [parseEntry_entryLine h hbound, Fits]
  by_cases htab : '\t' ∈ e.path
  · simp [htab]
  · by_cases hjid : jid = 0 ∨ jid > 65535
    · simp only [htab, hjid, if_false, if_true, reduceCtorEq, exists_false, false_iff]
      omega
    · simp only [htab, hjid, if_false, Except.ok.injEq, exists_eq', true_iff,
        not_false_eq_true, and_true]
      omega

/-! ## The whole file -/

theorem entryLine_newline {jid : Nat} {e : Entry} (h : Plain e) : '\n' ∉ entryLine jid e := by
  have hdigits : ∀ n, '\n' ∉ decimal n := not_mem_decimal (by decide)
  simp [entryLine, hdigits, h.name_newline, h.path_newline]

theorem entryLine_not_skipped (jid : Nat) (e : Entry) :
    ¬(entryLine jid e = [] ∨ (entryLine jid e).head? = some '#') := by
  cases hd : decimal jid with
  | nil => exact absurd hd (decimal_ne_nil jid)
  | cons c rest =>
      have hc : isDecimalDigit c = true := isDecimalDigit_of_mem_decimal (n := jid) (by simp [hd])
      simp only [entryLine, hd, List.cons_append, List.head?_cons, Option.some.injEq, reduceCtorEq,
        false_or]
      rintro rfl
      exact absurd hc (by decide)

theorem parseLines_skip {lineNo : Nat} {line : Str} {rest : List Str} {out : EntryMap}
    (h : line = [] ∨ line.head? = some '#') :
    parseLines lineNo (line :: rest) out = parseLines (lineNo + 1) rest out := by
  rw [parseLines, if_pos h]

/-- A file that loads has no malformed line. -/
theorem parseEntry_ok_of_parseLines {lines : List Str} {lineNo : Nat} {out result : EntryMap}
    (h : parseLines lineNo lines out = .ok result) {line : Str} (hline : line ∈ lines)
    (hkeep : ¬(line = [] ∨ line.head? = some '#')) :
    ∃ k found, parseEntry k line = .ok found := by
  induction lines generalizing lineNo out with
  | nil => simp at hline
  | cons first rest ih =>
      by_cases hskip : first = [] ∨ first.head? = some '#'
      · rw [parseLines_skip hskip] at h
        rcases List.mem_cons.mp hline with rfl | hrest
        · exact absurd hskip hkeep
        · exact ih h hrest
      · rw [parseLines, if_neg hskip] at h
        cases hentry : parseEntry lineNo first with
        | error err => simp [hentry] at h
        | ok found =>
            rcases List.mem_cons.mp hline with rfl | hrest
            · exact ⟨lineNo, found, hentry⟩
            · simp only [hentry] at h
              split at h
              · contradiction
              · exact ih h hrest

theorem parseLines_entryLines (l : List (Nat × Entry)) (lineNo : Nat) (out : EntryMap)
    (hplain : ∀ kv ∈ l, Plain kv.2 ∧ 1 ≤ kv.1 ∧ Fits kv.1 kv.2)
    (hsorted : l.Pairwise (fun a b => a.1 < b.1))
    (hfresh : ∀ kv ∈ l, out.find? kv.1 = none) :
    parseLines lineNo (l.map (fun kv => entryLine kv.1 kv.2) ++ [[]]) out =
      .ok (l.foldl (fun m kv => m.insert kv.1 kv.2) out) := by
  induction l generalizing lineNo out with
  | nil => simp [parseLines]
  | cons kv rest ih =>
      obtain ⟨hp, hpos, hfits⟩ := hplain kv (by simp)
      obtain ⟨hhead, htail⟩ := List.pairwise_cons.mp hsorted
      have hjid : ¬(kv.1 = 0 ∨ kv.1 > 65535) := by
        have := hfits.1
        omega
      have hparse : parseEntry lineNo (entryLine kv.1 kv.2) = .ok (kv.1, kv.2) := by
        rw [parseEntry_entryLine hp (by have := hfits.1; omega), if_neg hfits.2, if_neg hjid]
      have hnew : (out.find? kv.1).isSome = false := by
        simp [hfresh kv (by simp)]
      rw [List.map_cons, List.cons_append, parseLines, if_neg (entryLine_not_skipped _ _)]
      simp only [hparse, hnew, Bool.false_eq_true, if_false, List.foldl_cons]
      apply ih _ _ (fun x hx => hplain x (List.mem_cons_of_mem _ hx)) htail
      intro x hx
      rw [OrdMap.find?_insert, if_neg (by have := hhead x hx; omega)]
      exact hfresh x (List.mem_cons_of_mem _ hx)

/-- The registry file is read back as it was written exactly when every entry fits its line. -/
theorem parse_serialize_iff {m : EntryMap}
    (h : ∀ kv ∈ m.entries, Plain kv.2 ∧ 1 ≤ kv.1 ∧ kv.1 < 2 ^ 64) :
    parse (serialize m) = .ok m ↔ ∀ kv ∈ m.entries, Fits kv.1 kv.2 := by
  have hlines : (serialize m).splitOn '\n' =
      m.entries.map (fun kv => entryLine kv.1 kv.2) ++ [[]] :=
    splitOn_flatMap_snoc (fun kv : Nat × Entry => entryLine kv.1 kv.2) m.entries
      (fun kv hkv => entryLine_newline (h kv hkv).1)
  rw [parse, hlines]
  constructor
  · intro hok kv hkv
    obtain ⟨hp, hpos, hbound⟩ := h kv hkv
    obtain ⟨k, found, hentry⟩ := parseEntry_ok_of_parseLines hok
      (List.mem_append_left _ (List.mem_map_of_mem hkv)) (entryLine_not_skipped kv.1 kv.2)
    exact (parseEntry_ok_iff hp hpos hbound).mp ⟨found, hentry⟩
  · intro hfits
    rw [parseLines_entryLines _ _ _ (fun kv hkv => ⟨(h kv hkv).1, (h kv hkv).2.1, hfits kv hkv⟩)
      m.sorted (by simp)]
    rw [OrdMap.foldl_insert_entries]

end Crate.JidOwnerRegistryPure
