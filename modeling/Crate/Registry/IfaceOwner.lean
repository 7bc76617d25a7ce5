import Crate.Foundation.OrdMap
import Crate.PrivOps.Authz

/-!
# The interface owner registry

`IfaceOwnerRegistryPure` keeps the owner of each half of an epair in a map and
in a file with two columns.  Names are epair halves, so no column has to be
escaped and every such map is read back as it was written.
-/

namespace Crate.IfaceOwnerRegistryPure

open Crate.Foundation

abbrev EntryMap := OrdMap Str UInt32

/-- The answers of the live probe to the calls of one operation, in their order. -/
abbrev LiveProbe := Nat → Str → Bool

/-! ## Names -/

def isEpairName (name : Str) : Bool := PrivOpsAuthzPure.isEpairIfaceName name

def peerHalf (name : Str) : Str :=
  if !isEpairName name then []
  else name.dropLast ++ [if name.getLast? = some 'a' then 'b' else 'a']

def hostHalf (name : Str) : Str :=
  if !isEpairName name then [] else name.dropLast ++ ['a']

theorem exists_of_isEpairName {name : Str} (h : isEpairName name = true) :
    ∃ digits half, allDigits digits = true ∧ (half = 'a' ∨ half = 'b') ∧
      name = ("epair" : Str) ++ digits ++ [half] := by
  simp only [isEpairName, PrivOpsAuthzPure.isEpairIfaceName] at h
  split at h
  · contradiction
  · split at h
    · contradiction
    · rename_i hstart
      rw [Bool.and_eq_true, Bool.not_eq_true', Bool.or_eq_true, decide_eq_true_eq,
        decide_eq_true_eq] at h
      obtain ⟨hne, hrest⟩ := h
      have hsplit := List.take_append_drop ("epair" : Str).length name
      rw [not_not.mp hstart, ← List.takeWhile_append_dropWhile (p := isDecimalDigit)
        (l := name.drop ("epair" : Str).length)] at hsplit
      have hdigits : allDigits ((name.drop ("epair" : Str).length).takeWhile isDecimalDigit) =
          true := by
        rw [allDigits, hne, List.all_takeWhile]
        rfl
      rcases hrest with hrest | hrest
      · refine ⟨_, 'a', hdigits, .inl rfl, ?_⟩
        rw [← hrest, List.append_assoc, hsplit]
      · refine ⟨_, 'b', hdigits, .inr rfl, ?_⟩
        rw [← hrest, List.append_assoc, hsplit]

theorem isEpairName_half {digits : Str} (hdigits : allDigits digits = true) {half : Char}
    (hhalf : half = 'a' ∨ half = 'b') :
    isEpairName (("epair" : Str) ++ digits ++ [half]) = true := by
  rw [allDigits, Bool.and_eq_true, Bool.not_eq_true', List.all_eq_true] at hdigits
  have hlast : isDecimalDigit half = false := by
    rcases hhalf with rfl | rfl <;> rfl
  have hpos : 0 < digits.length := List.length_pos_iff.mpr (by simpa using hdigits.1)
  have hlen : ¬(("epair" : Str) ++ digits ++ [half]).length < ("epair" : Str).length + 2 := by
    simp only [List.length_append, List.length_singleton]
    omega
  have htake : (("epair" : Str) ++ digits ++ [half]).take ("epair" : Str).length = "epair" := by
    rw [List.append_assoc, List.take_left]
  have hdrop : (("epair" : Str) ++ digits ++ [half]).drop ("epair" : Str).length =
      digits ++ [half] := by
    rw [List.append_assoc, List.drop_left]
  simp only [isEpairName, PrivOpsAuthzPure.isEpairIfaceName, hlen, if_false, htake, hdrop,
    ne_eq, not_true]
  rw [List.takeWhile_append_of_pos hdigits.2, List.dropWhile_append_of_pos hdigits.2]
  rcases hhalf with rfl | rfl <;> simp [isDecimalDigit, hdigits.1]

theorem peerHalf_half {digits : Str} (h : allDigits digits = true) {half : Char}
    (hhalf : half = 'a' ∨ half = 'b') :
    peerHalf (("epair" : Str) ++ digits ++ [half]) =
      ("epair" : Str) ++ digits ++ [if half = 'a' then 'b' else 'a'] := by
  have hname := isEpairName_half h hhalf
  rw [peerHalf, hname, if_neg (by simp), List.dropLast_concat, List.getLast?_concat]
  simp only [Option.some.injEq]

section

variable {name : Str} (h : isEpairName name = true)

include h

theorem isEpairName_peerHalf : isEpairName (peerHalf name) = true := by
  obtain ⟨digits, half, hdigits, hhalf, rfl⟩ := exists_of_isEpairName h
  rw [peerHalf_half hdigits hhalf]
  refine isEpairName_half hdigits ?_
  split
  · exact .inr rfl
  · exact .inl rfl

theorem peerHalf_peerHalf : peerHalf (peerHalf name) = name := by
  obtain ⟨digits, half, hdigits, hhalf, rfl⟩ := exists_of_isEpairName h
  rcases hhalf with rfl | rfl
  · rw [peerHalf_half hdigits (.inl rfl), if_pos rfl, peerHalf_half hdigits (.inr rfl)]
    rfl
  · rw [peerHalf_half hdigits (.inr rfl), if_neg (by decide), peerHalf_half hdigits (.inl rfl)]
    rfl

theorem hostHalf_ne_nil : hostHalf name ≠ [] := by
  rw [hostHalf, h]
  simp

theorem not_mem_of_isEpairName {c : Char} (hc : c ∉ ("epairab" : Str))
    (hdigit : isDecimalDigit c = false) : c ∉ name := by
  obtain ⟨digits, half, hdigits, hhalf, rfl⟩ := exists_of_isEpairName h
  rw [allDigits, Bool.and_eq_true, List.all_eq_true] at hdigits
  simp only [List.mem_append, List.mem_singleton, not_or]
  refine ⟨⟨fun hmem => hc ?_, fun hmem => ?_⟩, ?_⟩
  · exact List.mem_append_left ("ab" : Str) hmem
  · rw [hdigits.2 c hmem] at hdigit
    contradiction
  · rintro rfl
    rcases hhalf with rfl | rfl
    · exact hc (by decide)
    · exact hc (by decide)

theorem head?_of_isEpairName : name.head? = some 'e' := by
  obtain ⟨digits, half, -, -, rfl⟩ := exists_of_isEpairName h
  rfl

end

/-! ## Text form -/

def parseDecimalLoop : Str → UInt64 → Option UInt64
  | [], v => some v
  | c :: rest, v =>
      if !isDecimalDigit c then none
      else parseDecimalLoop rest (v * 10 + UInt64.ofNat (c.toNat - '0'.toNat))

def parseDecimal (s : Str) : Option UInt64 :=
  if s.isEmpty || s.length > 10 then none else parseDecimalLoop s 0

def entryLine (name : Str) (uid : UInt32) : Str := name ++ '\t' :: decimal uid.toNat

def serialize (entries : EntryMap) : Str :=
  entries.entries.flatMap (fun kv => entryLine kv.1 kv.2 ++ ['\n'])

/-- The columns around the only tab; the first must not be empty. -/
def splitTab2 (line : Str) : Option (Str × Str) :=
  if '\t' ∉ line then none
  else
    let name := line.takeWhile (· ≠ '\t')
    let rest := (line.dropWhile (· ≠ '\t')).tail
    if name = [] ∨ '\t' ∈ rest then none else some (name, rest)

def parseEntry (lineNo : Nat) (line : Str) : Except Str (Str × UInt32) :=
  match splitTab2 line with
  | none =>
      .error ("line " ++ decimal lineNo ++ ": expected exactly 2 tab-separated columns")
  | some (name, rest) =>
      if !isEpairName name then
        .error ("line " ++ decimal lineNo ++ ": '" ++ name ++ "' is not an epair half")
      else
        match parseDecimal rest with
        | none => .error ("line " ++ decimal lineNo ++ ": uid out of range")
        | some uid =>
            if uid > 0xFFFFFFFF then
              .error ("line " ++ decimal lineNo ++ ": uid out of range")
            else .ok (name, uid.toUInt32)

def parseLines : Nat → List Str → EntryMap → Except Str EntryMap
  | _, [], out => .ok out
  | lineNo, line :: rest, out =>
      if line = [] ∨ line.head? = some '#' then parseLines (lineNo + 1) rest out
      else
        match parseEntry lineNo line with
        | .error err => .error err
        | .ok (name, uid) =>
            if (out.find? name).isSome then
              .error ("line " ++ decimal lineNo ++ ": duplicate interface " ++ name)
            else parseLines (lineNo + 1) rest (out.insert name uid)

def parse (text : Str) : Except Str EntryMap := parseLines 1 (text.splitOn '\n') .empty

/-- The digits that follow cannot tell the word from the number it stands for. -/
theorem ofNat_ofDigitChars_congr (s : Str) {a b : Nat} (h : a % 2 ^ 64 = b % 2 ^ 64) :
    UInt64.ofNat (Nat.ofDigitChars 10 s a) = UInt64.ofNat (Nat.ofDigitChars 10 s b) := by
  induction s generalizing a b with
  | nil =>
      rw [← UInt64.toNat_inj]
      simpa [Nat.ofDigitChars] using h
  | cons c rest ih =>
      rw [Nat.ofDigitChars_cons, Nat.ofDigitChars_cons]
      exact ih (by omega)

theorem parseDecimalLoop_digits {s : Str} (hs : s.all isDecimalDigit = true) (v : UInt64) :
    parseDecimalLoop s v = some (UInt64.ofNat (Nat.ofDigitChars 10 s v.toNat)) := by
  induction s generalizing v with
  | nil => simp [parseDecimalLoop, Nat.ofDigitChars]
  | cons c rest ih =>
      rw [List.all_cons, Bool.and_eq_true] at hs
      rw [parseDecimalLoop, hs.1, if_neg (by simp), ih hs.2, Nat.ofDigitChars_cons]
      congr 1
      apply ofNat_ofDigitChars_congr
      rw [UInt64.toNat_add, UInt64.toNat_mul, UInt64.toNat_ofNat']
      simp only [UInt64.reduceToNat]
      omega

theorem parseDecimal_uid (uid : UInt32) :
    parseDecimal (decimal uid.toNat) = some uid.toUInt64 := by
  have huid := uid.toNat_lt
  have hlen : (decimal uid.toNat).length ≤ 10 :=
    Nat.toDigits_length 10 uid.toNat 10 (by norm_num) (by omega)
  have hvalue : Nat.ofDigitChars 10 (decimal uid.toNat) (0 : UInt64).toNat = uid.toNat :=
    decimalValue_decimal uid.toNat
  have hguard : ((decimal uid.toNat).isEmpty ||
      decide ((decimal uid.toNat).length > 10)) = false := by
    rw [Bool.or_eq_false_iff, List.isEmpty_eq_false_iff, decide_eq_false_iff_not]
    exact ⟨decimal_ne_nil _, by omega⟩
  have hword : UInt64.ofNat uid.toNat = uid.toUInt64 := by
    rw [← UInt64.toNat_inj, UInt64.toNat_ofNat', UInt32.toNat_toUInt64]
    omega
  rw [parseDecimal, hguard, if_neg Bool.false_ne_true, parseDecimalLoop_digits
    (all_digits_decimal uid.toNat), hvalue, hword]

/-! ## What is written is read back -/

theorem parseEntry_entryLine {name : Str} (h : isEpairName name = true) (uid : UInt32)
    (lineNo : Nat) : parseEntry lineNo (entryLine name uid) = .ok (name, uid) := by
  have htab : '\t' ∉ name := not_mem_of_isEpairName h (by decide) (by decide)
  have hne : name ≠ [] := by
    rintro rfl
    exact absurd h (by decide)
  have hrest : '\t' ∉ decimal uid.toNat := not_mem_decimal (by decide) _
  have hsplit : splitTab2 (entryLine name uid) = some (name, decimal uid.toNat) := by
    simp only [splitTab2, entryLine, takeWhile_append_cons htab, dropWhile_append_cons htab, hne,
      List.tail_cons, hrest, or_self, if_false]
    simp
  have huid := uid.toNat_lt
  have hrange : ¬uid.toUInt64 > 0xFFFFFFFF := by
    rw [gt_iff_lt, UInt64.lt_iff_toNat_lt, UInt32.toNat_toUInt64]
    simp only [UInt64.reduceToNat]
    omega
  unfold parseEntry
  simp only [hsplit, h, parseDecimal_uid, hrange, Bool.not_true, Bool.false_eq_true, if_false,
    UInt32.toUInt32_toUInt64]

theorem parseLines_entryLines (l : List (Str × UInt32)) (lineNo : Nat) (out : EntryMap)
    (hnames : ∀ kv ∈ l, isEpairName kv.1 = true)
    (hdistinct : (l.map Prod.fst).Nodup) (hfresh : ∀ kv ∈ l, out.find? kv.1 = none) :
    parseLines lineNo (l.map (fun kv => entryLine kv.1 kv.2) ++ [[]]) out =
      .ok (l.foldl (fun m kv => m.insert kv.1 kv.2) out) := by
  induction l generalizing lineNo out with
  | nil => simp [parseLines]
  | cons kv rest ih =>
      obtain ⟨hname, hnames⟩ := List.forall_mem_cons.mp hnames
      obtain ⟨hnew, hfresh⟩ := List.forall_mem_cons.mp hfresh
      rw [List.map_cons, List.nodup_cons] at hdistinct
      have hskip : ¬(entryLine kv.1 kv.2 = [] ∨ (entryLine kv.1 kv.2).head? = some '#') := by
        have hhead : (entryLine kv.1 kv.2).head? = some 'e' := by
          rw [entryLine, List.head?_append, head?_of_isEpairName hname]
          rfl
        rintro (hnil | hhash)
        · rw [hnil] at hhead
          contradiction
        · rw [hhead] at hhash
          exact absurd hhash (by decide)
      rw [List.map_cons, List.cons_append, parseLines, if_neg hskip]
      simp only [parseEntry_entryLine hname, hnew, Option.isSome_none, Bool.false_eq_true, if_false,
        List.foldl_cons]
      apply ih _ _ hnames hdistinct.2
      intro x hx
      rw [OrdMap.find?_insert, if_neg]
      · exact hfresh x hx
      · intro hsame
        exact hdistinct.1 (hsame ▸ List.mem_map_of_mem hx)

theorem parse_serialize {m : EntryMap} (h : ∀ kv ∈ m.entries, isEpairName kv.1 = true) :
    parse (serialize m) = .ok m := by
  have hlines : (serialize m).splitOn '\n' =
      m.entries.map (fun kv => entryLine kv.1 kv.2) ++ [[]] := by
    apply splitOn_flatMap_snoc (fun kv : Str × UInt32 => entryLine kv.1 kv.2)
    intro kv hkv
    have hname : '\n' ∉ kv.1 := not_mem_of_isEpairName (h kv hkv) (by decide) (by decide)
    have hdigits : '\n' ∉ decimal kv.2.toNat := not_mem_decimal (by decide) _
    simp [entryLine, hname, hdigits]
  rw [parse, hlines, parseLines_entryLines _ _ _ h m.keys_nodup (by simp),
    OrdMap.foldl_insert_entries]

end Crate.IfaceOwnerRegistryPure
