import Crate.Foundation.Runs
import Crate.Network.Ip6Text

/-!
# The text of an IPv6 address

`formatIp6` of `lib/ip6_alloc_pure.cpp`: groups in lower-case hexadecimal, and
a pair of colons for the longest run of zero groups, the leftmost of several.
The text is read back as the address it was made from.
-/

namespace Crate.Ip6AllocPure

open Crate.Foundation
open Crate.PrivOpsPure (isHexDigit hexValue)

/-- What the scan of `formatIp6` knows: the best run, and the run it is in; `-1` is no run. -/
structure ZeroRuns where
  bestStart : Int
  bestLen : Nat
  curStart : Int
  curLen : Nat

def ZeroRuns.next (r : ZeroRuns) (i : Nat) (v : UInt16) : ZeroRuns :=
  if v = 0 then
    let (curStart, curLen) := if r.curStart < 0 then ((i : Int), 1) else (r.curStart, r.curLen + 1)
    if curLen > r.bestLen then ⟨curStart, curLen, curStart, curLen⟩
    else ⟨r.bestStart, r.bestLen, curStart, curLen⟩
  else ⟨r.bestStart, r.bestLen, -1, 0⟩

def zeroRuns (g : List UInt16) : ZeroRuns :=
  g.zipIdx.foldl (fun r (v, i) => r.next i v) ⟨-1, 0, -1, 0⟩

/-- `std::snprintf` with `%x`. -/
def hexGroup (v : UInt16) : Str := Nat.toDigits 16 v.toNat

/-- The loop that writes the groups; each turn writes at least one. -/
def writeGroups (g : List UInt16) (bestStart : Int) (bestLen : Nat) : Nat → Nat → Str
  | 0, _ => []
  | turns + 1, i =>
      if i < 8 then
        if (i : Int) = bestStart then "::" ++ writeGroups g bestStart bestLen turns (i + bestLen)
        else
          (if i > 0 ∧ (i : Int) ≠ bestStart + bestLen then [':'] else []) ++
            hexGroup (g[i]?.getD 0) ++ writeGroups g bestStart bestLen turns (i + 1)
      else []

def formatIp6 (addr : Addr6) : Str :=
  let g := groupsOf addr
  let r := zeroRuns g
  let (bestStart, bestLen) := if r.bestLen < 2 then (-1, 0) else (r.bestStart, r.bestLen)
  writeGroups g bestStart bestLen 8 0

/-! ## What canonical means -/

/-- The group in lower-case digits, without a leading zero. -/
structure PlainHex (v : UInt16) (w : Str) : Prop where
  group : IsGroup w
  value : groupValue w = v
  lower : ∀ c ∈ w, c ∈ ("0123456789abcdef" : Str)
  no_zero : w.head? = some '0' → w = ['0']

/-- Every group is plain, and the leftmost longest run of zero groups is left out if it has two. -/
def Canonical (groups : List UInt16) (s : Str) : Prop :=
  ∃ words start len, List.Forall₂ PlainHex groups words ∧
    LeftmostLongest (· = 0) groups start len ∧
    s = if 2 ≤ len then
        joinColons (words.take start) ++ "::" ++ joinColons (words.drop (start + len))
      else joinColons words

/-- The text is a way to write the groups. -/
def Spells (s : Str) (groups : List UInt16) : Prop :=
  ∃ p : Spelling, p.text = s ∧ Regular p ∧ spelledGroups p = groups

theorem parseIp6_eq_ok_iff_spells {s : Str} {a : Addr6} :
    parseIp6 s = .ok a ↔ Spells s (groupsOf a) := by
  rw [parseIp6_eq_ok_iff]
  simp only [Spells, eq_comm]

/-! ## One group -/

theorem hexNumber_append (w w' : Str) (n : Nat) :
    hexNumber (w ++ w') n = hexNumber w' (hexNumber w n) := by
  rw [hexNumber, List.foldl_append]
  rfl

theorem digitChar_mem {d : Nat} (h : d < 16) :
    d.digitChar ∈ ("0123456789abcdef" : Str) ∧ isHexDigit d.digitChar = true ∧
      hexValue d.digitChar = d ∧ (d.digitChar = '0' → d = 0) := by
  revert d
  decide

/-- What the digits of a number are, by induction over the number. -/
theorem toDigits_hex (n : Nat) :
    (∀ c ∈ Nat.toDigits 16 n, c ∈ ("0123456789abcdef" : Str) ∧ isHexDigit c = true) ∧
      hexNumber (Nat.toDigits 16 n) 0 = n ∧
      ((Nat.toDigits 16 n).head? = some '0' → n = 0) := by
  induction n using Nat.strongRecOn with
  | ind n ih =>
      rw [Nat.toDigits_eq_if (by norm_num)]
      split_ifs with hlt
      · obtain ⟨hmem, hhex, hvalue, hzero⟩ := digitChar_mem hlt
        refine ⟨List.forall_mem_singleton.mpr ⟨hmem, hhex⟩, ?_, ?_⟩
        · simp [hexNumber, hvalue]
        · intro h
          exact hzero (Option.some.inj h)
      · obtain ⟨hdigits, hnumber, hhead⟩ := ih (n / 16) (by omega)
        obtain ⟨hmem, hhex, hvalue, -⟩ := digitChar_mem (show n % 16 < 16 by omega)
        refine ⟨?_, ?_, ?_⟩
        · exact List.forall_mem_append.mpr ⟨hdigits, List.forall_mem_singleton.mpr ⟨hmem, hhex⟩⟩
        · rw [hexNumber_append, hnumber, hexNumber, List.foldl_cons, List.foldl_nil, hvalue]
          omega
        · intro h
          rw [List.head?_append_of_ne_nil _ Nat.toDigits_ne_nil] at h
          have := hhead h
          omega

theorem plainHex_hexGroup (v : UInt16) : PlainHex v (hexGroup v) := by
  obtain ⟨hdigits, hnumber, hhead⟩ := toDigits_hex v.toNat
  have hlen : (hexGroup v).length ≤ 4 := by
    have hlt : v.toNat < 16 ^ 4 := v.toNat_lt
    exact (Nat.length_toDigits_le_iff (by norm_num) (by norm_num)).mpr hlt
  refine ⟨⟨Nat.toDigits_ne_nil, hlen, fun c hc => (hdigits c hc).2⟩, ?_,
    fun c hc => (hdigits c hc).1, ?_⟩
  · rw [groupValue, hexGroup, hnumber, UInt16.ofNat_toNat]
  · intro h
    rw [hexGroup, hhead h]
    rfl

/-! ## The scan -/

/-- The scan has found the runs of these groups. -/
structure Scanned (r : ZeroRuns) (g : List UInt16) (start : Nat) : Prop where
  best : LeftmostLongest (· = 0) g start r.bestLen
  best_start : 0 < r.bestLen → r.bestStart = start
  current : EndsIn (· = 0) g r.curLen
  cur_start : r.curStart = if r.curLen = 0 then -1 else (g.length : Int) - r.curLen

theorem Scanned.next {r : ZeroRuns} {g : List UInt16} {start : Nat} (h : Scanned r g start)
    (v : UInt16) : ∃ start', Scanned (r.next g.length v) (g ++ [v]) start' := by
  have hle := h.current.le
  have hcur := h.cur_start
  have hlength : ((g ++ [v]).length : Int) = g.length + 1 := by simp
  by_cases hv : v = 0
  · have htail := h.current.concat hv
    have hbest := h.best.concat htail
    -- the run goes on, or begins here
    have hstart : (if r.curStart < 0 then ((g.length : Int), 1) else (r.curStart, r.curLen + 1)) =
        ((g.length : Int) - r.curLen, r.curLen + 1) := by
      by_cases hzero : r.curLen = 0
      · rw [if_pos hzero] at hcur
        rw [if_pos (by omega), hzero]
        simp
      · rw [if_neg hzero] at hcur
        rw [if_neg (by omega), hcur]
    have hend : (g.length : Int) - r.curLen = if r.curLen + 1 = 0 then -1 else
        ((g ++ [v]).length : Int) - (r.curLen + 1 : Nat) := by
      rw [if_neg (by omega), hlength]
      push_cast
      ring
    rw [ZeroRuns.next, if_pos hv, hstart]
    dsimp only
    by_cases hlt : r.bestLen < r.curLen + 1
    · rw [if_pos hlt] at hbest ⊢
      refine ⟨g.length + 1 - (r.curLen + 1), hbest, fun _ => ?_, htail, hend⟩
      dsimp only
      omega
    · rw [if_neg hlt] at hbest ⊢
      exact ⟨start, hbest, h.best_start, htail, hend⟩
  · have htail : EndsIn (· = 0) (g ++ [v]) 0 := endsIn_concat_zero hv
    have hbest := h.best.concat htail
    rw [if_neg (Nat.not_lt_zero _)] at hbest
    rw [ZeroRuns.next, if_neg hv]
    exact ⟨start, hbest, h.best_start, htail, rfl⟩

theorem exists_scanned (g : List UInt16) : ∃ start, Scanned (zeroRuns g) g start := by
  induction g using List.reverseRecOn with
  | nil => exact ⟨0, leftmostLongest_nil, fun h => absurd h (lt_irrefl 0), endsIn_nil, rfl⟩
  | append_singleton g v ih =>
      obtain ⟨start, hscanned⟩ := ih
      have hstep : zeroRuns (g ++ [v]) = (zeroRuns g).next g.length v := by
        rw [zeroRuns, List.zipIdx_append, List.foldl_append]
        simp [zeroRuns]
      rw [hstep]
      exact hscanned.next v

/-! ## The writer -/

theorem joinColons_cons_eq (w : Str) (words : List Str) :
    joinColons (w :: words) = w ++ words.flatMap (':' :: ·) := by
  induction words generalizing w with
  | nil => simp
  | cons w' words ih => rw [joinColons_cons_cons, ih w', List.flatMap_cons, List.cons_append]

section Writer

variable (g : List UInt16) (bestStart : Int) (bestLen : Nat)

theorem writeGroups_end (turns : Nat) {i : Nat} (h : 8 ≤ i) :
    writeGroups g bestStart bestLen turns i = [] := by
  cases turns with
  | zero => rfl
  | succ turns => rw [writeGroups, if_neg (by omega)]

/-- Groups behind others, outside the run: each has its colon. -/
theorem writeGroups_stretch (turns : Nat) {n i : Nat} (hi : 0 < i) (hn : i + n ≤ 8)
    (hlen : g.length = 8)
    (hrun : ∀ k, i ≤ k → k < i + n → (k : Int) ≠ bestStart ∧ (k : Int) ≠ bestStart + bestLen) :
    writeGroups g bestStart bestLen (turns + n) i =
      (((g.drop i).take n).map hexGroup).flatMap (':' :: ·) ++
        writeGroups g bestStart bestLen turns (i + n) := by
  induction n generalizing i with
  | zero => simp
  | succ n ih =>
      obtain ⟨hstart, hend⟩ := hrun i le_rfl (by omega)
      have hlt : i < g.length := by omega
      have hrest := ih (i := i + 1) (by omega) (by omega)
        (fun k hk hlt => hrun k (by omega) (by omega))
      have hpos : i + 1 + n = i + (n + 1) := by omega
      rw [← Nat.add_assoc, writeGroups, if_pos (by omega), if_neg hstart, if_pos ⟨hi, hend⟩, hrest,
        hpos, List.drop_eq_getElem_cons hlt, List.take_succ_cons, List.getElem?_eq_getElem hlt]
      simp

/-- Groups at the beginning, or right behind the run: the first has no colon. -/
theorem writeGroups_words (turns : Nat) {n i : Nat} (hn : i + n ≤ 8) (hlen : g.length = 8)
    (hfresh : i = 0 ∨ (i : Int) = bestStart + bestLen)
    (hrun : ∀ k, i ≤ k → k < i + n →
      (k : Int) ≠ bestStart ∧ (i < k → (k : Int) ≠ bestStart + bestLen)) :
    writeGroups g bestStart bestLen (turns + n) i =
      joinColons (((g.drop i).take n).map hexGroup) ++
        writeGroups g bestStart bestLen turns (i + n) := by
  cases n with
  | zero => simp
  | succ n =>
      have hlt : i < g.length := by omega
      have hnone : ¬(i > 0 ∧ (i : Int) ≠ bestStart + bestLen) := by
        rintro ⟨hpos, hne⟩
        rcases hfresh with rfl | heq
        · exact lt_irrefl 0 hpos
        · exact hne heq
      have hrest := writeGroups_stretch g bestStart bestLen turns (i := i + 1) (n := n) (by omega)
        (by omega) hlen (fun k hk hlt => ⟨(hrun k (by omega) (by omega)).1,
          (hrun k (by omega) (by omega)).2 (by omega)⟩)
      have hpos : i + 1 + n = i + (n + 1) := by omega
      rw [← Nat.add_assoc, writeGroups, if_pos (by omega), if_neg (hrun i le_rfl (by omega)).1,
        if_neg hnone, hrest, hpos, List.drop_eq_getElem_cons hlt, List.take_succ_cons,
        List.map_cons, joinColons_cons_eq, List.getElem?_eq_getElem hlt]
      simp

end Writer

/-- The text: the words around the run, or all eight. -/
theorem exists_formatIp6 (a : Addr6) : ∃ start len,
    LeftmostLongest (· = 0) (groupsOf a) start len ∧
      formatIp6 a =
        if 2 ≤ len then
          joinColons (((groupsOf a).map hexGroup).take start) ++ "::" ++
            joinColons (((groupsOf a).map hexGroup).drop (start + len))
        else joinColons ((groupsOf a).map hexGroup) := by
  obtain ⟨start, hscanned⟩ := exists_scanned (groupsOf a)
  have hbest := hscanned.best_start
  have hwithin := hscanned.best.run.within
  have hlength := length_groupsOf a
  refine ⟨start, (zeroRuns (groupsOf a)).bestLen, hscanned.best, ?_⟩
  unfold formatIp6
  dsimp only
  generalize hlen : (zeroRuns (groupsOf a)).bestLen = len at hbest hwithin ⊢
  by_cases htwo : 2 ≤ len
  · have hfront := writeGroups_words (groupsOf a) start len (8 - start) (i := 0) (n := start)
      (by omega) hlength (.inl rfl) (fun k _ _ => ⟨by omega, fun _ => by omega⟩)
    have hback := writeGroups_words (groupsOf a) start len (len - 1) (i := start + len)
      (n := 8 - (start + len)) (by omega) hlength (.inr (by push_cast; rfl))
      (fun k _ _ => ⟨by omega, fun _ => by omega⟩)
    have hturns : 8 - start + start = 8 := by omega
    have hrest : 8 - start = len - 1 + (8 - (start + len)) + 1 := by omega
    have htail : ((groupsOf a).drop (start + len)).take (8 - (start + len)) =
        (groupsOf a).drop (start + len) :=
      List.take_of_length_le (by rw [List.length_drop]; omega)
    rw [hturns] at hfront
    rw [if_neg (by omega), if_pos htwo]
    dsimp only
    rw [hbest (by omega), hfront, Nat.zero_add, hrest, writeGroups, if_pos (by omega), if_pos rfl,
      hback, htail, writeGroups_end _ _ _ _ (by omega), List.append_nil, List.drop_zero,
      List.map_take, List.map_drop, List.append_assoc]
  · -- no run is left out
    have hall := writeGroups_words (groupsOf a) (-1) 0 0 (i := 0) (n := 8) (by omega) hlength
      (.inl rfl) (fun k _ _ => ⟨by omega, fun _ => by omega⟩)
    rw [if_pos (by omega), if_neg htwo]
    dsimp only
    rw [hall, writeGroups_end _ _ _ 0 (by omega), List.append_nil, List.drop_zero,
      List.take_of_length_le hlength.le]

/-! ## Round trip and canonical form -/

theorem canonical_formatIp6 (a : Addr6) : Canonical (groupsOf a) (formatIp6 a) := by
  obtain ⟨start, len, hrun, htext⟩ := exists_formatIp6 a
  refine ⟨(groupsOf a).map hexGroup, start, len, ?_, hrun, htext⟩
  rw [List.forall₂_map_right_iff, List.forall₂_same]
  exact fun v _ => plainHex_hexGroup v

theorem spells_of_canonical {groups : List UInt16} {s : Str} (hlen : groups.length = 8)
    (h : Canonical groups s) : Spells s groups := by
  obtain ⟨words, start, len, hwords, hrun, rfl⟩ := h
  have hcount : words.length = 8 := by rw [← hwords.length_eq, hlen]
  have hgroup : ∀ w ∈ words, IsGroup w := by
    intro w hw
    obtain ⟨i, hi, rfl⟩ := List.mem_iff_getElem.mp hw
    exact (hwords.get (by omega) hi).group
  have hvalues : words.map groupValue = groups := by
    refine List.ext_getElem (by simp; omega) ?_
    intro i hi hi'
    rw [List.getElem_map]
    exact (hwords.get hi' (by simpa using hi)).value
  have hwithin := hrun.run.within
  split_ifs with htwo
  · have hfront : ∀ w ∈ words.take start, IsGroup w :=
      fun w hw => hgroup w (List.mem_of_mem_take hw)
    have hback : ∀ w ∈ words.drop (start + len), IsGroup w :=
      fun w hw => hgroup w (List.mem_of_mem_drop hw)
    have hsize : (words.take start ++ words.drop (start + len)).length = 8 - len := by
      rw [List.length_append, List.length_take, List.length_drop]
      omega
    refine ⟨.around (words.take start) (words.drop (start + len)) (fun w hw => (hfront w hw).clean)
      (fun w hw => (hback w hw).clean), ?_, ⟨rfl, rfl, ?_, ?_⟩, ?_⟩
    · rw [Spelling.text_around, List.append_assoc]
      rfl
    · rw [Spelling.words_around]
      exact List.forall_mem_append.mpr ⟨hfront, hback⟩
    · rw [if_neg (by simp [Spelling.around]), Spelling.words_around, hsize]
      omega
    · have hsplit := hrun.run.split
      have hgap : 8 - (8 - len) = len := by omega
      rw [spelledGroups, Spelling.words_around, hsize, hgap]
      simp only [Spelling.around, Option.getD_some, List.map_take, List.map_drop, hvalues]
      exact hsplit.symm
  · refine ⟨.plain words (fun w hw => (hgroup w hw).clean), Spelling.text_plain _,
      ⟨rfl, rfl, ?_, ?_⟩, ?_⟩
    · rwa [Spelling.words_plain]
    · rw [if_pos (by rfl), Spelling.words_plain, hcount]
    · rw [spelledGroups, Spelling.words_plain, hcount]
      simp [Spelling.plain, hvalues]

theorem parseIp6_formatIp6 (a : Addr6) : parseIp6 (formatIp6 a) = .ok a :=
  parseIp6_eq_ok_iff_spells.mpr (spells_of_canonical (length_groupsOf a) (canonical_formatIp6 a))

theorem formatIp6_injective : Function.Injective formatIp6 := by
  intro a b h
  have hparse := parseIp6_formatIp6 a
  rw [h, parseIp6_formatIp6 b] at hparse
  exact (Except.ok.inj hparse).symm

/-- The canonical text is read back, tells addresses apart, and is one for all their spellings. -/
theorem formatIp6_canonical_round_trip :
    (∀ a, parseIp6 (formatIp6 a) = .ok a) ∧ (∀ a, Canonical (groupsOf a) (formatIp6 a)) ∧
      Function.Injective formatIp6 ∧
      ∀ a s, Spells s (groupsOf a) → (parseIp6 s).map formatIp6 = .ok (formatIp6 a) := by
  refine ⟨parseIp6_formatIp6, canonical_formatIp6, formatIp6_injective, ?_⟩
  intro a s h
  rw [parseIp6_eq_ok_iff_spells.mpr h]
  rfl

theorem written_out_spelling :
    (parseIp6 "2001:DB8:0000:0:1:0:0:1").map formatIp6 = .ok "2001:db8::1:0:0:1" := by
  have htext : formatIp6 #v[0x20, 0x01, 0x0d, 0xb8, 0, 0, 0, 0, 0, 1, 0, 0, 0, 0, 0, 1] =
      "2001:db8::1:0:0:1" := by decide
  rw [formatIp6_canonical_round_trip.2.2.2 #v[0x20, 0x01, 0x0d, 0xb8, 0, 0, 0, 0, 0, 1, 0, 0, 0, 0,
    0, 1] _ (parseIp6_eq_ok_iff_spells.mp (by decide)), htext]

end Crate.Ip6AllocPure
