import Crate.Foundation.CNumber
import Crate.Firewall.Lease

/-!
# The text form of the leases

`serialize` writes a comment, a line with the remembered sysctl values and one
line for each lease; `parse` accepts nothing else than lines of these shapes,
every number in its range and no slot held twice.  What `parse` accepts is well
formed, and a well-formed state is read back as it was written.
-/

namespace Crate.FwLeasePure

open Crate.Foundation

/-! ## The writer and the reader -/

def tabLine (f0 f1 f2 f3 : Str) : Str := f0 ++ '\t' :: (f1 ++ '\t' :: (f2 ++ '\t' :: f3))

def flagText (b : Bool) : Str := if b then "1" else "0"

def origLine (s : State) : Str :=
  tabLine "orig4" (integerText s.orig4) "orig6" (integerText s.orig6)

def leaseLine (kv : Nat × Entry) : Str :=
  tabLine (decimal kv.1) (integerText kv.2.slot) (flagText kv.2.fwd4) (flagText kv.2.fwd6)

def serialize (s : State) : Str :=
  "# crate fw leases v1\n" ++ (origLine s ++ '\n' ::
    s.leases.entries.flatMap (fun kv => leaseLine kv ++ ['\n']))

/-- The value of an optional minus sign and one or more digits. -/
def signedValue : Str → Option Int
  | '-' :: digits => if allDigits digits then some (-(decimalValue digits : Int)) else none
  | digits => if allDigits digits then some (decimalValue digits : Int) else none

/-- At most twelve characters are read, so the `long long` of the source cannot overflow. -/
def parseInt (f : Str) (lo hi : Int) : Option Int :=
  if f.isEmpty || f.length > 12 then none
  else
    match signedValue f with
    | none => none
    | some v => if v < lo || v > hi then none else some v

def splitTabs (line : Str) : List Str := line.splitOn '\t'

def parseOrig (lineNo : Nat) (f1 f3 : Str) (st : State) : Except Str State :=
  match parseInt f1 (-1) 1, parseInt f3 (-1) 1 with
  | some a, some b => .ok { st with orig4 := a, orig6 := b }
  | _, _ => .error ("line " ++ decimal lineNo ++ ": bad orig values")

def parseLease (lineNo : Nat) (f0 f1 f2 f3 : Str) (st : State) : Except Str State :=
  match parseInt f0 1 65535, parseInt f1 (-1) (kMaxSlots - 1), parseInt f2 0 1,
    parseInt f3 0 1 with
  | some jid, some slot, some f4, some f6 =>
      if (st.leases.find? jid.toNat).isSome then
        .error ("line " ++ decimal lineNo ++ ": duplicate jid " ++ f0)
      else
        let e : Entry := { slot := slot, fwd4 := f4 = 1, fwd6 := f6 = 1 }
        .ok { st with leases := st.leases.insert jid.toNat e }
  | _, _, _, _ => .error ("line " ++ decimal lineNo ++ ": bad field value")

def parseLine (lineNo : Nat) (line : Str) (st : State) : Except Str State :=
  match splitTabs line with
  | [f0, f1, f2, f3] =>
      if f0 = "orig4" && f2 = "orig6" then parseOrig lineNo f1 f3 st
      else parseLease lineNo f0 f1 f2 f3 st
  | _ => .error ("line " ++ decimal lineNo ++ ": expected 4 tab-separated fields")

/--
The loop over the lines.  An empty last piece of the split is skipped like the
line `std::getline` does not deliver.
-/
def parseLines : Nat → List Str → State → Except Str State
  | _, [], st => .ok st
  | lineNo, raw :: rest, st =>
      let line := dropCarriageReturn raw
      if line.isEmpty || line.head? = some '#' then parseLines (lineNo + 1) rest st
      else
        match parseLine lineNo line st with
        | .error err => .error err
        | .ok st' => parseLines (lineNo + 1) rest st'

/-- The first slot, in the order of the leases, that is in `seen` already. -/
def heldTwice : List Int → List (Nat × Entry) → Option Int
  | _, [] => none
  | seen, kv :: rest =>
      if kv.2.slot < 0 then heldTwice seen rest
      else if seen.contains kv.2.slot then some kv.2.slot
      else heldTwice (kv.2.slot :: seen) rest

def parse (text : Str) : Except Str State :=
  match parseLines 1 (text.splitOn '\n') {} with
  | .error err => .error err
  | .ok st =>
      match heldTwice [] st.leases.entries with
      | some slot => .error ("slot " ++ integerText slot ++ " held by two leases")
      | none => .ok st

/-! ## What is accepted is well formed -/

def SlotInRange (slot : Int) : Prop := slot = -1 ∨ (0 ≤ slot ∧ slot < kMaxSlots)

structure InRange (s : State) : Prop where
  jids : ∀ jid e, s.leases.find? jid = some e → 1 ≤ jid ∧ jid ≤ 65535
  slots : ∀ jid e, s.leases.find? jid = some e → SlotInRange e.slot
  orig4 : -1 ≤ s.orig4 ∧ s.orig4 ≤ 1
  orig6 : -1 ≤ s.orig6 ∧ s.orig6 ≤ 1

def DistinctSlots (s : State) : Prop :=
  ∀ j₁ j₂ e₁ e₂, s.leases.find? j₁ = some e₁ → s.leases.find? j₂ = some e₂ →
    0 ≤ e₁.slot → e₁.slot = e₂.slot → j₁ = j₂

structure WellFormed (s : State) : Prop extends InRange s where
  distinct : DistinctSlots s

theorem parseInt_range {f : Str} {lo hi v : Int} (h : parseInt f lo hi = some v) :
    lo ≤ v ∧ v ≤ hi := by
  unfold parseInt at h
  split at h
  · contradiction
  · split at h
    · contradiction
    · split at h
      · contradiction
      · rename_i hrange
        simp only [Bool.or_eq_true, decide_eq_true_eq, not_or] at hrange
        cases h
        omega

theorem InRange.insert {s : State} (h : InRange s) {jid : Nat} {e : Entry}
    (hjid : 1 ≤ jid ∧ jid ≤ 65535) (hslot : SlotInRange e.slot) :
    InRange { s with leases := s.leases.insert jid e } := by
  refine ⟨fun k x hk => ?_, fun k x hk => ?_, h.orig4, h.orig6⟩
  all_goals
    rw [OrdMap.find?_insert] at hk
    split at hk
  · rename_i heq
    exact heq ▸ hjid
  · exact h.jids k x hk
  · cases hk
    exact hslot
  · exact h.slots k x hk

theorem parseOrig_inRange {lineNo : Nat} {f1 f3 : Str} {st st' : State} (h : InRange st)
    (hparse : parseOrig lineNo f1 f3 st = .ok st') : InRange st' := by
  unfold parseOrig at hparse
  split at hparse
  · rename_i a b ha hb
    cases hparse
    exact ⟨h.jids, h.slots, parseInt_range ha, parseInt_range hb⟩
  · contradiction

theorem parseLease_inRange {lineNo : Nat} {f0 f1 f2 f3 : Str} {st st' : State} (h : InRange st)
    (hparse : parseLease lineNo f0 f1 f2 f3 st = .ok st') : InRange st' := by
  unfold parseLease at hparse
  split at hparse
  · rename_i jid slot f4 f6 hjid hslot _ _
    split at hparse
    · contradiction
    · cases hparse
      have hj := parseInt_range hjid
      have hs := parseInt_range hslot
      have hin : SlotInRange slot := by
        unfold SlotInRange
        omega
      exact h.insert ⟨by omega, by omega⟩ hin
  · contradiction

theorem parseLine_inRange {lineNo : Nat} {line : Str} {st st' : State} (h : InRange st)
    (hparse : parseLine lineNo line st = .ok st') : InRange st' := by
  unfold parseLine at hparse
  split at hparse
  · split at hparse
    · exact parseOrig_inRange h hparse
    · exact parseLease_inRange h hparse
  · contradiction

theorem parseLines_inRange {lines : List Str} {lineNo : Nat} {st st' : State} (h : InRange st)
    (hparse : parseLines lineNo lines st = .ok st') : InRange st' := by
  induction lines generalizing lineNo st with
  | nil =>
      cases hparse
      exact h
  | cons raw rest ih =>
      rw [parseLines] at hparse
      split at hparse
      · exact ih h hparse
      · split at hparse
        · contradiction
        · rename_i hline
          exact ih (parseLine_inRange h hline) hparse

/-- The last loop of `parse` passes exactly when no slot is held twice or seen before. -/
theorem heldTwice_eq_none_iff {l : List (Nat × Entry)} {seen : List Int} :
    heldTwice seen l = none ↔
      l.Pairwise (fun a b => 0 ≤ a.2.slot → a.2.slot ≠ b.2.slot) ∧
        ∀ kv ∈ l, 0 ≤ kv.2.slot → kv.2.slot ∉ seen := by
  induction l generalizing seen with
  | nil => simp [heldTwice]
  | cons kv rest ih =>
      rw [heldTwice]
      split
      · rename_i hneg
        have hskip : ¬0 ≤ kv.2.slot := by omega
        rw [ih]
        simp [hskip]
      · rename_i hpos
        have hslot : 0 ≤ kv.2.slot := by omega
        split
        · rename_i hseen
          rw [List.contains_iff_mem] at hseen
          simp [hslot, hseen]
        · rename_i hseen
          rw [List.contains_iff_mem] at hseen
          rw [ih]
          simp only [List.pairwise_cons, List.mem_cons, not_or, forall_eq_or_imp]
          constructor
          · rintro ⟨hpair, hrest⟩
            refine ⟨⟨?_, hpair⟩, fun _ => hseen, fun x hx hx0 => (hrest x hx hx0).2⟩
            intro x hx _ heq
            exact (hrest x hx (by omega)).1 heq.symm
          · rintro ⟨⟨hhead, hpair⟩, -, hrest⟩
            refine ⟨hpair, fun x hx hx0 => ⟨?_, hrest x hx hx0⟩⟩
            intro heq
            exact hhead x hx hslot heq.symm

theorem heldTwice_nil_eq_none_iff {s : State} :
    heldTwice [] s.leases.entries = none ↔ DistinctSlots s := by
  rw [heldTwice_eq_none_iff]
  simp only [List.not_mem_nil, not_false_eq_true, implies_true, and_true, DistinctSlots,
    OrdMap.find?_eq_some_iff]
  constructor
  · intro hpair j₁ j₂ e₁ e₂ h₁ h₂ hslot heq
    by_contra hne
    have hsymm : Std.Symm (fun a b : Nat × Entry => 0 ≤ a.2.slot → a.2.slot ≠ b.2.slot) := by
      refine ⟨fun a b hab hb heq => ?_⟩
      exact hab (by omega) heq.symm
    have hpairs : (j₁, e₁) ≠ (j₂, e₂) := fun h => hne (congrArg Prod.fst h)
    exact hpair.forall h₁ h₂ hpairs hslot heq
  · intro hdistinct
    refine s.leases.sorted.imp_of_mem (fun {a b} ha hb hlt hslot heq => ?_)
    have := hdistinct a.1 b.1 a.2 b.2 ha hb hslot heq
    omega

theorem parse_wellFormed {text : Str} {s : State} (h : parse text = .ok s) : WellFormed s := by
  have hblank : InRange {} := ⟨by simp, by simp, by decide, by decide⟩
  unfold parse at h
  split at h
  · contradiction
  · rename_i st hlines
    split at h
    · contradiction
    · rename_i htwice
      cases h
      exact ⟨parseLines_inRange hblank hlines, heldTwice_nil_eq_none_iff.mp htwice⟩

/-! ## A well-formed state is read back -/

theorem parseInt_integerText {lo hi z : Int} (hlo : lo ≤ z) (hhi : z ≤ hi)
    (hsmall : z.natAbs ≤ 65535) : parseInt (integerText z) lo hi = some z := by
  have hlen : (decimal z.natAbs).length ≤ 5 := by
    rw [decimal, Nat.length_toDigits_le_iff (by decide) (by decide)]
    omega
  have hvalue : signedValue (integerText z) = some z := by
    unfold integerText
    split
    · simp only [signedValue, allDigits_decimal, if_true, decimalValue_decimal]
      congr 1
      omega
    · unfold signedValue
      split
      · rename_i digits hminus
        have : isDecimalDigit '-' = true :=
          isDecimalDigit_of_mem_decimal (n := z.natAbs) (by simp [hminus])
        exact absurd this (by decide)
      · rw [if_pos (allDigits_decimal _), decimalValue_decimal]
        congr 1
        omega
  have htext : ((integerText z).isEmpty || decide ((integerText z).length > 12)) = false := by
    rw [Bool.or_eq_false_iff]
    refine ⟨by simp [integerText_ne_nil], ?_⟩
    unfold integerText
    split <;> simp <;> omega
  have hrange : (decide (z < lo) || decide (z > hi)) = false := by
    simp [hlo, hhi]
  simp only [parseInt, htext, hvalue, hrange, Bool.false_eq_true, if_false]

theorem parseInt_flagText (b : Bool) : parseInt (flagText b) 0 1 = some (if b then 1 else 0) := by
  cases b <;> decide

theorem splitTabs_tabLine {f0 f1 f2 f3 : Str} (h0 : '\t' ∉ f0) (h1 : '\t' ∉ f1) (h2 : '\t' ∉ f2)
    (h3 : '\t' ∉ f3) : splitTabs (tabLine f0 f1 f2 f3) = [f0, f1, f2, f3] := by
  rw [splitTabs, tabLine, List.splitOn_append_cons_self_of_not_mem h0,
    List.splitOn_append_cons_self_of_not_mem h1, List.splitOn_append_cons_self_of_not_mem h2,
    List.splitOn_eq_singleton h3]

theorem not_mem_tabLine {c : Char} {f0 f1 f2 f3 : Str} (hc : c ≠ '\t') (h0 : c ∉ f0)
    (h1 : c ∉ f1) (h2 : c ∉ f2) (h3 : c ∉ f3) : c ∉ tabLine f0 f1 f2 f3 := by
  simp [tabLine, hc, h0, h1, h2, h3]

theorem not_mem_origLine {c : Char} (hc : c = '\n' ∨ c = '\r') (s : State) :
    c ∉ origLine s := by
  have hnum : ∀ z, c ∉ integerText z := by
    rcases hc with rfl | rfl <;> exact not_mem_integerText (by decide) (by decide)
  rcases hc with rfl | rfl <;>
    exact not_mem_tabLine (by decide) (by decide) (hnum _) (by decide) (hnum _)

theorem not_mem_leaseLine {c : Char} (hc : c = '\n' ∨ c = '\r') (kv : Nat × Entry) :
    c ∉ leaseLine kv := by
  have hdigit : isDecimalDigit c = false := by rcases hc with rfl | rfl <;> decide
  have hminus : c ≠ '-' := by rcases hc with rfl | rfl <;> decide
  have htab : c ≠ '\t' := by rcases hc with rfl | rfl <;> decide
  have hflag : ∀ b, c ∉ flagText b := by
    intro b
    rcases hc with rfl | rfl <;> cases b <;> decide
  exact not_mem_tabLine htab (not_mem_decimal hdigit _) (not_mem_integerText hdigit hminus _)
    (hflag _) (hflag _)

theorem parseLine_origLine {s : State} (h : InRange s) (lineNo : Nat) (st : State) :
    parseLine lineNo (origLine s) st = .ok { st with orig4 := s.orig4, orig6 := s.orig6 } := by
  have hnum : ∀ z, '\t' ∉ integerText z := not_mem_integerText (by decide) (by decide)
  have hsplit : splitTabs (origLine s) =
      [("orig4" : Str), integerText s.orig4, ("orig6" : Str), integerText s.orig6] :=
    splitTabs_tabLine (by decide) (hnum _) (by decide) (hnum _)
  have h4 := h.orig4
  have h6 := h.orig6
  simp only [parseLine, hsplit, decide_true, Bool.and_self, if_true, parseOrig,
    parseInt_integerText h4.1 h4.2 (by omega), parseInt_integerText h6.1 h6.2 (by omega)]

theorem parseLine_leaseLine {jid : Nat} {e : Entry} (hjid : 1 ≤ jid ∧ jid ≤ 65535)
    (hslot : SlotInRange e.slot) (lineNo : Nat) {st : State}
    (hfresh : st.leases.find? jid = none) :
    parseLine lineNo (leaseLine (jid, e)) st =
      .ok { st with leases := st.leases.insert jid e } := by
  have hnum : ∀ z, '\t' ∉ integerText z := not_mem_integerText (by decide) (by decide)
  have hflag : ∀ b, '\t' ∉ flagText b := by decide
  have hsplit : splitTabs (leaseLine (jid, e)) =
      [decimal jid, integerText e.slot, flagText e.fwd4, flagText e.fwd6] :=
    splitTabs_tabLine (not_mem_decimal (by decide) _) (hnum _) (hflag _) (hflag _)
  have hword : decimal jid ≠ "orig4" := by
    intro heq
    have hall := all_digits_decimal jid
    rw [heq] at hall
    exact absurd hall (by decide)
  have hread : parseInt (decimal jid) 1 65535 = some (jid : Int) := by
    rw [← integerText_natCast]
    exact parseInt_integerText (by omega) (by omega) (by omega)
  have hrange : -1 ≤ e.slot ∧ e.slot ≤ kMaxSlots - 1 ∧ e.slot.natAbs ≤ 65535 := by
    unfold SlotInRange kMaxSlots at hslot
    unfold kMaxSlots
    omega
  have hone : ∀ b : Bool, decide ((if b then 1 else 0 : Int) = 1) = b := by decide
  simp only [parseLine, hsplit, hword, decide_false, Bool.false_and, Bool.false_eq_true, if_false,
    parseLease, hread, parseInt_integerText hrange.1 hrange.2.1 hrange.2.2, parseInt_flagText,
    Int.toNat_natCast, hfresh, Option.isSome_none, hone]

theorem leaseLine_not_skipped (kv : Nat × Entry) :
    ((leaseLine kv).isEmpty || decide ((leaseLine kv).head? = some '#')) = false := by
  cases hd : decimal kv.1 with
  | nil => exact absurd hd (decimal_ne_nil kv.1)
  | cons c rest =>
      have hc : isDecimalDigit c = true := isDecimalDigit_of_mem_decimal (n := kv.1) (by simp [hd])
      simp only [leaseLine, tabLine, hd, List.cons_append, List.isEmpty_cons, List.head?_cons,
        Option.some.injEq, Bool.false_or, decide_eq_false_iff_not]
      rintro rfl
      exact absurd hc (by decide)

theorem parseLines_leaseLines (l : List (Nat × Entry)) (lineNo : Nat) (st : State)
    (hrange : ∀ kv ∈ l, (1 ≤ kv.1 ∧ kv.1 ≤ 65535) ∧ SlotInRange kv.2.slot)
    (hsorted : l.Pairwise (fun a b => a.1 < b.1))
    (hfresh : ∀ kv ∈ l, st.leases.find? kv.1 = none) :
    parseLines lineNo (l.map leaseLine ++ [[]]) st =
      .ok { st with leases := l.foldl (fun m kv => m.insert kv.1 kv.2) st.leases } := by
  induction l generalizing lineNo st with
  | nil => rfl
  | cons kv rest ih =>
      obtain ⟨hjid, hslot⟩ := hrange kv (by simp)
      obtain ⟨hhead, htail⟩ := List.pairwise_cons.mp hsorted
      have hline := parseLine_leaseLine hjid hslot lineNo (hfresh kv (by simp))
      have hkeep := dropCarriageReturn_eq_self (not_mem_leaseLine (.inr rfl) kv)
      rw [List.map_cons, List.cons_append, parseLines]
      simp only [hkeep, leaseLine_not_skipped, Bool.false_eq_true, if_false, hline,
        List.foldl_cons]
      apply ih _ _ (fun x hx => hrange x (List.mem_cons_of_mem _ hx)) htail
      intro x hx
      have hlt := hhead x hx
      rw [OrdMap.find?_insert, if_neg (by omega)]
      exact hfresh x (List.mem_cons_of_mem _ hx)

theorem serialize_lines (s : State) :
    (serialize s).splitOn '\n' =
      ("# crate fw leases v1" : Str) :: origLine s :: (s.leases.entries.map leaseLine ++ [[]]) := by
  have hhead : serialize s = ("# crate fw leases v1" : Str) ++ '\n' :: (origLine s ++ '\n' ::
      s.leases.entries.flatMap (fun kv => leaseLine kv ++ ['\n'])) := rfl
  rw [hhead, List.splitOn_append_cons_self_of_not_mem (by decide),
    List.splitOn_append_cons_self_of_not_mem (not_mem_origLine (.inl rfl) s),
    splitOn_flatMap_snoc leaseLine _ (fun kv _ => not_mem_leaseLine (.inl rfl) kv)]

theorem parse_serialize {s : State} (h : WellFormed s) : parse (serialize s) = .ok s := by
  have hrange : ∀ kv ∈ s.leases.entries,
      (1 ≤ kv.1 ∧ kv.1 ≤ 65535) ∧ SlotInRange kv.2.slot := by
    intro kv hkv
    have hfind := OrdMap.find?_eq_some_iff.mpr hkv
    exact ⟨h.jids _ _ hfind, h.slots _ _ hfind⟩
  have horig : dropCarriageReturn (origLine s) = origLine s :=
    dropCarriageReturn_eq_self (not_mem_origLine (.inr rfl) s)
  have hread : parseLines 1 ((serialize s).splitOn '\n') {} = .ok s := by
    rw [serialize_lines]
    -- the comment is skipped, the second line sets the remembered values
    change parseLines 2 (origLine s :: _) {} = _
    rw [parseLines, horig]
    have hkeep : ((origLine s).isEmpty || decide ((origLine s).head? = some '#')) = false := rfl
    simp only [hkeep, Bool.false_eq_true, if_false, parseLine_origLine h.toInRange]
    rw [parseLines_leaseLines _ _ _ hrange s.leases.sorted (by simp)]
    simp only [OrdMap.foldl_insert_entries]
  simp only [parse, hread, heldTwice_nil_eq_none_iff.mpr h.distinct]

end Crate.FwLeasePure
