import Crate.Firewall.Lease

/-!
# Rule numbers and the orphan sweep

The ipfw rule numbers a running jail can hold come from three schemes: NAT-mode
rules numbered by slot, auto-fw rules and throttle rules numbered by jid.
`crate clean` reads the rule list, takes every number of a range to belong to
the jid it would have in that range's scheme, and reports those whose jid is
not running.
-/

namespace Crate.AutoFwPure

open Crate.Foundation

/-! ## The sweep -/

/-- The digits of the rule number; `none` stands for the -1 of the source. -/
def readRuleNumber : Str → Nat → Option Nat
  | [], n => some n
  | c :: rest, n =>
      if isDecimalDigit c then
        let n := n * 10 + (c.toNat - '0'.toNat)
        if n > 99999 then none else readRuleNumber rest n
      else some n

def parseLeadingNumber (line : Str) : Option Nat :=
  match line.dropWhile (fun c => c = ' ' || c = '\t') with
  | [] => none
  | c :: rest => if isDecimalDigit c then readRuleNumber (c :: rest) 0 else none

/-- A line of the list whose number is in the range and stands for a jid that is not running. -/
def orphanOf (base rangeEnd : Nat) (runningJids : List Nat) (line : Str) : Option Nat :=
  match parseLeadingNumber (dropCarriageReturn line) with
  | none => none
  | some n =>
      if n < base || n ≥ rangeEnd then none
      else if runningJids.contains ((n - base) / 2) then none
      else some n

def pickOrphansInRange (base rangeEnd : Nat) (ipfwListOutput : Str) (runningJids : List Nat) :
    List Nat :=
  (ipfwListOutput.splitOn '\n').filterMap (orphanOf base rangeEnd runningJids)

def kIpfwRuleBase : Nat := 40000

def kIpfwRuleRangeEnd : Nat := 60000

def pickOrphanIpfwRulesByJid (ipfwListOutput : Str) (runningJids : List Nat) : List Nat :=
  pickOrphansInRange kIpfwRuleBase kIpfwRuleRangeEnd ipfwListOutput runningJids

def pickOrphanIpfwThrottleRulesByJid (ipfwListOutput : Str) (runningJids : List Nat) : List Nat :=
  pickOrphansInRange 20000 30000 ipfwListOutput runningJids

/-! ## The rules of a running jail -/

def fwSlotSize : Nat := 10

def fwRuleRangeInBase : Nat := 10000

def fwRuleRangeOutBase : Nat := 50000

/-- The rules `crate` installs for a jail; a flag picks the second rule of a pair. -/
inductive Rule where
  | natIn (v6 : Bool)
  | natOut (v6 : Bool)
  | sharedOut
  | autoFw (loopback : Bool)
  | throttle (egress : Bool)
  deriving DecidableEq, Repr

/-- A running jail; only NAT mode has a slot. -/
structure Jail where
  jid : Nat
  slot : Option Nat
  rules : List Rule
  jid_pos : 1 ≤ jid
  jid_max : jid ≤ 9999
  slot_max : ∀ s ∈ slot, s < FwLeasePure.kMaxSlots

def ruleNumber (j : Jail) : Rule → Option Nat
  | .natIn v6 => j.slot.map (fun s => fwRuleRangeInBase + s * fwSlotSize + (if v6 then 2 else 1))
  | .natOut v6 => j.slot.map (fun s => fwRuleRangeOutBase + s * fwSlotSize + (if v6 then 2 else 1))
  | .sharedOut => some fwRuleRangeOutBase
  | .autoFw loopback => some (kIpfwRuleBase + 2 * j.jid + (if loopback then 1 else 0))
  | .throttle egress => some (20000 + 2 * j.jid + (if egress then 1 else 0))

structure Host where
  jails : List Jail
  jids_distinct : jails.Pairwise (fun a b => a.jid ≠ b.jid)
  slots_distinct : jails.Pairwise (fun a b => ∀ s, a.slot = some s → b.slot ≠ some s)

def Host.runningJids (h : Host) : List Nat := h.jails.map Jail.jid

def Host.Has (h : Host) (n : Nat) : Prop :=
  ∃ j ∈ h.jails, ∃ r ∈ j.rules, ruleNumber j r = some n

/-- The output of `ipfw -q list` when the rules of the host are the only ones. -/
def ListsExactly (text : Str) (h : Host) : Prop :=
  ∃ lines : List (Nat × Str),
    text = lines.flatMap (fun l => (decimal l.1 ++ ' ' :: l.2) ++ ['\n']) ∧
      (∀ l ∈ lines, '\n' ∉ l.2 ∧ h.Has l.1) ∧ ∀ n, h.Has n → ∃ l ∈ lines, l.1 = n

/-- Neither sweep reports a rule of a running jail. -/
def SparesLive (h : Host) (text : Str) : Prop :=
  ∀ n, h.Has n → n ∉ pickOrphanIpfwRulesByJid text h.runningJids ∧
    n ∉ pickOrphanIpfwThrottleRulesByJid text h.runningJids

def Host.single (j : Jail) : Host := ⟨[j], List.pairwise_singleton _ _, List.pairwise_singleton _ _⟩

theorem has_single {j : Jail} {n : Nat} :
    (Host.single j).Has n ↔ n ∈ j.rules.filterMap (ruleNumber j) := by
  simp [Host.single, Host.Has]

theorem listsExactly_single (j : Jail) {body : Str} (hbody : '\n' ∉ body) :
    ListsExactly ((j.rules.filterMap (ruleNumber j)).flatMap
      (fun n => (decimal n ++ ' ' :: body) ++ ['\n'])) (.single j) := by
  refine ⟨(j.rules.filterMap (ruleNumber j)).map (fun n => (n, body)), ?_, ?_, ?_⟩
  · rw [List.flatMap_map]
  · intro l hl
    obtain ⟨n, hn, rfl⟩ := List.mem_map.mp hl
    exact ⟨hbody, has_single.mpr hn⟩
  · intro n hn
    exact ⟨(n, body), List.mem_map_of_mem (has_single.mp hn), rfl⟩

/-! ## Reading the list -/

theorem readRuleNumber_append {s : Str} (hs : ∀ c ∈ s, isDecimalDigit c = true) (n : Nat)
    (hmax : Nat.ofDigitChars 10 s n ≤ 99999) (body : Str) :
    readRuleNumber (s ++ ' ' :: body) n = some (Nat.ofDigitChars 10 s n) := by
  induction s generalizing n with
  | nil =>
      have hspace : isDecimalDigit ' ' = false := by decide
      simp only [List.nil_append, readRuleNumber, hspace, Bool.false_eq_true, if_false]
      rfl
  | cons c rest ih =>
      have hc := hs c (by simp)
      rw [Nat.ofDigitChars_cons] at hmax ⊢
      have hgrow := le_ofDigitChars rest (10 * n + (c.toNat - '0'.toNat))
      have hcomm : n * 10 + (c.toNat - '0'.toNat) = 10 * n + (c.toNat - '0'.toNat) := by omega
      have hsmall : ¬10 * n + (c.toNat - '0'.toNat) > 99999 := by omega
      simp only [List.cons_append, readRuleNumber, hc, if_true, hcomm, hsmall, if_false]
      exact ih (fun d hd => hs d (List.mem_cons_of_mem _ hd)) _ hmax

theorem parseLeadingNumber_line {n : Nat} (hn : n ≤ 99999) (body : Str) :
    parseLeadingNumber (decimal n ++ ' ' :: body) = some n := by
  cases hd : decimal n with
  | nil => exact absurd hd (decimal_ne_nil n)
  | cons c rest =>
      have hdigits : ∀ x ∈ c :: rest, isDecimalDigit x = true := by
        intro x hx
        exact isDecimalDigit_of_mem_decimal (hd ▸ hx)
      have hc := hdigits c (by simp)
      have hblank : (decide (c = ' ') || decide (c = '\t')) = false := by
        rw [Bool.or_eq_false_iff]
        constructor <;> rw [decide_eq_false_iff_not] <;> rintro rfl <;> revert hc <;> decide
      have hvalue : Nat.ofDigitChars 10 (c :: rest) 0 = n := hd ▸ decimalValue_decimal n
      have hread := readRuleNumber_append hdigits 0 (by rw [hvalue]; exact hn) body
      rw [hvalue] at hread
      simp only [parseLeadingNumber, List.cons_append, List.dropWhile_cons, hblank,
        Bool.false_eq_true, if_false, hc, if_true]
      exact hread

/-- The sweep of a range takes the number for an orphan's. -/
def Swept (base rangeEnd : Nat) (h : Host) (n : Nat) : Prop :=
  base ≤ n ∧ n < rangeEnd ∧ (n - base) / 2 ∉ h.runningJids

theorem orphanOf_line {base rangeEnd n : Nat} (hn : n ≤ 99999) (h : Host) (body : Str) (m : Nat) :
    orphanOf base rangeEnd h.runningJids (decimal n ++ ' ' :: body) = some m ↔
      m = n ∧ Swept base rangeEnd h n := by
  obtain ⟨body', hdrop⟩ := dropCarriageReturn_append_cons (a := decimal n)
    (show ' ' ≠ '\r' by decide) body
  simp only [orphanOf, hdrop, parseLeadingNumber_line hn, Swept]
  split_ifs with hrange hrunning
  · simp only [Bool.or_eq_true, decide_eq_true_eq] at hrange
    simp only [false_iff]
    omega
  · rw [List.contains_iff_mem] at hrunning
    simp [hrunning]
  · simp only [Bool.or_eq_true, decide_eq_true_eq, not_or] at hrange
    rw [List.contains_iff_mem] at hrunning
    simp only [Option.some.injEq, hrunning, not_false_eq_true, and_true]
    omega

theorem has_max {h : Host} {n : Nat} (hn : h.Has n) : n ≤ 99999 := by
  obtain ⟨j, -, r, -, hnum⟩ := hn
  have hjid := j.jid_max
  have hslot := j.slot_max
  cases r with
  | natIn v6 | natOut v6 =>
      obtain ⟨s, hs, rfl⟩ := Option.map_eq_some_iff.mp hnum
      have hmax := hslot s hs
      simp only [FwLeasePure.kMaxSlots, fwRuleRangeInBase, fwRuleRangeOutBase, fwSlotSize] at *
      split <;> omega
  | sharedOut =>
      cases hnum
      decide
  | autoFw loopback =>
      cases hnum
      simp only [kIpfwRuleBase]
      split <;> omega
  | throttle egress =>
      cases hnum
      split <;> omega

theorem mem_pickOrphansInRange {base rangeEnd : Nat} {text : Str} {h : Host}
    (hlist : ListsExactly text h) (n : Nat) :
    n ∈ pickOrphansInRange base rangeEnd text h.runningJids ↔
      h.Has n ∧ Swept base rangeEnd h n := by
  obtain ⟨lines, rfl, hlines, hall⟩ := hlist
  have hnewline : ∀ l ∈ lines, '\n' ∉ decimal l.1 ++ ' ' :: l.2 := by
    intro l hl
    simp [not_mem_decimal (by decide : isDecimalDigit '\n' = false), (hlines l hl).1]
  rw [pickOrphansInRange, splitOn_flatMap_snoc _ _ hnewline, List.filterMap_append,
    List.mem_append, List.mem_filterMap]
  have hlast : n ∉ [([] : Str)].filterMap (orphanOf base rangeEnd h.runningJids) := by
    simp [orphanOf, dropCarriageReturn, parseLeadingNumber]
  constructor
  · rintro (⟨line, hline, horphan⟩ | hmem)
    · obtain ⟨l, hl, rfl⟩ := List.mem_map.mp hline
      have hhas := (hlines l hl).2
      obtain ⟨rfl, hswept⟩ := (orphanOf_line (has_max hhas) h l.2 n).mp horphan
      exact ⟨hhas, hswept⟩
    · exact absurd hmem hlast
  · rintro ⟨hhas, hswept⟩
    obtain ⟨l, hl, rfl⟩ := hall n hhas
    exact .inl ⟨_, List.mem_map_of_mem hl, (orphanOf_line (has_max hhas) h l.2 _).mpr ⟨rfl, hswept⟩⟩

/-! ## When live rules are spared -/

/--
The jid a sweep takes the rule to belong to is running.  The NAT-mode OUT rules
of the first thousand slots and the shared rule lie in the auto-fw range, the
IN rules of the other slots in the throttle range; all else is its own jail's.
-/
def TakenForRunning (h : Host) (j : Jail) : Rule → Prop
  | .natIn v6 => ∀ s, j.slot = some s → 1000 ≤ s →
      5 * (s - 1000) + (if v6 then 1 else 0) ∈ h.runningJids
  | .natOut v6 => ∀ s, j.slot = some s → s < 1000 →
      5000 + 5 * s + (if v6 then 1 else 0) ∈ h.runningJids
  | .sharedOut => 5000 ∈ h.runningJids
  | _ => True

def Spared (h : Host) (n : Nat) : Prop :=
  ¬Swept kIpfwRuleBase kIpfwRuleRangeEnd h n ∧ ¬Swept 20000 30000 h n

theorem spared_iff_of_autoFw {h : Host} {n k : Nat} (hlow : 40000 ≤ n) (hhigh : n < 60000)
    (hjid : (n - 40000) / 2 = k) : Spared h n ↔ k ∈ h.runningJids := by
  subst hjid
  simp only [Spared, Swept, kIpfwRuleBase, kIpfwRuleRangeEnd, hlow, hhigh, true_and, not_not]
  exact and_iff_left (fun hswept => by omega)

theorem spared_iff_of_throttle {h : Host} {n k : Nat} (hlow : 20000 ≤ n) (hhigh : n < 30000)
    (hjid : (n - 20000) / 2 = k) : Spared h n ↔ k ∈ h.runningJids := by
  subst hjid
  simp only [Spared, Swept, kIpfwRuleBase, kIpfwRuleRangeEnd, hlow, hhigh, true_and, not_not]
  exact and_iff_right (fun hswept => by omega)

theorem spared_of_outside {h : Host} {n : Nat} (hauto : n < 40000 ∨ 60000 ≤ n)
    (hthrottle : n < 20000 ∨ 30000 ≤ n) : Spared h n := by
  simp only [Spared, Swept, kIpfwRuleBase, kIpfwRuleRangeEnd]
  omega

theorem spared_iff {h : Host} {j : Jail} (hj : j ∈ h.jails) {r : Rule} {n : Nat}
    (hnum : ruleNumber j r = some n) : Spared h n ↔ TakenForRunning h j r := by
  have hjid := j.jid_max
  have hrunning : j.jid ∈ h.runningJids := List.mem_map_of_mem hj
  cases r with
  | natIn v6 =>
      obtain ⟨s, hs, rfl⟩ := Option.map_eq_some_iff.mp hnum
      have hmax := j.slot_max s hs
      simp only [FwLeasePure.kMaxSlots, fwRuleRangeInBase, fwSlotSize, TakenForRunning, hs,
        Option.some.injEq, forall_eq'] at *
      by_cases hlow : 1000 ≤ s
      · simp only [hlow, forall_const]
        apply spared_iff_of_throttle <;> split <;> omega
      · simp only [hlow, false_implies, iff_true]
        apply spared_of_outside <;> split <;> omega
  | natOut v6 =>
      obtain ⟨s, hs, rfl⟩ := Option.map_eq_some_iff.mp hnum
      simp only [fwRuleRangeOutBase, fwSlotSize, TakenForRunning, hs,
        Option.some.injEq, forall_eq'] at *
      by_cases hlow : s < 1000
      · simp only [hlow, forall_const]
        apply spared_iff_of_autoFw <;> split <;> omega
      · simp only [hlow, false_implies, iff_true]
        apply spared_of_outside <;> split <;> omega
  | sharedOut =>
      cases hnum
      exact spared_iff_of_autoFw (by decide) (by decide) rfl
  | autoFw loopback =>
      cases hnum
      simp only [TakenForRunning, iff_true]
      rw [spared_iff_of_autoFw (k := j.jid)]
      · exact hrunning
      all_goals simp only [kIpfwRuleBase]; split <;> omega
  | throttle egress =>
      cases hnum
      simp only [TakenForRunning, iff_true]
      by_cases hlow : j.jid < 5000
      · rw [spared_iff_of_throttle (k := j.jid)]
        · exact hrunning
        all_goals split <;> omega
      · apply spared_of_outside <;> split <;> omega

/-- The sweeps spare the rules of the running jails exactly when each is taken for a running jid's. -/
theorem clean_spares_live_iff (h : Host) (text : Str) (hlist : ListsExactly text h) :
    SparesLive h text ↔ ∀ j ∈ h.jails, ∀ r ∈ j.rules, TakenForRunning h j r := by
  have hspared : SparesLive h text ↔ ∀ n, h.Has n → Spared h n := by
    simp only [SparesLive, pickOrphanIpfwRulesByJid, pickOrphanIpfwThrottleRulesByJid,
      mem_pickOrphansInRange hlist, Spared]
    constructor
    · intro hall n hn
      obtain ⟨hauto, hthrottle⟩ := hall n hn
      exact ⟨fun hswept => hauto ⟨hn, hswept⟩, fun hswept => hthrottle ⟨hn, hswept⟩⟩
    · intro hall n hn
      obtain ⟨hauto, hthrottle⟩ := hall n hn
      exact ⟨fun hswept => hauto hswept.2, fun hswept => hthrottle hswept.2⟩
  rw [hspared]
  constructor
  · intro hall j hj r hr
    cases hnum : ruleNumber j r with
    | none => cases r <;> simp_all [ruleNumber, TakenForRunning]
    | some n => exact (spared_iff hj hnum).mp (hall n ⟨j, hj, r, hr, hnum⟩)
  · rintro hall n ⟨j, hj, r, hr, hnum⟩
    exact (spared_iff hj hnum).mpr (hall j hj r hr)

def inboundJail : Jail :=
  ⟨7, some 0, [.natIn false, .autoFw false], by decide, by decide, by decide⟩

theorem clean_spares_inbound_jail :
    ListsExactly "10001 allow ip from any\n40014 allow ip from any\n" (.single inboundJail) ∧
      SparesLive (.single inboundJail) "10001 allow ip from any\n40014 allow ip from any\n" := by
  have htext : (inboundJail.rules.filterMap (ruleNumber inboundJail)).flatMap
      (fun n => (decimal n ++ ' ' :: ("allow ip from any" : Str)) ++ ['\n']) =
        "10001 allow ip from any\n40014 allow ip from any\n" := by
    decide
  have hlist := listsExactly_single inboundJail
    (show '\n' ∉ ("allow ip from any" : Str) by decide)
  rw [htext] at hlist
  refine ⟨hlist, (clean_spares_live_iff _ _ hlist).mpr ?_⟩
  simp [Host.single, TakenForRunning, inboundJail]

/-- Jail 1 in slot 0: its OUT rule 50001 is taken for one of jid 5000 and deleted. -/
theorem clean_deletes_live_out_rule :
    ¬ ∀ (h : Host) (text : Str), ListsExactly text h → SparesLive h text := by
  intro hall
  have hspares := hall _ _ (listsExactly_single
    ⟨1, some 0, [.natOut false], by decide, by decide, by decide⟩
    (show '\n' ∉ ("deny ip from any to any" : Str) by decide))
  exact (hspares 50001 (has_single.mpr (by decide))).1 (by decide)

end Crate.AutoFwPure
