import Crate.Foundation.Calendar
import Crate.Foundation.OrdMap
import Crate.Foundation.Stream
import Crate.Foundation.Substring
import Crate.Firewall.Ipfw

/-!
# Network policies of a stack

`StackPure` reads the rule numbers out of `ipfw list`, picks a block of a hundred
numbers that has none of them, and finds the rules of a bridge again.
`applyNetworkPolicies` adds the rules of a policy from the base of the block on.
-/

namespace Crate.StackPure

open Crate.Foundation

/-! ## The listing -/

/-- The number a line of the listing begins with, if it is a rule. -/
def ruleNumberOf (line : Str) : Option Nat :=
  let text := line.dropWhile (· = ' ')
  let digits := (text.takeWhile isDecimalDigit).take 6
  let v := decimalValue digits
  if digits.isEmpty || v = 0 || v > 65535 then none
  else
    match (text.drop digits.length).head? with
    | some c => if c ≠ ' ' ∧ c ≠ '\t' then none else some v
    | none => some v

-- A line that `std::getline` does not deliver behind the last line break is not a rule.
def ipfwRuleNumbers (ipfwListOutput : Str) : List Nat :=
  (ipfwListOutput.splitOn '\n').filterMap ruleNumberOf

/-- `via <bridge>` as a whole token, at its first occurrence. -/
def hasVia (bridge line : Str) : Bool :=
  match splitFirst (" via " ++ bridge) line with
  | none => false
  | some (_, behind) =>
      match behind.head? with
      | some c => c = ' ' || c = '\t' || c = '\r'
      | none => true

/-- The number of a line, if it is a rule of the bridge in the range. -/
def bridgeRuleOf (bridge : Str) (lo hi : Nat) (line : Str) : Option Nat :=
  match ruleNumberOf line with
  | none => none
  | some n => if n < lo || n > hi then none else if hasVia bridge line then some n else none

def policyRulesForBridge (ipfwListOutput bridge : Str) (lo hi : Nat) : List Nat :=
  if bridge.isEmpty then []
  else
    ((ipfwListOutput.splitOn '\n').filterMap (bridgeRuleOf bridge lo hi)).foldl
      (fun out n => if out.contains n then out else out ++ [n]) []

theorem mem_foldl_distinct {l out : List Nat} {n : Nat} :
    n ∈ l.foldl (fun out n => if out.contains n then out else out ++ [n]) out ↔
      n ∈ out ∨ n ∈ l := by
  induction l generalizing out with
  | nil => simp
  | cons first rest ih =>
      rw [List.foldl_cons, ih, List.mem_cons, ← or_assoc]
      apply or_congr_left
      split
      · rename_i hin
        have hfirst := List.contains_iff_mem.mp hin
        constructor
        · exact .inl
        · rintro (hout | rfl)
          · exact hout
          · exact hfirst
      · simp

theorem mem_policyRulesForBridge {listing bridge : Str} {lo hi n : Nat} (hbridge : bridge ≠ []) :
    n ∈ policyRulesForBridge listing bridge lo hi ↔
      lo ≤ n ∧ n ≤ hi ∧ ∃ line ∈ listing.splitOn '\n', ruleNumberOf line = some n ∧
        hasVia bridge line = true := by
  rw [policyRulesForBridge, if_neg (by simpa using hbridge), mem_foldl_distinct, List.mem_filterMap]
  have hline : ∀ line, bridgeRuleOf bridge lo hi line = some n ↔
      lo ≤ n ∧ n ≤ hi ∧ ruleNumberOf line = some n ∧ hasVia bridge line = true := by
    intro line
    unfold bridgeRuleOf
    cases hnumber : ruleNumberOf line with
    | none => simp
    | some m =>
        dsimp only
        split
        · rename_i hout
          simp only [Bool.or_eq_true, decide_eq_true_eq] at hout
          constructor
          · intro h
            contradiction
          · rintro ⟨hlo, hhi, heq, -⟩
            cases heq
            omega
        · rename_i hin
          simp only [Bool.or_eq_true, decide_eq_true_eq, not_or, not_lt] at hin
          split
          · rename_i hvia
            constructor
            · rintro h
              cases h
              exact ⟨hin.1, hin.2, rfl, hvia⟩
            · rintro ⟨-, -, heq, -⟩
              exact heq
          · rename_i hvia
            constructor
            · intro h
              contradiction
            · rintro ⟨-, -, -, h⟩
              exact absurd h hvia
  constructor
  · rintro (h | ⟨line, hmem, h⟩)
    · exact absurd h List.not_mem_nil
    · obtain ⟨hlo, hhi, hnumber, hvia⟩ := (hline line).mp h
      exact ⟨hlo, hhi, line, hmem, hnumber, hvia⟩
  · rintro ⟨hlo, hhi, line, hmem, hnumber, hvia⟩
    exact .inr ⟨line, hmem, (hline line).mpr ⟨hlo, hhi, hnumber, hvia⟩⟩

theorem ruleNumberOf_padded {n : Nat} (hpos : 0 < n) (hmax : n ≤ 65535) (rest : Str) :
    ruleNumberOf (padded 5 n ++ ' ' :: rest) = some n := by
  have hlength : (padded 5 n).length = 5 := length_padded (by decide) (by omega)
  have hdigits := all_digits_padded 5 n
  have hblank : ∀ c ∈ (' ' :: rest).head?, isDecimalDigit c = false := by
    intro c hc
    obtain rfl : ' ' = c := by simpa using hc
    decide
  have hdrop : (padded 5 n ++ ' ' :: rest).dropWhile (· = ' ') = padded 5 n ++ ' ' :: rest := by
    obtain ⟨c, tail, hcons⟩ := List.exists_cons_of_length_pos (by omega : 0 < (padded 5 n).length)
    rw [hcons, List.all_cons, Bool.and_eq_true] at hdigits
    have hc : c ≠ ' ' := by
      rintro rfl
      have h := hdigits.1
      revert h
      decide
    rw [hcons, List.cons_append, List.dropWhile_cons, if_neg (by simpa using hc)]
  have htake : ((padded 5 n ++ ' ' :: rest).takeWhile isDecimalDigit).take 6 = padded 5 n := by
    rw [takeWhile_digits_append hdigits hblank, List.take_of_length_le (by omega)]
  have hgood : ¬((padded 5 n).isEmpty || n = 0 || n > 65535) = true := by
    have hne : padded 5 n ≠ [] := List.ne_nil_of_length_pos (by omega)
    simp only [Bool.or_eq_true, decide_eq_true_eq, List.isEmpty_iff, not_or]
    exact ⟨⟨hne, by omega⟩, by omega⟩
  simp only [ruleNumberOf, hdrop, htake, decimalValue_padded, if_neg hgood, List.drop_left,
    List.head?_cons]
  rfl

/-! ## The block -/

/-- No number from the base on, or the first one lies behind the block. -/
def blockIsFree (used : List Nat) (slot width : Nat) : Bool :=
  match (used.filter (slot ≤ ·)).min? with
  | none => true
  | some n => n > slot + width - 1

def freePolicySlotIn (used : List Nat) (base last width : Nat) : Nat :=
  if width = 0 || base > last then 0
  else
    let slots := (List.range ((last + 1 - base) / width)).map (fun i => base + i * width)
    (slots.find? (fun slot => blockIsFree used slot width)).getD 0

/-- With the range and the width of the default arguments. -/
def freePolicySlot (used : List Nat) : Nat := freePolicySlotIn used 30000 39999 100

example : freePolicySlot [30000, 30199, 30205] = 30300 := by decide

/-- The first number of a block. -/
def IsBlock (slot : Nat) : Prop := 30000 ≤ slot ∧ slot + 99 ≤ 39999 ∧ slot % 100 = 0

def BlockFree (used : List Nat) (slot : Nat) : Prop := ∀ n ∈ used, n < slot ∨ slot + 99 < n

theorem blockIsFree_iff {used : List Nat} {slot : Nat} :
    blockIsFree used slot 100 = true ↔ BlockFree used slot := by
  unfold blockIsFree BlockFree
  split
  · rename_i hnone
    rw [List.min?_eq_none_iff, List.filter_eq_nil_iff] at hnone
    refine iff_of_true rfl (fun n hn => .inl ?_)
    have h := hnone n hn
    simpa using h
  · rename_i n hmin
    obtain ⟨hmem, hleast⟩ := List.min?_eq_some_iff.mp hmin
    simp only [List.mem_filter, decide_eq_true_eq] at hmem hleast
    rw [decide_eq_true_eq]
    constructor
    · intro hn m hm
      by_cases hslot : slot ≤ m
      · have := hleast m ⟨hm, hslot⟩
        omega
      · omega
    · intro hall
      have := hall n hmem.1
      omega

/-- The lowest block without a used number, and 0 when there is none. -/
structure IsFreeSlot (used : List Nat) (slot : Nat) : Prop where
  found : slot ≠ 0 → IsBlock slot ∧ BlockFree used slot ∧
    ∀ block, IsBlock block → block < slot → ¬BlockFree used block
  none : slot = 0 ↔ ∀ block, IsBlock block → ¬BlockFree used block

theorem isBlock_iff {slot : Nat} : IsBlock slot ↔ ∃ i < 100, slot = 30000 + i * 100 := by
  constructor
  · rintro ⟨hlo, hhi, hmod⟩
    exact ⟨(slot - 30000) / 100, by omega, by omega⟩
  · rintro ⟨i, hi, rfl⟩
    exact ⟨by omega, by omega, by omega⟩

theorem freePolicySlot_spec (used : List Nat) : IsFreeSlot used (freePolicySlot used) := by
  have hslot : freePolicySlot used = (((List.range 100).find?
      (fun i => blockIsFree used (30000 + i * 100) 100)).map (fun i => 30000 + i * 100)).getD 0 := by
    rw [freePolicySlot, freePolicySlotIn, if_neg (by decide)]
    dsimp only
    rw [List.find?_map]
    rfl
  rw [hslot]
  cases hfind : (List.range 100).find? (fun i => blockIsFree used (30000 + i * 100) 100) with
  | none =>
      have hall := List.find?_range_eq_none.mp hfind
      refine ⟨fun h => absurd rfl h, iff_of_true rfl ?_⟩
      intro block hblock hfree
      obtain ⟨i, hi, rfl⟩ := isBlock_iff.mp hblock
      have h := hall i hi
      rw [blockIsFree_iff.mpr hfree] at h
      contradiction
  | some i =>
      obtain ⟨hfree, hmem, hbelow⟩ := List.find?_range_eq_some.mp hfind
      have hblock : IsBlock (30000 + i * 100) := isBlock_iff.mpr ⟨i, List.mem_range.mp hmem, rfl⟩
      refine ⟨fun _ => ⟨hblock, blockIsFree_iff.mp hfree, ?_⟩, iff_of_false (by simp) ?_⟩
      · intro block hother hlt hotherFree
        obtain ⟨j, -, rfl⟩ := isBlock_iff.mp hother
        have h := hbelow j (by simp only [Option.map_some, Option.getD_some] at hlt; omega)
        rw [blockIsFree_iff.mpr hotherFree] at h
        contradiction
      · intro hall
        exact hall _ hblock (blockIsFree_iff.mp hfree)

/-! ## The rules of a policy -/

structure NetworkPolicyRule where
  fromName : Str
  toName : Str
  ports : List Nat
  proto : Str
  action : Str
  deriving DecidableEq, Repr

structure NetworkPolicy where
  defaultAction : Str
  rules : List NetworkPolicyRule
  deriving DecidableEq, Repr

def portRule (rule : NetworkPolicyRule) (fromIp toIp bridgeIface : Str) (port : Nat) : Str :=
  rule.action ++ " " ++ rule.proto ++ " from " ++ fromIp ++ " to " ++ toIp ++ " " ++ decimal port ++
    " via " ++ bridgeIface

/-- A rule between members that the stack does not have is skipped. -/
def explicitRules (nameToIp : OrdMap Str Str) (bridgeIface : Str) (rule : NetworkPolicyRule) :
    List Str :=
  match nameToIp.find? rule.fromName, nameToIp.find? rule.toName with
  | some fromIp, some toIp => rule.ports.map (portRule rule fromIp toIp bridgeIface)
  | _, _ => []

def denyRule (bridgeIface address : Str) : Str :=
  "deny ip from " ++ address ++ " to any via " ++ bridgeIface

/-- What `applyNetworkPolicies` adds, in this order. -/
def policyRules (policy : NetworkPolicy) (nameToIp : OrdMap Str Str) (bridgeIface : Str)
    (otherStackSubnets : List Str) : List Str :=
  policy.rules.flatMap (explicitRules nameToIp bridgeIface) ++
    if policy.defaultAction = "deny" then
      (nameToIp.entries.map Prod.snd ++ otherStackSubnets).map (denyRule bridgeIface)
    else []

theorem exists_via_denyRule (bridgeIface address : Str) :
    ∃ front, denyRule bridgeIface address = front ++ " via " ++ bridgeIface := by
  have hlit : (" to any via " : Str) = (" to any" : Str) ++ (" via " : Str) := by decide
  refine ⟨"deny ip from " ++ address ++ " to any", ?_⟩
  unfold denyRule
  rw [hlit, ← List.append_assoc]

theorem exists_via_of_mem_policyRules {policy : NetworkPolicy} {nameToIp : OrdMap Str Str}
    {bridgeIface : Str} {otherStackSubnets : List Str} {text : Str}
    (h : text ∈ policyRules policy nameToIp bridgeIface otherStackSubnets) :
    ∃ front, text = front ++ " via " ++ bridgeIface := by
  rcases List.mem_append.mp h with h | h
  · obtain ⟨rule, -, h⟩ := List.mem_flatMap.mp h
    unfold explicitRules at h
    split at h
    · obtain ⟨port, -, rfl⟩ := List.mem_map.mp h
      exact ⟨_, rfl⟩
    · exact absurd h List.not_mem_nil
  · split at h
    · obtain ⟨address, -, rfl⟩ := List.mem_map.mp h
      exact exists_via_denyRule bridgeIface address
    · exact absurd h List.not_mem_nil

end Crate.StackPure
