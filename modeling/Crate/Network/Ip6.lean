import Crate.Foundation.Check
import Crate.Foundation.Substring
import Crate.PrivOps.Validate

/-!
# IPv6 addresses of the leases

`lib/ip6_alloc_pure.cpp`: an address is sixteen bytes, the most significant
first; its text is split at the `::`, and then into groups.
-/

namespace Crate.Ip6AllocPure

open Crate.Foundation
open Crate.PrivOpsPure (isHexDigit hexValue)

abbrev Addr6 := Vector UInt8 16

def parseGroup (s : Str) : Option UInt16 :=
  if s.isEmpty || s.length > 4 then none
  else
    (s.foldlM (fun (v : UInt32) c =>
      if isHexDigit c then some ((v <<< 4) ||| UInt32.ofNat (hexValue c)) else none) 0).map
      UInt32.toUInt16

def put16 (a : Addr6) (pos : Nat) (v : UInt16) : Addr6 :=
  (a.setIfInBounds pos (v >>> 8).toUInt8).setIfInBounds (pos + 1) v.toUInt8

/-- The loop of `splitGroups`: the group that is read, and those before it. -/
def groupLoop : Str → Str → List Str → Except Str (List Str)
  | [], cur, out =>
      if cur.isEmpty then .error "trailing ':' without '::'" else .ok (out ++ [cur])
  | c :: rest, cur, out =>
      if c = ':' then
        if cur.isEmpty then .error "empty group (consecutive ':' without '::')"
        else groupLoop rest [] (out ++ [cur])
      else groupLoop rest (cur ++ [c]) out

def splitGroups (part : Str) : Except Str (List Str) :=
  if part.isEmpty then .ok [] else groupLoop part [] []

/-- The groups written from a byte on, and the position behind them. -/
def putGroups (a : Addr6) (pos : Nat) (groups : List Str) : Except Str (Addr6 × Nat) :=
  groups.foldlM (fun (a, pos) g =>
    match parseGroup g with
    | none => .error ("IPv6 group '" ++ g ++ "' is not 1..4 hex digits")
    | some v => .ok (put16 a pos v, pos + 2)) (a, pos)

def parseParts (s before after : Str) (hasShorthand : Bool) : Except Str Addr6 := do
  let labelGroups := fun part =>
    (splitGroups part).mapError (fun e => "IPv6 parse: " ++ e ++ " in '" ++ s ++ "'")
  let beforeGroups ← labelGroups before
  let afterGroups ← labelGroups after
  let total := beforeGroups.length + afterGroups.length
  reject (total > 8) ("IPv6 has too many groups: '" ++ s ++ "'")
  reject (!hasShorthand ∧ total ≠ 8)
    ("IPv6 needs exactly 8 groups (or '::' shorthand): '" ++ s ++ "'")
  reject (hasShorthand ∧ total = 8)
    ("IPv6 '::' shorthand needs at least one zero group: '" ++ s ++ "'")
  let (a, pos) ← putGroups (Vector.replicate 16 0) 0 beforeGroups
  let (a, _) ← putGroups a (pos + (8 - total) * 2) afterGroups
  return a

def parseIp6 (s : Str) : Except Str Addr6 :=
  if s.isEmpty then .error "IPv6 address is empty"
  else if s.length > 64 then .error "IPv6 address is implausibly long"
  else
    match splitFirst "::" s with
    | some (before, after) =>
        if (splitFirst "::" (':' :: after)).isSome then
          .error ("IPv6 address has more than one '::': '" ++ s ++ "'")
        else parseParts s before after true
    | none => parseParts s s [] false

example : (parseIp6 "fd00:e::2:1").map (·.toList) =
    .ok [0xfd, 0, 0, 0xe, 0, 0, 0, 0, 0, 0, 0, 0, 0, 2, 0, 1] := by decide

theorem isSome_parseGroup_of_putGroups {groups : List Str} {a : Addr6} {pos : Nat}
    {r : Addr6 × Nat} (h : putGroups a pos groups = .ok r) :
    ∀ g ∈ groups, (parseGroup g).isSome = true := by
  unfold putGroups at h
  generalize (a, pos) = start at h
  induction groups generalizing start with
  | nil =>
      intro g hg
      exact absurd hg List.not_mem_nil
  | cons first rest ih =>
      rw [List.foldlM_cons, bind_eq_ok] at h
      obtain ⟨next, hnext, hrest⟩ := h
      rw [List.forall_mem_cons]
      refine ⟨?_, ih next hrest⟩
      cases hfirst : parseGroup first with
      | none =>
          rw [hfirst] at hnext
          cases hnext
      | some v => rfl

theorem isSome_parseGroup_of_parseParts {s before after : Str} {hasShorthand : Bool} {a : Addr6}
    (h : parseParts s before after hasShorthand = .ok a) :
    ∃ groups, splitGroups before = .ok groups ∧ ∀ g ∈ groups, (parseGroup g).isSome = true := by
  unfold parseParts at h
  obtain ⟨groups, hgroups, h⟩ := bind_eq_ok.mp h
  obtain ⟨afterGroups, -, h⟩ := bind_eq_ok.mp h
  obtain ⟨-, -, h⟩ := bind_eq_ok.mp h
  obtain ⟨-, -, h⟩ := bind_eq_ok.mp h
  obtain ⟨-, -, h⟩ := bind_eq_ok.mp h
  obtain ⟨r, hput, -⟩ := bind_eq_ok.mp h
  refine ⟨groups, ?_, isSome_parseGroup_of_putGroups hput⟩
  dsimp only at hgroups
  cases hsplit : splitGroups before with
  | error e =>
      rw [hsplit] at hgroups
      cases hgroups
  | ok split =>
      rw [hsplit] at hgroups
      cases hgroups
      rfl

end Crate.Ip6AllocPure
