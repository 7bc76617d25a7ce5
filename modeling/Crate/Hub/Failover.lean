import Crate.Foundation.CNumber
import Crate.Registry.SpecRegistry

/-!
# Failover orders of the hub

`hub/ha_pure.cpp`.  For every policy whose primary node has been down long
enough, the hub publishes an order to move the container to the first partner
that can be reached.  Each order is right for its policy.  The validator looks
at one policy at a time, so two policies of one container can both be carried
out.
-/

namespace Crate.HaPure

open Crate.Foundation
open Crate.NameLimits (kJailName)

structure HaSpec where
  containerName : Str
  primaryNode : Str
  partnerNodes : List Str
  deriving DecidableEq, Repr

structure NodeView where
  name : Str
  reachable : Bool := false
  unreachableSeconds : Int := 0
  deriving DecidableEq, Repr

structure MigrationOrder where
  container : Str
  fromNode : Str
  toNode : Str
  reason : Str
  deriving DecidableEq, Repr

def findNode (nodes : List NodeView) (name : Str) : Option NodeView :=
  nodes.find? (fun n => n.name = name)

def isValidName (s : Str) : Bool :=
  !(s.isEmpty || s.length > kJailName) && s.all PrivOpsPure.isNameChar

/-! ## The decision -/

def downReason (primary : NodeView) (thresholdSeconds : Int) : Str :=
  "primary node '" ++ primary.name ++ "' down for " ++ integerText primary.unreachableSeconds ++
    "s (>= threshold " ++ integerText thresholdSeconds ++ "s)"

def isUp (nodes : List NodeView) (name : Str) : Bool :=
  match findNode nodes name with
  | none => false
  | some p => p.reachable

/-- The first partner of the list that is currently reachable. -/
def firstReachable (nodes : List NodeView) (partnerNodes : List Str) : Option Str :=
  partnerNodes.find? (isUp nodes)

/-- The body of the loop over the policies. -/
def failoverOrder (nodes : List NodeView) (thresholdSeconds : Int) (s : HaSpec) :
    Option MigrationOrder :=
  match findNode nodes s.primaryNode with
  | none => none
  | some primary =>
      if primary.reachable then none
      else if primary.unreachableSeconds < thresholdSeconds then none
      else
        (firstReachable nodes s.partnerNodes).map fun partnerName =>
          { container := s.containerName
            fromNode := s.primaryNode
            toNode := partnerName
            reason := downReason primary thresholdSeconds }

def evaluateFailoverOrders (specs : List HaSpec) (nodes : List NodeView)
    (thresholdSeconds : Int) : List MigrationOrder :=
  specs.filterMap (failoverOrder nodes thresholdSeconds)

/-! ## Validation -/

/-- The loop over the partners; `seen` starts with the primary. -/
def checkPartners (idx : Str) : List Str → List Str → Check
  | _, [] => .ok ()
  | seen, p :: rest => do
      reject (¬isValidName p) (idx ++ ": invalid partner node name '" ++ p ++ "'")
      reject (p ∈ seen) (idx ++ ": partner '" ++ p ++ "' duplicated or matches primary")
      checkPartners idx (p :: seen) rest

def validateSpec (i : Nat) (s : HaSpec) : Check := do
  let idx := "ha[" ++ decimal i ++ "]"
  reject (¬isValidName s.containerName)
    (idx ++ ": invalid container name '" ++ s.containerName ++ "'")
  reject (¬isValidName s.primaryNode)
    (idx ++ ": invalid primary node name '" ++ s.primaryNode ++ "'")
  reject (s.partnerNodes = []) (idx ++ ": at least one partner_nodes entry is required")
  checkPartners idx [s.primaryNode] s.partnerNodes

def validateFrom : Nat → List HaSpec → Check
  | _, [] => .ok ()
  | i, s :: rest => do
      validateSpec i s
      validateFrom (i + 1) rest

def validateSpecs (specs : List HaSpec) : Check := validateFrom 0 specs

/-! ## What an order says -/

variable {nodes : List NodeView} {thresholdSeconds : Int} {specs : List HaSpec}

/-- A node of this name has been out of reach for at least the threshold. -/
def Down (nodes : List NodeView) (thresholdSeconds : Int) (name : Str) : Prop :=
  ∃ n, findNode nodes name = some n ∧ n.reachable = false ∧ thresholdSeconds ≤ n.unreachableSeconds

theorem not_isUp_of_down {name : Str} (h : Down nodes thresholdSeconds name) :
    isUp nodes name = false := by
  obtain ⟨n, hfind, hreach, -⟩ := h
  simp only [isUp, hfind, hreach]

/-- An order carries out the policy `s`. -/
structure CarriesOut (nodes : List NodeView) (thresholdSeconds : Int) (s : HaSpec)
    (o : MigrationOrder) : Prop where
  container : o.container = s.containerName
  fromNode : o.fromNode = s.primaryNode
  down : Down nodes thresholdSeconds o.fromNode
  up : isUp nodes o.toNode = true
  elsewhere : o.toNode ≠ o.fromNode
  first : ∃ before behind, s.partnerNodes = before ++ o.toNode :: behind ∧
    ∀ q ∈ before, isUp nodes q = false

theorem failoverOrder_eq_some_iff {s : HaSpec} {o : MigrationOrder} :
    failoverOrder nodes thresholdSeconds s = some o ↔
      ∃ primary target, findNode nodes s.primaryNode = some primary ∧
        primary.reachable = false ∧ thresholdSeconds ≤ primary.unreachableSeconds ∧
        firstReachable nodes s.partnerNodes = some target ∧
        o = ⟨s.containerName, s.primaryNode, target, downReason primary thresholdSeconds⟩ := by
  unfold failoverOrder
  constructor
  · intro h
    split at h
    · contradiction
    · rename_i primary hfind
      split at h
      · contradiction
      · rename_i hreach
        split at h
        · contradiction
        · rename_i hlong
          obtain ⟨target, htarget, rfl⟩ := Option.map_eq_some_iff.mp h
          exact ⟨primary, target, hfind, by simpa using hreach, by omega, htarget, rfl⟩
  · rintro ⟨primary, target, hfind, hreach, hlong, htarget, rfl⟩
    simp [hfind, hreach, not_lt.mpr hlong, htarget]

theorem carriesOut_of_failoverOrder {s : HaSpec} {o : MigrationOrder}
    (h : failoverOrder nodes thresholdSeconds s = some o) :
    CarriesOut nodes thresholdSeconds s o := by
  obtain ⟨primary, target, hfind, hreach, hlong, htarget, rfl⟩ := failoverOrder_eq_some_iff.mp h
  obtain ⟨hup, before, behind, hsplit, hbefore⟩ := List.find?_eq_some_iff_append.mp htarget
  have hdown : Down nodes thresholdSeconds s.primaryNode := ⟨primary, hfind, hreach, hlong⟩
  refine ⟨rfl, rfl, hdown, hup, ?_, before, behind, hsplit, ?_⟩
  · rintro (hsame : target = s.primaryNode)
    rw [hsame, not_isUp_of_down hdown] at hup
    contradiction
  · intro q hq
    simpa using hbefore q hq

/-- A policy is due: its primary has been down long enough and a partner can take over. -/
def Due (nodes : List NodeView) (thresholdSeconds : Int) (s : HaSpec) : Prop :=
  Down nodes thresholdSeconds s.primaryNode ∧ ∃ p ∈ s.partnerNodes, isUp nodes p = true

theorem due_iff {s : HaSpec} :
    Due nodes thresholdSeconds s ↔ ∃ o, failoverOrder nodes thresholdSeconds s = some o := by
  constructor
  · rintro ⟨⟨primary, hfind, hreach, hlong⟩, hpartner⟩
    obtain ⟨target, htarget⟩ := Option.isSome_iff_exists.mp (List.find?_isSome.mpr hpartner)
    exact ⟨_, failoverOrder_eq_some_iff.mpr ⟨primary, target, hfind, hreach, hlong, htarget, rfl⟩⟩
  · rintro ⟨o, ho⟩
    have h := carriesOut_of_failoverOrder ho
    obtain ⟨before, behind, hsplit, -⟩ := h.first
    refine ⟨h.fromNode ▸ h.down, o.toNode, ?_, h.up⟩
    rw [hsplit]
    simp

/-! ## Orders of a list of policies -/

/-- At most one order for a container, and every order carries out one of the policies. -/
structure NeverSplits (specs : List HaSpec) (nodes : List NodeView) (thresholdSeconds : Int)
    (orders : List MigrationOrder) : Prop where
  containers : (orders.map (·.container)).Nodup
  carriedOut : ∀ o ∈ orders, ∃ s ∈ specs, CarriesOut nodes thresholdSeconds s o

/-- No two policies of one container are due together. -/
def OnePolicyDue (specs : List HaSpec) (nodes : List NodeView) (thresholdSeconds : Int) : Prop :=
  specs.Pairwise fun s t => s.containerName = t.containerName →
    ¬(Due nodes thresholdSeconds s ∧ Due nodes thresholdSeconds t)

theorem mem_containers_iff {c : Str} :
    c ∈ (evaluateFailoverOrders specs nodes thresholdSeconds).map (·.container) ↔
      ∃ s ∈ specs, Due nodes thresholdSeconds s ∧ s.containerName = c := by
  simp only [evaluateFailoverOrders, List.mem_map, List.mem_filterMap, due_iff]
  constructor
  · rintro ⟨o, ⟨s, hs, ho⟩, rfl⟩
    exact ⟨s, hs, ⟨o, ho⟩, (carriesOut_of_failoverOrder ho).container.symm⟩
  · rintro ⟨s, hs, ⟨o, ho⟩, rfl⟩
    exact ⟨o, ⟨s, hs, ho⟩, (carriesOut_of_failoverOrder ho).container⟩

theorem nodup_containers_iff :
    ((evaluateFailoverOrders specs nodes thresholdSeconds).map (·.container)).Nodup ↔
      OnePolicyDue specs nodes thresholdSeconds := by
  induction specs with
  | nil => simp [evaluateFailoverOrders, OnePolicyDue]
  | cons s rest ih =>
      have hmem := @mem_containers_iff nodes thresholdSeconds rest s.containerName
      simp only [OnePolicyDue, evaluateFailoverOrders] at ih hmem ⊢
      rw [List.pairwise_cons, ← ih]
      cases ho : failoverOrder nodes thresholdSeconds s with
      | none =>
          have hidle : ¬Due nodes thresholdSeconds s := by
            rw [due_iff, ho]
            simp
          rw [List.filterMap_cons_none ho]
          simp [hidle]
      | some o =>
          have hdue : Due nodes thresholdSeconds s := due_iff.mpr ⟨o, ho⟩
          rw [List.filterMap_cons_some ho, List.map_cons, List.nodup_cons,
            (carriesOut_of_failoverOrder ho).container, hmem]
          refine and_congr_left fun _ => ?_
          simp only [hdue, true_and, not_exists, not_and]
          exact ⟨fun h t ht hname hdue' => h t ht hdue' hname.symm,
            fun h t ht hdue' hname => h t ht hname.symm hdue'⟩

/-- The orders never split a container exactly when no container has two policies due at once. -/
theorem orders_never_split_iff :
    NeverSplits specs nodes thresholdSeconds
        (evaluateFailoverOrders specs nodes thresholdSeconds) ↔
      OnePolicyDue specs nodes thresholdSeconds := by
  rw [← nodup_containers_iff]
  constructor
  · intro h
    exact h.containers
  · intro h
    refine ⟨h, fun o ho => ?_⟩
    obtain ⟨s, hs, ho⟩ := List.mem_filterMap.mp ho
    exact ⟨s, hs, carriesOut_of_failoverOrder ho⟩

/-- Two policies of one container, both of whose primaries are down. -/
def twicePlanned : List HaSpec :=
  [⟨"db", "alpha", [("beta" : Str)]⟩, ⟨"db", "gamma", [("delta" : Str)]⟩]

def twoDown : List NodeView :=
  [{ name := "alpha", unreachableSeconds := 120 }, { name := "beta", reachable := true },
    { name := "gamma", unreachableSeconds := 90 }, { name := "delta", reachable := true }]

theorem container_ordered_twice :
    validateSpecs twicePlanned = .ok () ∧ (twoDown.map (·.name)).Nodup ∧
      (evaluateFailoverOrders twicePlanned twoDown 60).map (fun o => (o.container, o.toNode)) =
        [(("db" : Str), ("beta" : Str)), (("db" : Str), ("delta" : Str))] ∧
      ¬NeverSplits twicePlanned twoDown 60 (evaluateFailoverOrders twicePlanned twoDown 60) := by
  refine ⟨by decide, by decide, by decide, fun h => ?_⟩
  exact absurd h.containers (by decide)

end Crate.HaPure
