import Crate.Foundation.Run
import Crate.Registry.IfaceOwner

/-!
# Both halves of an epair have one owner

The daemon's `IfaceOwnerRegistry` around the map.  The live probe reads the
kernel, so it is an argument of the calls that consult it, and the file may or
may not be written.  A call that names an interface drops both of its halves;
`reconcile` asks about each half on its own, so a pair stays together there
exactly when both of its questions get one answer.
-/

namespace Crate

open Crate.Foundation
open Crate.IfaceOwnerRegistryPure (EntryMap LiveProbe isEpairName peerHalf hostHalf)
open Crate.PrivOpsAuthzPure (Owner)

namespace IfaceOwnerRegistryPure

/-- The loop of `reconcile`; `calls` counts the questions asked before. -/
def reconcileLoop (isLive : LiveProbe) : Nat → List (Str × UInt32) → List (Str × UInt32)
  | _, [] => []
  | calls, kv :: rest =>
      if hostHalf kv.1 = [] then reconcileLoop isLive calls rest
      else if isLive calls (hostHalf kv.1) then kv :: reconcileLoop isLive (calls + 1) rest
      else reconcileLoop isLive (calls + 1) rest

theorem reconcileLoop_sublist (isLive : LiveProbe) (calls : Nat) (l : List (Str × UInt32)) :
    (reconcileLoop isLive calls l).Sublist l := by
  induction l generalizing calls with
  | nil => exact .slnil
  | cons kv rest ih =>
      rw [reconcileLoop]
      split
      · exact (ih _).cons _
      · split
        · exact (ih _).cons_cons _
        · exact (ih _).cons _

def reconcile (entries : EntryMap) (isLive : Option LiveProbe) : Nat × EntryMap :=
  match isLive with
  | none => (0, entries)
  | some isLive =>
      let kept : EntryMap := ⟨reconcileLoop isLive 0 entries.entries,
        entries.sorted.sublist (reconcileLoop_sublist isLive 0 entries.entries)⟩
      (entries.entries.length - kept.entries.length, kept)

end IfaceOwnerRegistryPure

structure IfaceOwnerRegistry where
  entries : EntryMap := .empty
  file : Option Str := none

namespace IfaceOwnerRegistry

/-- `persistLocked_`: the map is what it is; the file follows only if it can be written. -/
def persist (written : Bool) (r : IfaceOwnerRegistry) (entries : EntryMap) : IfaceOwnerRegistry :=
  { entries := entries
    file := if written then some (IfaceOwnerRegistryPure.serialize entries) else r.file }

def recordHalf (m : EntryMap) (name : Str) (uid : UInt32) : EntryMap :=
  if isEpairName name then m.insert name uid else m

def recordEpair (written : Bool) (r : IfaceOwnerRegistry) (ifaceA ifaceB : Str) (uid : UInt32) :
    IfaceOwnerRegistry :=
  persist written r (recordHalf (recordHalf r.entries ifaceA uid) ifaceB uid)

/-- The entries without the interface and without its other half. -/
def dropPair (m : EntryMap) (ifname : Str) : EntryMap :=
  if peerHalf ifname = [] then m.erase ifname else (m.erase ifname).erase (peerHalf ifname)

def forgetPair (written : Bool) (r : IfaceOwnerRegistry) (ifname : Str) :
    Bool × IfaceOwnerRegistry :=
  let kept := dropPair r.entries ifname
  if kept.entries.length < r.entries.entries.length then (true, persist written r kept)
  else (false, r)

def stale (probe : Option LiveProbe) (ifname : Str) : Bool :=
  match probe with
  | none => false
  | some probe => hostHalf ifname = [] || !probe 0 (hostHalf ifname)

def lookup (written : Bool) (probe : Option LiveProbe) (r : IfaceOwnerRegistry) (ifname : Str) :
    Owner × IfaceOwnerRegistry :=
  match r.entries.find? ifname with
  | none => ({}, r)
  | some uid =>
      if stale probe ifname then ({}, persist written r (dropPair r.entries ifname))
      else ({ known := true, uid := uid }, r)

def reconcile (written : Bool) (probe : Option LiveProbe) (r : IfaceOwnerRegistry) :
    Nat × IfaceOwnerRegistry :=
  let (dropped, kept) := IfaceOwnerRegistryPure.reconcile r.entries probe
  (dropped, if dropped ≠ 0 then persist written r kept else { r with entries := kept })

/-- A call, with the probe that is in force and whether the file can be written. -/
inductive Action where
  | recordEpair (ifaceA : Str) (uid : UInt32) (written : Bool)
  | forgetPair (ifname : Str) (written : Bool)
  | lookup (ifname : Str) (probe : Option LiveProbe) (written : Bool)
  | reconcile (probe : Option LiveProbe) (written : Bool)

def step (r : IfaceOwnerRegistry) : Action → IfaceOwnerRegistry
  | .recordEpair ifaceA uid written => recordEpair written r ifaceA (peerHalf ifaceA) uid
  | .forgetPair ifname written => (forgetPair written r ifname).2
  | .lookup ifname probe written => (lookup written probe r ifname).2
  | .reconcile probe written => (reconcile written probe r).2

/-! ## The invariant -/

structure OneOwner (m : EntryMap) : Prop where
  halves : ∀ name uid, m.find? name = some uid → isEpairName name = true
  peers : ∀ name uid, m.find? name = some uid → m.find? (peerHalf name) = some uid
  readBack : IfaceOwnerRegistryPure.parse (IfaceOwnerRegistryPure.serialize m) = .ok m

theorem OneOwner.of_peers {m : EntryMap}
    (halves : ∀ name uid, m.find? name = some uid → isEpairName name = true)
    (peers : ∀ name uid, m.find? name = some uid → m.find? (peerHalf name) = some uid) :
    OneOwner m := by
  refine ⟨halves, peers, IfaceOwnerRegistryPure.parse_serialize ?_⟩
  intro kv hkv
  exact halves kv.1 kv.2 (OrdMap.find?_eq_some_iff.mpr hkv)

theorem oneOwner_empty : OneOwner .empty := .of_peers (by simp) (by simp)

theorem OneOwner.record {m : EntryMap} (h : OneOwner m) (ifaceA : Str) (uid : UInt32) :
    OneOwner (recordHalf (recordHalf m ifaceA uid) (peerHalf ifaceA) uid) := by
  by_cases hname : isEpairName ifaceA = true
  · have hpeer := IfaceOwnerRegistryPure.isEpairName_peerHalf hname
    have hback := IfaceOwnerRegistryPure.peerHalf_peerHalf hname
    have hfind : ∀ name, (recordHalf (recordHalf m ifaceA uid) (peerHalf ifaceA) uid).find? name =
        if peerHalf ifaceA = name then some uid
        else if ifaceA = name then some uid else m.find? name := by
      intro name
      rw [recordHalf, if_pos hpeer, recordHalf, if_pos hname, OrdMap.find?_insert,
        OrdMap.find?_insert]
      split_ifs <;> rfl
    refine .of_peers ?_ ?_
    · intro name found hfound
      rw [hfind] at hfound
      split at hfound
      · rename_i hsame
        exact hsame ▸ hpeer
      · split at hfound
        · rename_i hsame
          exact hsame ▸ hname
        · exact h.halves name found hfound
    · intro name found hfound
      rw [hfind] at hfound ⊢
      split at hfound
      · rename_i hsame
        rw [← hsame, hback, if_pos rfl, ite_self, hfound]
      · rename_i hother
        split at hfound
        · rename_i hsame
          rw [← hsame, if_pos rfl, hfound]
        · rename_i hthis
          have hold := IfaceOwnerRegistryPure.peerHalf_peerHalf (h.halves name found hfound)
          rw [if_neg, if_neg]
          · exact h.peers name found hfound
          · rintro heq
            exact hother (by rw [heq, hold])
          · intro heq
            exact hthis (by rw [← hback, heq, hold])
  · have hnil : peerHalf ifaceA = [] := by simp [peerHalf, hname]
    have hempty : isEpairName [] = false := by decide
    rw [hnil, recordHalf, hempty, if_neg (by simp), recordHalf, if_neg hname]
    exact h

theorem find?_dropPair (m : EntryMap) (ifname name : Str) :
    (dropPair m ifname).find? name =
      if name = ifname ∨ (peerHalf ifname ≠ [] ∧ name = peerHalf ifname) then none
      else m.find? name := by
  unfold dropPair
  split
  · rename_i hnil
    simp [OrdMap.find?_erase, hnil]
  · rename_i hne
    rw [OrdMap.find?_erase, OrdMap.find?_erase]
    by_cases hpeer : name = peerHalf ifname
    · rw [if_pos hpeer, if_pos (.inr ⟨hne, hpeer⟩)]
    · by_cases hself : name = ifname
      · rw [if_neg hpeer, if_pos hself, if_pos (.inl hself)]
      · rw [if_neg hpeer, if_neg hself, if_neg]
        rintro (hsame | ⟨-, hsame⟩)
        · exact hself hsame
        · exact hpeer hsame

theorem OneOwner.drop {m : EntryMap} (h : OneOwner m) (ifname : Str) :
    OneOwner (dropPair m ifname) := by
  have hkept : ∀ name uid, (dropPair m ifname).find? name = some uid →
      m.find? name = some uid ∧ name ≠ ifname ∧
        (peerHalf ifname ≠ [] → name ≠ peerHalf ifname) := by
    intro name uid hfound
    rw [find?_dropPair] at hfound
    split at hfound
    · contradiction
    · rename_i hother
      rw [not_or, not_and] at hother
      exact ⟨hfound, hother⟩
  refine .of_peers ?_ ?_
  · intro name uid hfound
    exact h.halves name uid (hkept name uid hfound).1
  · intro name uid hfound
    obtain ⟨hold, hself, hpeer⟩ := hkept name uid hfound
    have hname := h.halves name uid hold
    have hback := IfaceOwnerRegistryPure.peerHalf_peerHalf hname
    rw [find?_dropPair, if_neg]
    · exact h.peers name uid hold
    · rintro (heq | ⟨hne, heq⟩)
      · have hifname := IfaceOwnerRegistryPure.isEpairName_peerHalf hname
        rw [heq] at hifname
        refine hpeer ?_ ?_
        · intro hnil
          rw [← heq, hback] at hnil
          rw [hnil] at hname
          exact absurd hname (by decide)
        · rw [← heq, hback]
      · -- the other half of `name` is the other half of `ifname`
        by_cases hifname : isEpairName ifname = true
        · apply hself
          rw [← hback, heq, IfaceOwnerRegistryPure.peerHalf_peerHalf hifname]
        · exact hne (by simp [peerHalf, hifname])

/-! ## Reconciliation -/

/-- What the probe says when its turn comes to the half `name`. -/
def answer (probe : LiveProbe) (m : EntryMap) (name : Str) : Bool :=
  probe (m.entries.findIdx (fun kv => kv.1 = name)) (hostHalf name)

theorem mem_reconcileLoop {probe : LiveProbe} {l : List (Str × UInt32)} {calls : Nat}
    (h : ∀ kv ∈ l, isEpairName kv.1 = true) {kv : Str × UInt32} :
    kv ∈ IfaceOwnerRegistryPure.reconcileLoop probe calls l ↔
      ∃ i, l[i]? = some kv ∧ probe (calls + i) (hostHalf kv.1) = true := by
  induction l generalizing calls with
  | nil => simp [IfaceOwnerRegistryPure.reconcileLoop]
  | cons first rest ih =>
      obtain ⟨hfirst, hrest⟩ := List.forall_mem_cons.mp h
      have hlater : (∃ i, rest[i]? = some kv ∧ probe (calls + 1 + i) (hostHalf kv.1) = true) ↔
          ∃ i, (first :: rest)[i + 1]? = some kv ∧
            probe (calls + (i + 1)) (hostHalf kv.1) = true := by
        simp only [List.getElem?_cons_succ, Nat.add_assoc, Nat.add_comm 1]
      rw [IfaceOwnerRegistryPure.reconcileLoop,
        if_neg (IfaceOwnerRegistryPure.hostHalf_ne_nil hfirst)]
      constructor
      · intro hmem
        split at hmem
        · rename_i hlive
          rcases List.mem_cons.mp hmem with rfl | hmem
          · exact ⟨0, rfl, hlive⟩
          · obtain ⟨i, hi⟩ := hlater.mp ((ih hrest).mp hmem)
            exact ⟨i + 1, hi⟩
        · obtain ⟨i, hi⟩ := hlater.mp ((ih hrest).mp hmem)
          exact ⟨i + 1, hi⟩
      · rintro ⟨i, hi, hlive⟩
        cases i with
        | zero =>
            obtain rfl : first = kv := by simpa using hi
            have hnow : probe calls (hostHalf first.1) = true := hlive
            rw [if_pos hnow]
            exact List.mem_cons_self
        | succ i =>
            have hmem := (ih hrest).mpr (hlater.mpr ⟨i, hi, hlive⟩)
            split
            · exact List.mem_cons_of_mem _ hmem
            · exact hmem

theorem findIdx_key {m : EntryMap} {i : Nat} {kv : Str × UInt32}
    (h : m.entries[i]? = some kv) : m.entries.findIdx (fun x => x.1 = kv.1) = i := by
  obtain ⟨hi, hget⟩ := List.getElem?_eq_some_iff.mp h
  rw [List.findIdx_eq hi]
  refine ⟨by simp [hget], fun j hj => ?_⟩
  have hlt := List.pairwise_iff_getElem.mp m.sorted j i (by omega) hi hj
  rw [hget] at hlt
  simpa using ne_of_lt hlt

theorem find?_reconcile {m : EntryMap} (h : OneOwner m) (probe : LiveProbe) (name : Str)
    (uid : UInt32) :
    (IfaceOwnerRegistryPure.reconcile m (some probe)).2.find? name = some uid ↔
      m.find? name = some uid ∧ answer probe m name = true := by
  have hnames : ∀ kv ∈ m.entries, isEpairName kv.1 = true := fun kv hkv =>
    h.halves kv.1 kv.2 (OrdMap.find?_eq_some_iff.mpr hkv)
  rw [OrdMap.find?_eq_some_iff, OrdMap.find?_eq_some_iff]
  refine (mem_reconcileLoop hnames).trans ?_
  constructor
  · rintro ⟨i, hi, hlive⟩
    refine ⟨List.mem_of_getElem? hi, ?_⟩
    rw [answer, findIdx_key hi]
    simpa using hlive
  · rintro ⟨hmem, hlive⟩
    obtain ⟨i, hi⟩ := List.getElem?_of_mem hmem
    refine ⟨i, hi, ?_⟩
    rw [answer, findIdx_key hi] at hlive
    simpa using hlive

/-- Both questions about each registered pair get one answer. -/
def OneAnswer (r : IfaceOwnerRegistry) : Action → Prop
  | .reconcile (some probe) _ => ∀ name uid, r.entries.find? name = some uid →
      answer probe r.entries name = answer probe r.entries (peerHalf name)
  | _ => True

theorem oneOwner_reconcile_iff {m : EntryMap} (h : OneOwner m) (probe : LiveProbe) :
    OneOwner (IfaceOwnerRegistryPure.reconcile m (some probe)).2 ↔
      ∀ name uid, m.find? name = some uid →
        answer probe m name = answer probe m (peerHalf name) := by
  constructor
  · intro hkept name uid hfind
    have hpeer := h.peers name uid hfind
    have hback := IfaceOwnerRegistryPure.peerHalf_peerHalf (h.halves name uid hfind)
    rw [Bool.eq_iff_iff]
    constructor
    · intro hlive
      have hnext := hkept.peers name uid ((find?_reconcile h probe name uid).mpr ⟨hfind, hlive⟩)
      exact ((find?_reconcile h probe _ uid).mp hnext).2
    · intro hlive
      have hnext := hkept.peers _ uid ((find?_reconcile h probe _ uid).mpr ⟨hpeer, hlive⟩)
      rw [hback] at hnext
      exact ((find?_reconcile h probe name uid).mp hnext).2
  · intro hsame
    refine .of_peers ?_ ?_
    · intro name uid hfound
      exact h.halves name uid ((find?_reconcile h probe name uid).mp hfound).1
    · intro name uid hfound
      obtain ⟨hold, hlive⟩ := (find?_reconcile h probe name uid).mp hfound
      rw [find?_reconcile h]
      exact ⟨h.peers name uid hold, (hsame name uid hold).symm.trans hlive⟩

/-! ## Runs -/

theorem step_entries (r : IfaceOwnerRegistry) (a : Action) :
    (step r a).entries =
      match a with
      | .recordEpair ifaceA uid _ =>
          recordHalf (recordHalf r.entries ifaceA uid) (peerHalf ifaceA) uid
      | .forgetPair ifname _ => (forgetPair true r ifname).2.entries
      | .lookup ifname probe _ => (lookup true probe r ifname).2.entries
      | .reconcile probe _ => (IfaceOwnerRegistryPure.reconcile r.entries probe).2 := by
  cases a with
  | recordEpair ifaceA uid written => rfl
  | forgetPair ifname written =>
      simp only [step, forgetPair]
      split <;> rfl
  | lookup ifname probe written =>
      simp only [step, lookup]
      split
      · rfl
      · split <;> rfl
  | reconcile probe written =>
      simp only [step, reconcile]
      split <;> rfl

/-- One call keeps the pairs together exactly when its probe speaks with one voice. -/
theorem oneOwner_step_iff {r : IfaceOwnerRegistry} (h : OneOwner r.entries) (a : Action) :
    OneOwner (step r a).entries ↔ OneAnswer r a := by
  rw [step_entries]
  cases a with
  | recordEpair ifaceA uid written => exact iff_of_true (h.record ifaceA uid) trivial
  | forgetPair ifname written =>
      refine iff_of_true ?_ trivial
      simp only [forgetPair]
      split
      · exact h.drop ifname
      · exact h
  | lookup ifname probe written =>
      refine iff_of_true ?_ trivial
      simp only [lookup]
      split
      · exact h
      · split
        · exact h.drop ifname
        · exact h
  | reconcile probe written =>
      cases probe with
      | none => exact iff_of_true h trivial
      | some probe => exact oneOwner_reconcile_iff h probe

/--
In every state of a run both halves of each epair have one owner and the file
form is read back, exactly when no reconciliation of the run gets two answers
about one pair.
-/
theorem one_owner_throughout_iff {start : IfaceOwnerRegistry} (h : OneOwner start.entries)
    (actions : List Action) :
    (∀ before, before <+: actions → OneOwner (run step start before).entries) ↔
      StepsMeet step OneAnswer start actions := by
  have hstep : ∀ (r : IfaceOwnerRegistry) (a : Action), OneOwner r.entries →
      (OneOwner (step r a).entries ↔ OneAnswer r a) := fun _ a hr => oneOwner_step_iff hr a
  exact forall_prefix_good_iff hstep h actions

/-- Two pairs, of which the second has gone when the registry is reconciled. -/
def twoPairs : List Action :=
  [.recordEpair "epair3a" 1001 true, .recordEpair "epair4a" 1002 true,
    .reconcile (some fun _ name => "epair3".toList.isPrefixOf name) true]

theorem one_owner_throughout_twoPairs :
    (∀ before, before <+: twoPairs → OneOwner (run step {} before).entries) ∧
      (run step {} twoPairs).entries.entries =
        [("epair3a".toList, 1001), ("epair3b".toList, 1001)] := by
  have hanswers : ∀ kv ∈ (run step {} (twoPairs.take 2)).entries.entries,
      answer (fun _ name => "epair3".toList.isPrefixOf name)
          (run step {} (twoPairs.take 2)).entries kv.1 =
        answer (fun _ name => "epair3".toList.isPrefixOf name)
          (run step {} (twoPairs.take 2)).entries (peerHalf kv.1) := by
    decide
  have hmeet : StepsMeet step OneAnswer {} twoPairs := by
    refine ⟨trivial, trivial, ?_, trivial⟩
    intro name uid hfind
    exact hanswers (name, uid) (OrdMap.find?_eq_some_iff.mp hfind)
  exact ⟨(one_owner_throughout_iff oneOwner_empty twoPairs).mpr hmeet, by decide⟩

/-- The interface goes away between the two questions: one half stays without the other. -/
theorem half_left_behind :
    ¬∀ actions : List Action, OneOwner (run step {} actions).entries := by
  intro hall
  have hpaired := hall [.recordEpair "epair3a" 1001 true, .reconcile (some fun k _ => k = 0) true]
  have hkept := hpaired.peers "epair3a" 1001 (by decide)
  exact absurd hkept (by decide)

end IfaceOwnerRegistry

end Crate
