import Crate.Firewall.LeaseRegistry
import Crate.Firewall.Slots

/-!
# One space of rule numbers, two allocators

A NAT container that finds no socket of the daemon takes its slot from the file
of `FwSlots`; one that finds a socket gets it with a lease.  Neither table knows
what the other has handed out, and both give slots to the same rule numbers.
-/

namespace Crate.RunCrate

open Crate.Foundation
open Crate.Ctx (FwSlots)

/-! ## Rule numbers -/

def fwSlotSize : UInt32 := 10

def fwRuleRangeInBase : UInt32 := 10000

def fwRuleRangeOutBase : UInt32 := 50000

/-- The numbers of `setupFirewallRules` that depend on the slot. -/
def ruleNumbers (fwSlot : UInt32) : List UInt32 :=
  [fwRuleRangeInBase + fwSlot * fwSlotSize + 1,
   fwRuleRangeInBase + fwSlot * fwSlotSize + 2,
   fwRuleRangeOutBase + fwSlot * fwSlotSize + 1,
   fwRuleRangeOutBase + fwSlot * fwSlotSize + 2]

/-- A number that ipfw can give to a rule; 65535 is its own last rule. -/
def IsRuleNumber (n : UInt32) : Prop := 1 ≤ n.toNat ∧ n.toNat ≤ 65534

/-- The last slot whose numbers are rule numbers. -/
def lastSlot : Nat := 1553

theorem mem_ruleNumbers_iff {slot n : UInt32} (h : slot.toNat ≤ 99999) :
    n ∈ ruleNumbers slot ↔
      n.toNat = 10001 + 10 * slot.toNat ∨ n.toNat = 10002 + 10 * slot.toNat ∨
        n.toNat = 50001 + 10 * slot.toNat ∨ n.toNat = 50002 + 10 * slot.toNat := by
  have hnumber : ∀ base k : UInt32, base.toNat ≤ 50000 → k.toNat ≤ 2 →
      (n = base + slot * fwSlotSize + k ↔ n.toNat = base.toNat + k.toNat + 10 * slot.toNat) := by
    intro base k hbase hk
    have hten : fwSlotSize.toNat = 10 := rfl
    rw [← UInt32.toNat_inj, UInt32.toNat_add, UInt32.toNat_add, UInt32.toNat_mul, hten]
    omega
  simp only [ruleNumbers, List.mem_cons, List.not_mem_nil, or_false]
  rw [hnumber _ 1 (by decide) (by decide), hnumber _ 2 (by decide) (by decide),
    hnumber _ 1 (by decide) (by decide), hnumber _ 2 (by decide) (by decide)]
  exact Iff.rfl

theorem isRuleNumber_iff {slot : UInt32} (h : slot.toNat ≤ 99999) :
    (∀ n ∈ ruleNumbers slot, IsRuleNumber n) ↔ slot.toNat ≤ lastSlot := by
  constructor
  · intro hall
    have hlast := (hall (fwRuleRangeOutBase + slot * fwSlotSize + 2) (by simp [ruleNumbers])).2
    have hmem : fwRuleRangeOutBase + slot * fwSlotSize + 2 ∈ ruleNumbers slot := by
      simp [ruleNumbers]
    rw [mem_ruleNumbers_iff h] at hmem
    have hvalue : (fwRuleRangeOutBase + slot * fwSlotSize + 2).toNat = 50002 + 10 * slot.toNat := by
      have hten : fwSlotSize.toNat = 10 := rfl
      have hbase : fwRuleRangeOutBase.toNat = 50000 := rfl
      have htwo : (2 : UInt32).toNat = 2 := rfl
      rw [UInt32.toNat_add, UInt32.toNat_add, UInt32.toNat_mul, hten, hbase, htwo]
      omega
    simp only [lastSlot]
    omega
  · intro hle n hn
    rw [mem_ruleNumbers_iff h] at hn
    simp only [lastSlot] at hle
    simp only [IsRuleNumber]
    omega

/-- Two slots with rule numbers have different ones exactly when they differ. -/
theorem disjoint_ruleNumbers_iff {s t : UInt32} (hs : s.toNat ≤ lastSlot)
    (ht : t.toNat ≤ lastSlot) :
    (ruleNumbers s).Disjoint (ruleNumbers t) ↔ s.toNat ≠ t.toNat := by
  simp only [lastSlot] at hs ht
  constructor
  · rintro hdisjoint heq
    obtain rfl := UInt32.toNat_inj.mp heq
    exact hdisjoint (List.mem_cons_self) (List.mem_cons_self)
  · intro hne n hns hnt
    rw [mem_ruleNumbers_iff (by omega)] at hns hnt
    omega

/-! ## Processes, jails and the daemon -/

structure Pid where
  val : Int
  isPid : FwSlots.IsPid val

inductive Source where
  | file
  | lease
  deriving DecidableEq, Repr

/-- Where a process stands; `other` is one without a jail of its own. -/
inductive Phase where
  | dead
  | other
  | jailed (jid : Nat)
  /-- It found no socket: its slot will come from the file. -/
  | asked (jid : Nat)
  | running (source : Source) (jid : Nat) (fwSlot : UInt32)
  /-- Its rules are deleted. -/
  | torn (source : Source) (jid : Nat)
  deriving DecidableEq, Repr

def Phase.slot : Phase → Option UInt32
  | .running _ _ fwSlot => some fwSlot
  | _ => none

structure World where
  file : Str
  daemon : FwLeaseRegistry.World
  /-- The daemon runs and its socket is there. -/
  up : Bool
  jails : Nat → Bool
  procs : Int → Phase

def World.alive (w : World) (pid : Int) : Bool := w.procs pid ≠ .dead

inductive Action where
  | spawn (pid : Pid)
  | createJail (pid : Pid) (jid : Nat)
  /-- The run looks for the socket, and asks for a lease when it finds it. -/
  | ask (pid : Pid) (want6 : Bool)
  | allocate (pid : Pid)
  /-- A run in another mode gets a lease without a slot. -/
  | leaseOnly (jid : Nat) (want6 : Bool)
  /-- The jail goes without the daemon. -/
  | removeJail (jid : Nat)
  /-- The daemon destroys the jail, and its lease goes with it. -/
  | destroyJail (jid : Nat)
  | deleteRules (pid : Pid)
  | release (pid : Pid)
  | die (pid : Pid)
  | startDaemon
  | stopDaemon

def enter (w : World) (pid : Pid) (phase : Phase) : World :=
  { w with procs := Function.update w.procs pid.val phase }

/-- `acquire_fw_lease`: the jail has to be there and its jid one that a request can have. -/
def acceptsJid (w : World) (jid : Nat) : Bool := w.jails jid && 1 ≤ jid && jid ≤ 65535

def leaseStep (w : World) (pid : Pid) (jid : Nat) (want6 : Bool) : World :=
  if acceptsJid w jid then
    match FwLeaseRegistry.acquire w.daemon jid true true want6 with
    | (.error _, daemon) => enter { w with daemon := daemon } pid .other
    | (.ok result, daemon) =>
        if result.slot < 0 then enter { w with daemon := daemon } pid .other
        else
          enter { w with daemon := daemon } pid
            (.running .lease jid (UInt32.ofNat result.slot.toNat))
  else enter w pid .other

def allocateStep (w : World) (pid : Pid) (jid : Nat) : World :=
  let (fwSlot, ctx) := FwSlots.allocate FwSlots.lock w.file w.alive pid.val
  enter { w with file := FwSlots.unlock ctx w.file } pid (.running .file jid fwSlot)

def dropLease (w : World) (jid : Nat) : World :=
  if w.up then { w with daemon := (FwLeaseRegistry.release w.daemon jid).2 } else w

def releaseStep (w : World) (pid : Pid) (source : Source) (jid : Nat) : World :=
  match source with
  | .file =>
      let ctx := FwSlots.release FwSlots.lock w.file pid.val
      enter { w with file := FwSlots.unlock ctx w.file } pid .other
  | .lease => enter (dropLease w jid) pid .other

/-- The registry is read from its file, and leases of jails that are gone are dropped. -/
def startDaemon (w : World) : World :=
  let daemon := FwLeaseRegistry.step w.daemon .restart
  { w with daemon := FwLeaseRegistry.step daemon (.reconcile (some w.jails)), up := true }

def step (w : World) : Action → World
  | .spawn pid =>
      match w.procs pid.val with
      | .dead => enter w pid .other
      | _ => w
  | .createJail pid jid =>
      match w.procs pid.val with
      | .other =>
          if w.jails jid then w
          else enter { w with jails := Function.update w.jails jid true } pid (.jailed jid)
      | _ => w
  | .ask pid want6 =>
      match w.procs pid.val with
      | .jailed jid => if w.up then leaseStep w pid jid want6 else enter w pid (.asked jid)
      | _ => w
  | .allocate pid =>
      match w.procs pid.val with
      | .asked jid => allocateStep w pid jid
      | _ => w
  | .leaseOnly jid want6 =>
      if w.up && acceptsJid w jid then
        { w with daemon := (FwLeaseRegistry.acquire w.daemon jid false true want6).2 }
      else w
  | .removeJail jid => { w with jails := Function.update w.jails jid false }
  | .destroyJail jid =>
      if w.up then { dropLease w jid with jails := Function.update w.jails jid false } else w
  | .deleteRules pid =>
      match w.procs pid.val with
      | .running source jid _ => enter w pid (.torn source jid)
      | _ => w
  | .release pid =>
      match w.procs pid.val with
      | .torn source jid => releaseStep w pid source jid
      | _ => w
  | .die pid => enter w pid .dead
  | .startDaemon => if w.up then w else startDaemon w
  | .stopDaemon => { w with up := false }

/-- No container runs, and the daemon is not up yet. -/
def start (k : FwLeaseRegistry.Sysctl) : World :=
  { file := []
    daemon := FwLeaseRegistry.start k
    up := false
    jails := fun _ => false
    procs := fun _ => .dead }

/-! ## What is held -/

/-- The container lives: it has a slot, and its rules are not deleted. -/
def Holds (w : World) (pid : Int) (fwSlot : UInt32) : Prop := (w.procs pid).slot = some fwSlot

def Held (w : World) (n : Nat) : Prop := ∃ pid fwSlot, Holds w pid fwSlot ∧ fwSlot.toNat = n

structure Safe (w : World) : Prop where
  inRange : ∀ pid fwSlot, Holds w pid fwSlot → ∀ n ∈ ruleNumbers fwSlot, IsRuleNumber n
  apart : ∀ p q s t, Holds w p s → Holds w q t → p ≠ q → (ruleNumbers s).Disjoint (ruleNumbers t)

/-- Some process that lives has the slot in the file. -/
def InFile (w : World) (n : Nat) : Prop := FwSlots.InFile w.file w.alive n

def InLeases (w : World) (n : Nat) : Prop := FwLeasePure.Holds w.daemon.registry.state n

/-- A container that got its slot with a lease has it. -/
def HeldByLease (w : World) (n : Nat) : Prop :=
  ∃ pid jid fwSlot, w.procs pid = .running .lease jid fwSlot ∧ fwSlot.toNat = n

/--
When a container takes a slot from the file, each slot that one with a lease has
and the file has not lies above one that the file has not either, and the file
has a gap up to the last slot.  When it takes a slot with a lease, no container
has the slot that its jid has from an earlier lease; or, if there is none, each
slot below 1500 that a container has and the leases have not lies above one that
they have not either.
-/
def TablesAgree (w : World) : Action → Prop
  | .allocate pid => ∀ jid, w.procs pid.val = .asked jid →
      (∀ n, HeldByLease w n → ¬InFile w n → ∃ k, k < n ∧ ¬InFile w k) ∧
        ∃ k, k ≤ lastSlot ∧ ¬InFile w k
  | .ask pid _ => ∀ jid, w.procs pid.val = .jailed jid → w.up = true → acceptsJid w jid = true →
      let slot := (FwLeasePure.leaseOf w.daemon.registry.state jid).slot
      (0 ≤ slot → ¬Held w slot.toNat) ∧
        (slot < 0 → ∀ n, n < FwLeasePure.kMaxSlots → Held w n → ¬InLeases w n →
          ∃ k, k < n ∧ ¬InLeases w k)
  | _ => True

/-! ## The tables through a run -/

structure Inv (w : World) : Prop where
  kept : FwLeaseRegistry.Kept w.daemon
  pids : ∀ kv ∈ (FwSlots.stored w.file).entries, FwSlots.IsPid kv.1
  small : ∀ pid fwSlot, Holds w pid fwSlot → fwSlot.toNat ≤ 99999
  inFile : ∀ pid jid fwSlot, w.procs pid = .running .file jid fwSlot →
    (FwSlots.stored w.file).find? pid = some fwSlot

theorem inv_start (k : FwLeaseRegistry.Sysctl) : Inv (start k) where
  kept := FwLeaseRegistry.kept_start k
  pids := by
    intro kv hkv
    exact absurd hkv List.not_mem_nil
  small := by
    intro pid fwSlot h
    contradiction
  inFile := by
    intro pid jid fwSlot h
    contradiction

theorem holds_enter {w : World} {pid : Pid} {phase : Phase} {q : Int} {s : UInt32} :
    Holds (enter w pid phase) q s ↔ if q = pid.val then phase.slot = some s else Holds w q s := by
  by_cases hq : q = pid.val
  · subst hq
    simp only [Holds, enter, Function.update_self, if_true]
  · simp only [Holds, enter, Function.update_of_ne hq, if_neg hq]

theorem Inv.enter {w : World} (h : Inv w) {w' : World} {pid : Pid} {phase : Phase}
    (hprocs : w'.procs = w.procs) (hkept : FwLeaseRegistry.Kept w'.daemon)
    (hpids : ∀ kv ∈ (FwSlots.stored w'.file).entries, FwSlots.IsPid kv.1)
    (hothers : ∀ p s, p ≠ pid.val → w.alive p = true → (FwSlots.stored w.file).find? p = some s →
      (FwSlots.stored w'.file).find? p = some s)
    (hsmall : ∀ s, phase.slot = some s → s.toNat ≤ 99999)
    (hmine : ∀ jid s, phase = .running .file jid s →
      (FwSlots.stored w'.file).find? pid.val = some s) :
    Inv (enter w' pid phase) where
  kept := hkept
  pids := hpids
  small q s hq := by
    rw [holds_enter] at hq
    split at hq
    · exact hsmall s hq
    · exact h.small q s (by rwa [Holds, ← hprocs])
  inFile q jid s hq := by
    simp only [RunCrate.enter] at hq
    by_cases hqp : q = pid.val
    · subst hqp
      rw [Function.update_self] at hq
      exact hmine jid s hq
    · rw [Function.update_of_ne hqp, hprocs] at hq
      exact hothers q s hqp (by simp [World.alive, hq]) (h.inFile q jid s hq)

theorem Inv.enter_same {w : World} (h : Inv w) {w' : World} {pid : Pid} {phase : Phase}
    (hprocs : w'.procs = w.procs) (hfile : w'.file = w.file)
    (hkept : FwLeaseRegistry.Kept w'.daemon)
    (hsmall : ∀ s, phase.slot = some s → s.toNat ≤ 99999)
    (hmine : ∀ jid s, phase ≠ .running .file jid s) : Inv (RunCrate.enter w' pid phase) := by
  refine h.enter hprocs hkept ?_ ?_ hsmall (fun jid s hphase => absurd hphase (hmine jid s))
  · rw [hfile]
    exact h.pids
  · intro p s _ _ hp
    rw [hfile]
    exact hp

theorem Inv.daemon {w : World} (h : Inv w) {daemon : FwLeaseRegistry.World} {up : Bool}
    {jails : Nat → Bool} (hkept : FwLeaseRegistry.Kept daemon) :
    Inv { w with daemon := daemon, up := up, jails := jails } where
  kept := hkept
  pids := h.pids
  small := h.small
  inFile := h.inFile

theorem kept_acquire {w : World} (h : Inv w) {jid : Nat} (hjid : acceptsJid w jid = true)
    (wantSlot want6 : Bool) :
    FwLeaseRegistry.Kept (FwLeaseRegistry.acquire w.daemon jid wantSlot true want6).2 := by
  simp only [acceptsJid, Bool.and_eq_true, decide_eq_true_eq] at hjid
  exact h.kept.step (.acquire ⟨jid, hjid.1.2, hjid.2⟩ wantSlot true want6)

theorem kept_dropLease {w : World} (h : Inv w) (jid : Nat) :
    FwLeaseRegistry.Kept (dropLease w jid).daemon := by
  unfold dropLease
  split
  · exact h.kept.step (.release jid)
  · exact h.kept

/-- What can come of asking for a lease: nothing, or a slot by the rule of `SlotGranted`. -/
theorem leaseStep_cases {w : World} (h : Inv w) (pid : Pid) (jid : Nat) (want6 : Bool) :
    ∃ daemon, FwLeaseRegistry.Kept daemon ∧
      ((leaseStep w pid jid want6 = enter { w with daemon := daemon } pid .other ∧
          (acceptsJid w jid = true →
            (FwLeasePure.leaseOf w.daemon.registry.state jid).slot < 0 ∧
              FwLeasePure.AllHeld w.daemon.registry.state)) ∨
        ∃ slot, 0 ≤ slot ∧ acceptsJid w jid = true ∧
          FwLeasePure.SlotGranted w.daemon.registry.state jid true slot ∧
          leaseStep w pid jid want6 = enter { w with daemon := daemon } pid
            (.running .lease jid (UInt32.ofNat slot.toNat))) := by
  by_cases hjid : acceptsJid w jid = true
  · have hkept := kept_acquire h hjid true want6
    refine ⟨_, hkept, ?_⟩
    unfold leaseStep
    rw [if_pos hjid]
    rcases FwLeasePure.acquire_cases w.daemon.registry.state jid true true want6 with
      ⟨-, hnone, hall, heq⟩ | ⟨slot, hgranted, heq⟩
    · left
      refine ⟨?_, fun _ => ⟨hnone, hall⟩⟩
      simp only [FwLeaseRegistry.acquire, heq]
    · right
      have hpos : 0 ≤ slot := by
        rcases hgranted with ⟨-, hpos⟩ | ⟨-, -, hfree⟩
        · exact hpos rfl
        · exact hfree.nonneg
      refine ⟨slot, hpos, hjid, hgranted, ?_⟩
      simp only [FwLeaseRegistry.acquire, heq _ rfl, FwLeasePure.granted, not_lt.mpr hpos, if_false]
  · refine ⟨w.daemon, h.kept, .inl ⟨?_, fun hyes => absurd hyes hjid⟩⟩
    rw [leaseStep, if_neg hjid]

theorem slot_of_granted {w : World} (h : Inv w) {jid : Nat} {slot : Int}
    (hslot : FwLeasePure.SlotGranted w.daemon.registry.state jid true slot) (hpos : 0 ≤ slot) :
    slot < FwLeasePure.kMaxSlots ∧ (UInt32.ofNat slot.toNat).toNat = slot.toNat := by
  have hmax : slot < FwLeasePure.kMaxSlots := by
    rcases hslot.inRange h.kept.wellFormed.toInRange with hnone | ⟨-, hmax⟩
    · omega
    · exact hmax
  refine ⟨hmax, UInt32.toNat_ofNat_of_lt' ?_⟩
  simp only [FwLeasePure.kMaxSlots] at hmax
  have hsize : UInt32.size = 4294967296 := rfl
  omega

theorem inv_leaseStep {w : World} (h : Inv w) (pid : Pid) (jid : Nat) (want6 : Bool) :
    Inv (leaseStep w pid jid want6) := by
  obtain ⟨daemon, hkept, ⟨heq, -⟩ | ⟨slot, hpos, -, hgranted, heq⟩⟩ :=
    leaseStep_cases h pid jid want6
  · rw [heq]
    exact h.enter_same rfl rfl hkept (fun s hs => by cases hs) (fun _ _ hphase => by cases hphase)
  · rw [heq]
    obtain ⟨hmax, hvalue⟩ := slot_of_granted h hgranted hpos
    refine h.enter_same rfl rfl hkept ?_ (fun _ _ hphase => by cases hphase)
    intro s hs
    cases hs
    simp only [FwLeasePure.kMaxSlots] at hmax
    omega

theorem allocateStep_spec {w : World} (h : Inv w) (pid : Pid) (jid : Nat) :
    ∃ file, FwSlots.stored file = (FwSlots.live w.file w.alive).insert pid.val
          (FwSlots.nextSlot w.file w.alive) ∧
      allocateStep w pid jid = enter { w with file := file } pid
        (.running .file jid (FwSlots.nextSlot w.file w.alive)) :=
  ⟨_, FwSlots.stored_allocate pid.isPid h.pids, rfl⟩

theorem inv_allocateStep {w : World} (h : Inv w) (pid : Pid) (jid : Nat) :
    Inv (allocateStep w pid jid) := by
  obtain ⟨file, hstored, heq⟩ := allocateStep_spec h pid jid
  rw [heq]
  obtain ⟨-, hle⟩ := FwSlots.nextSlot_lowest w.alive h.pids
  refine h.enter rfl h.kept ?_ ?_ ?_ ?_
  · intro kv hkv
    dsimp only at hkv
    rw [hstored] at hkv
    rcases OrdMap.mem_insertEntry hkv with rfl | hkv
    · exact pid.isPid
    · exact FwSlots.isPid_of_mem_live h.pids kv hkv
  · intro p s hp halive hfind
    dsimp only
    rw [hstored, OrdMap.find?_insert_ne (Ne.symm hp)]
    exact FwSlots.find?_live.mpr ⟨hfind, halive⟩
  · intro s hs
    cases hs
    exact hle
  · intro j s hphase
    cases hphase
    dsimp only
    rw [hstored, OrdMap.find?_insert_self]

theorem inv_releaseStep {w : World} (h : Inv w) (pid : Pid) (source : Source) (jid : Nat) :
    Inv (releaseStep w pid source jid) := by
  cases source with
  | file =>
      have hstored := FwSlots.stored_release h.pids pid.val
      refine h.enter rfl h.kept ?_ ?_ (fun s hs => by cases hs) (fun _ _ hphase => by cases hphase)
      · intro kv hkv
        dsimp only at hkv
        rw [hstored] at hkv
        exact h.pids kv (List.mem_filter.mp hkv).1
      · intro p s hp _ hfind
        dsimp only
        rw [hstored, OrdMap.find?_erase, if_neg hp]
        exact hfind
  | lease =>
      have hsame : (dropLease w jid).procs = w.procs ∧ (dropLease w jid).file = w.file := by
        unfold dropLease
        split <;> exact ⟨rfl, rfl⟩
      exact h.enter_same hsame.1 hsame.2 (kept_dropLease h jid) (fun s hs => by cases hs)
        (fun _ _ hphase => by cases hphase)

theorem inv_step (w : World) (a : Action) (h : Inv w) : Inv (step w a) := by
  have hidle : ∀ (pid : Pid) (phase : Phase), phase.slot = none → Inv (enter w pid phase) := by
    intro pid phase hphase
    refine h.enter_same rfl rfl h.kept (fun s hs => ?_) (fun jid s hs => ?_)
    · rw [hphase] at hs
      cases hs
    · rw [hs] at hphase
      cases hphase
  cases a with
  | spawn pid =>
      unfold step
      dsimp only
      split
      · exact hidle pid .other rfl
      · exact h
  | createJail pid jid =>
      unfold step
      dsimp only
      split
      · split
        · exact h
        · exact h.enter_same rfl rfl h.kept (fun s hs => by cases hs)
            (fun _ _ hphase => by cases hphase)
      · exact h
  | ask pid want6 =>
      unfold step
      dsimp only
      split
      · split
        · exact inv_leaseStep h pid _ want6
        · exact hidle pid _ rfl
      · exact h
  | allocate pid =>
      unfold step
      dsimp only
      split
      · exact inv_allocateStep h pid _
      · exact h
  | leaseOnly jid want6 =>
      unfold step
      dsimp only
      split
      · rename_i hyes
        simp only [Bool.and_eq_true] at hyes
        exact h.daemon (kept_acquire h hyes.2 false want6)
      · exact h
  | removeJail jid => exact h.daemon h.kept
  | destroyJail jid =>
      unfold step
      dsimp only
      split
      · have hfields : dropLease w jid = { w with daemon := (dropLease w jid).daemon } := by
          unfold dropLease
          split <;> rfl
        rw [hfields]
        exact h.daemon (kept_dropLease h jid)
      · exact h
  | deleteRules pid =>
      unfold step
      dsimp only
      split
      · exact hidle pid _ rfl
      · exact h
  | release pid =>
      unfold step
      dsimp only
      split
      · exact inv_releaseStep h pid _ _
      · exact h
  | die pid => exact hidle pid .dead rfl
  | startDaemon =>
      unfold step
      dsimp only
      split
      · exact h
      · exact h.daemon ((h.kept.step .restart).step (.reconcile (some w.jails)))
  | stopDaemon => exact h.daemon h.kept

/-! ## When a slot is safe to take -/

theorem safe_of_holds {w w' : World} (h : Safe w)
    (hsub : ∀ pid s, Holds w' pid s → Holds w pid s) : Safe w' where
  inRange pid s hs := h.inRange pid s (hsub pid s hs)
  apart p q s t hs ht := h.apart p q s t (hsub p s hs) (hsub q t ht)

theorem safe_enter_of_none {w : World} (h : Safe w) (w' : World) (hprocs : w'.procs = w.procs)
    (pid : Pid) {phase : Phase} (hphase : phase.slot = none) : Safe (enter w' pid phase) := by
  apply safe_of_holds h
  intro q s hq
  rw [holds_enter] at hq
  split at hq
  · rw [hphase] at hq
    cases hq
  · rwa [Holds, ← hprocs]

theorem safe_enter_iff {w : World} (h : Inv w) (hsafe : Safe w) (w' : World)
    (hprocs : w'.procs = w.procs) {pid : Pid} {phase : Phase} {slot : UInt32}
    (hphase : phase.slot = some slot)
    (hidle : (w.procs pid.val).slot = none) (hsmall : slot.toNat ≤ 99999) :
    Safe (enter w' pid phase) ↔ slot.toNat ≤ lastSlot ∧ ¬Held w slot.toNat := by
  have hself : ∀ s, Holds (enter w' pid phase) pid.val s ↔ s = slot := by
    intro s
    rw [holds_enter, if_pos rfl, hphase, Option.some.injEq, eq_comm]
  have hother : ∀ q s, q ≠ pid.val → (Holds (enter w' pid phase) q s ↔ Holds w q s) := by
    intro q s hq
    rw [holds_enter, if_neg hq, Holds, Holds, hprocs]
  have hlow : ∀ q s, Holds w q s → s.toNat ≤ lastSlot := fun q s hq =>
    (isRuleNumber_iff (h.small q s hq)).mp (hsafe.inRange q s hq)
  have hne : ∀ q s, Holds w q s → q ≠ pid.val := by
    rintro q s hq rfl
    rw [Holds, hidle] at hq
    cases hq
  constructor
  · intro hnew
    have hmine := (hself slot).mpr rfl
    have hle := (isRuleNumber_iff hsmall).mp (hnew.inRange _ _ hmine)
    refine ⟨hle, ?_⟩
    rintro ⟨q, s, hq, hvalue⟩
    have hdisjoint := hnew.apart q pid.val s slot ((hother q s (hne q s hq)).mpr hq) hmine
      (hne q s hq)
    exact (disjoint_ruleNumbers_iff (hlow q s hq) hle).mp hdisjoint hvalue
  · rintro ⟨hle, hfree⟩
    have hapart : ∀ q s, Holds w q s → (ruleNumbers s).Disjoint (ruleNumbers slot) := by
      intro q s hq
      rw [disjoint_ruleNumbers_iff (hlow q s hq) hle]
      exact fun hvalue => hfree ⟨q, s, hq, hvalue⟩
    constructor
    · intro q s hq
      by_cases hqp : q = pid.val
      · subst hqp
        rw [(hself s).mp hq]
        exact (isRuleNumber_iff hsmall).mpr hle
      · exact hsafe.inRange q s ((hother q s hqp).mp hq)
    · intro p q s t hp hq hpq
      by_cases hpp : p = pid.val
      · subst hpp
        rw [(hself s).mp hp]
        exact (hapart q t ((hother q t (Ne.symm hpq)).mp hq)).symm
      · by_cases hqp : q = pid.val
        · subst hqp
          rw [(hself t).mp hq]
          exact hapart p s ((hother p s hpp).mp hp)
        · exact hsafe.apart p q s t ((hother p s hpp).mp hp) ((hother q t hqp).mp hq) hpq

/-- A container with a slot of the file is in the file. -/
theorem inFile_or_heldByLease {w : World} (h : Inv w) {n : Nat} (hn : Held w n) :
    InFile w n ∨ HeldByLease w n := by
  obtain ⟨pid, s, hholds, hvalue⟩ := hn
  unfold Holds at hholds
  cases hproc : w.procs pid with
  | running source jid slot =>
      rw [hproc] at hholds
      cases hholds
      cases source with
      | file =>
          have halive : w.alive pid = true := by
            simp [World.alive, hproc]
          exact .inl ⟨pid, s, FwSlots.find?_live.mpr ⟨h.inFile pid jid s hproc, halive⟩, hvalue⟩
      | lease => exact .inr ⟨pid, jid, s, hproc, hvalue⟩
  | dead | other | jailed | asked | torn =>
      rw [hproc] at hholds
      cases hholds

theorem HeldByLease.held {w : World} {n : Nat} (h : HeldByLease w n) : Held w n := by
  obtain ⟨pid, jid, s, hproc, hvalue⟩ := h
  refine ⟨pid, s, ?_, hvalue⟩
  rw [Holds, hproc]
  rfl

theorem safe_allocate_iff {w : World} (h : Inv w) (hsafe : Safe w) {pid : Pid} {jid : Nat}
    (hproc : w.procs pid.val = .asked jid) :
    Safe (allocateStep w pid jid) ↔
      (∀ n, HeldByLease w n → ¬InFile w n → ∃ k, k < n ∧ ¬InFile w k) ∧
        ∃ k, k ≤ lastSlot ∧ ¬InFile w k := by
  obtain ⟨hlowest, hsmall⟩ := FwSlots.nextSlot_lowest w.alive h.pids
  have hidle : (w.procs pid.val).slot = none := by
    rw [hproc]
    rfl
  obtain ⟨file, -, heq⟩ := allocateStep_spec h pid jid
  rw [heq, safe_enter_iff h hsafe { w with file := file } rfl rfl hidle hsmall, and_comm]
  refine and_congr ?_ ?_
  · constructor
    · intro hfree n hheld hnot
      have hgap := hlowest.not_held_iff.mp hfree n (Nat.zero_le n) hheld.held hnot
      obtain ⟨k, -, hk, hkfree⟩ := hgap
      exact ⟨k, hk, hkfree⟩
    · intro hall
      refine hlowest.not_held_iff.mpr (fun n _ hheld hnot => ?_)
      have hlease := (inFile_or_heldByLease h hheld).resolve_left hnot
      obtain ⟨k, hk, hkfree⟩ := hall n hlease hnot
      exact ⟨k, Nat.zero_le k, hk, hkfree⟩
  · constructor
    · intro hle
      exact ⟨_, hle, hlowest.free⟩
    · rintro ⟨k, hk, hkfree⟩
      by_contra hgt
      exact hkfree (hlowest.below k (Nat.zero_le k) (by omega))

/-- The smallest free slot of a lease is the lowest that the leases have not. -/
theorem lowest_of_smallestFree {s : FwLeasePure.State} {slot : Int}
    (h : FwLeasePure.SmallestFree s slot) :
    IsLowestFree (fun n : Nat => FwLeasePure.Holds s n) 0 slot.toNat where
  base_le := Nat.zero_le _
  free hheld := h.free (by rwa [Int.toNat_of_nonneg h.nonneg] at hheld)
  below k _ hk := h.below k (Int.natCast_nonneg k) (by omega)

theorem safe_lease_iff {w : World} (h : Inv w) (hsafe : Safe w) {pid : Pid} {jid : Nat}
    {want6 : Bool} (hproc : w.procs pid.val = .jailed jid) :
    Safe (leaseStep w pid jid want6) ↔ (acceptsJid w jid = true →
      (0 ≤ (FwLeasePure.leaseOf w.daemon.registry.state jid).slot →
          ¬Held w (FwLeasePure.leaseOf w.daemon.registry.state jid).slot.toNat) ∧
        ((FwLeasePure.leaseOf w.daemon.registry.state jid).slot < 0 →
          ∀ n, n < FwLeasePure.kMaxSlots → Held w n → ¬InLeases w n →
            ∃ k, k < n ∧ ¬InLeases w k)) := by
  obtain ⟨daemon, hkept, ⟨heq, hnone⟩ | ⟨slot, hpos, hjid, hgranted, heq⟩⟩ :=
    leaseStep_cases h pid jid want6
  · rw [heq]
    refine iff_of_true (safe_enter_of_none hsafe { w with daemon := daemon } rfl pid rfl)
      (fun hjid => ?_)
    obtain ⟨hneg, hall⟩ := hnone hjid
    exact ⟨fun hpos => absurd hneg (by omega), fun _ n hn _ hfree => absurd (hall n hn) hfree⟩
  · obtain ⟨hmax, hvalue⟩ := slot_of_granted h hgranted hpos
    simp only [FwLeasePure.kMaxSlots] at hmax
    have hlast : slot.toNat ≤ lastSlot := by
      simp only [lastSlot]
      omega
    have hidle : (w.procs pid.val).slot = none := by
      rw [hproc]
      rfl
    have hsmall : (UInt32.ofNat slot.toNat).toNat ≤ 99999 := by
      rw [hvalue]
      omega
    rw [heq, safe_enter_iff h hsafe { w with daemon := daemon } rfl rfl hidle hsmall, hvalue,
      and_iff_right hlast]
    simp only [hjid, forall_const]
    rcases hgranted with ⟨rfl, -⟩ | ⟨-, hneg, hfree⟩
    · exact ⟨fun hnot => ⟨fun _ => hnot, fun hneg => absurd hneg (by omega)⟩,
        fun hboth => hboth.1 hpos⟩
    · have hlowest := lowest_of_smallestFree hfree
      constructor
      · intro hnot
        refine ⟨fun hold => absurd hneg (by omega), fun _ n hn hheld hn' => ?_⟩
        obtain ⟨k, -, hk, hkfree⟩ := hlowest.not_held_iff.mp hnot n (Nat.zero_le n) hheld hn'
        exact ⟨k, hk, hkfree⟩
      · rintro ⟨-, hall⟩ hheld
        have hin : slot.toNat < FwLeasePure.kMaxSlots := by
          simp only [FwLeasePure.kMaxSlots]
          omega
        obtain ⟨k, hk, hkfree⟩ := hall hneg _ hin hheld hlowest.free
        exact hkfree (hlowest.below k (Nat.zero_le k) hk)

theorem safe_step_iff {w : World} (h : Inv w) (hsafe : Safe w) (a : Action) :
    Safe (step w a) ↔ TablesAgree w a := by
  have hsame : ∀ daemon up jails,
      Safe { w with daemon := daemon, up := up, jails := jails } := fun _ _ _ =>
    safe_of_holds hsafe (fun _ _ hholds => hholds)
  have hidle : ∀ (w' : World) (pid : Pid) (phase : Phase), w'.procs = w.procs →
      phase.slot = none → Safe (enter w' pid phase) := fun w' pid _ hprocs hphase =>
    safe_enter_of_none hsafe w' hprocs pid hphase
  have hdrop : ∀ jid, (dropLease w jid).procs = w.procs := by
    intro jid
    unfold dropLease
    split <;> rfl
  cases a with
  | ask pid want6 =>
      unfold step TablesAgree
      dsimp only
      cases hproc : w.procs pid.val with
      | jailed jid =>
          dsimp only
          cases hup : w.up with
          | true =>
              simp only [if_true, Phase.jailed.injEq, forall_eq', forall_const]
              exact safe_lease_iff h hsafe hproc
          | false =>
              simp only [Bool.false_eq_true, if_false, false_implies, implies_true, iff_true]
              exact hidle w pid _ rfl rfl
      | dead | other | asked | running | torn => exact iff_of_true hsafe (fun _ hjid => by cases hjid)
  | allocate pid =>
      unfold step TablesAgree
      dsimp only
      cases hproc : w.procs pid.val with
      | asked jid =>
          simp only [Phase.asked.injEq, forall_eq']
          exact safe_allocate_iff h hsafe hproc
      | dead | other | jailed | running | torn =>
          exact iff_of_true hsafe (fun _ hjid => by cases hjid)
  | spawn pid =>
      refine iff_of_true ?_ trivial
      unfold step
      dsimp only
      split
      · exact hidle w pid _ rfl rfl
      · exact hsafe
  | createJail pid jid =>
      refine iff_of_true ?_ trivial
      unfold step
      dsimp only
      split
      · split
        · exact hsafe
        · exact hidle _ pid _ rfl rfl
      · exact hsafe
  | leaseOnly jid want6 =>
      refine iff_of_true ?_ trivial
      unfold step
      dsimp only
      split
      · exact hsame _ _ _
      · exact hsafe
  | removeJail jid => exact iff_of_true (hsame _ _ _) trivial
  | destroyJail jid =>
      refine iff_of_true ?_ trivial
      unfold step
      dsimp only
      split
      · refine safe_of_holds hsafe (fun pid s hs => ?_)
        rwa [Holds, hdrop] at hs
      · exact hsafe
  | deleteRules pid =>
      refine iff_of_true ?_ trivial
      unfold step
      dsimp only
      split
      · exact hidle w pid _ rfl rfl
      · exact hsafe
  | release pid =>
      refine iff_of_true ?_ trivial
      unfold step
      dsimp only
      split
      · rename_i source jid _
        cases source with
        | file => exact hidle _ pid _ rfl rfl
        | lease => exact hidle _ pid _ (hdrop jid) rfl
      · exact hsafe
  | die pid => exact iff_of_true (hidle w pid _ rfl rfl) trivial
  | startDaemon =>
      refine iff_of_true ?_ trivial
      unfold step
      dsimp only
      split
      · exact hsafe
      · exact hsame _ _ _
  | stopDaemon => exact iff_of_true (hsame _ _ _) trivial

theorem safe_start (k : FwLeaseRegistry.Sysctl) : Safe (start k) where
  inRange := by
    intro pid s h
    contradiction
  apart := by
    intro p q s t h
    contradiction

/--
In a run all containers that live have rule numbers of their own exactly when the
tables agree, each time a slot is taken, with what is held.
-/
theorem rule_numbers_apart_iff (k : FwLeaseRegistry.Sysctl) (actions : List Action) :
    (∀ before, before <+: actions → Safe (run step (start k) before)) ↔
      StepsMeet step TablesAgree (start k) actions := by
  refine forall_prefix_good_iff_of_inv ?_ ?_ (inv_start k) (safe_start k) actions
  · intro w a hinv _ _
    exact inv_step w a hinv
  · intro w a hinv hsafe
    exact safe_step_iff hinv hsafe a

set_option maxRecDepth 4000 in
/-- The daemon comes up between two containers: both get slot 0. -/
theorem slot_shared :
    ¬∀ (k : FwLeaseRegistry.Sysctl) (actions before : List Action), before <+: actions →
      Safe (run step (start k) before) := by
  intro hall
  let first : Pid := ⟨100, by decide, by decide⟩
  let second : Pid := ⟨200, by decide, by decide⟩
  let actions : List Action := [.spawn first, .createJail first 1, .ask first false,
    .allocate first, .startDaemon, .spawn second, .createJail second 2, .ask second false]
  have hsafe := hall ⟨0, 0⟩ actions actions (List.prefix_refl _)
  have hfirst : (run step (start ⟨0, 0⟩) actions).procs 100 = .running .file 1 0 := by
    decide
  have hsecond : (run step (start ⟨0, 0⟩) actions).procs 200 = .running .lease 2 0 := by
    decide
  have hdisjoint := hsafe.apart 100 200 0 0 (by rw [Holds, hfirst]; rfl)
    (by rw [Holds, hsecond]; rfl) (by decide)
  exact hdisjoint List.mem_cons_self List.mem_cons_self

end Crate.RunCrate
