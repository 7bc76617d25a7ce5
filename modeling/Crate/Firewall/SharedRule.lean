import Crate.Firewall.Forwarding

/-!
# The shared outbound NAT rule

Several rootless `crate run` processes and one daemon.  Each process acquires a
firewall lease, sets its firewall up, and later returns the lease; the daemon
answers with the number of leases that refer to IPv4 forwarding.  A process
installs the shared rule when it was the first such lease and removes it when
none is left, although containers of every network mode are counted and only
NAT containers with outbound access need the rule.
-/

namespace Crate.RunNet

open Crate.Foundation
open Crate.FwLeaseRegistry (Sysctl Family users Referenced)

inductive NetMode where
  | nat
  | bridge
  | passthrough
  | netgraph
  deriving DecidableEq, Repr

structure Container where
  mode : NetMode
  allowOutbound : Bool
  ipv6 : Bool
  deriving DecidableEq, Repr

def Container.isNatMode (c : Container) : Bool := c.mode = .nat

def Container.needsOutRule (c : Container) : Bool := c.isNatMode && c.allowOutbound

/-- Where one `crate run` stands; the numbers are the `fwd4_users` of the daemon's answers. -/
inductive Phase where
  | idle
  | acquired (c : Container) (fwd4Users : Nat)
  | installed (c : Container)
  | ready (c : Container)
  | destroyed (c : Container)
  | released (c : Container) (fwd4Users : Nat)
  deriving DecidableEq, Repr

/-- The daemon, the processes by the jid of their jail, and the rule at the OUT base number. -/
structure World where
  daemon : FwLeaseRegistry.World
  procs : Nat → Phase
  rule : Bool

/-- 1 means that this process installs the shared rule, 2 that another one has. -/
def sharedMode (fwd4Users : Nat) : Nat := if fwd4Users = 1 then 1 else 2

inductive Action where
  | acquire (jid : Nat) (c : Container)
  | install (jid : Nat)
  | finish (jid : Nat)
  | destroyJail (jid : Nat)
  | release (jid : Nat)
  | remove (jid : Nat)
  deriving DecidableEq, Repr

def enter (w : World) (jid : Nat) (phase : Phase) : World :=
  { w with procs := Function.update w.procs jid phase }

/-- `acquire_fw_lease`; an error ends the run. -/
def acquireLease (w : World) (jid : Nat) (c : Container) : World :=
  match FwLeaseRegistry.acquire w.daemon jid c.isNatMode true (c.isNatMode && c.ipv6) with
  | (.error _, d) => { w with daemon := d }
  | (.ok r, d) =>
      if c.isNatMode && r.slot < 0 then { w with daemon := d }
      else enter { w with daemon := d } jid (.acquired c r.fwd4Users)

/-- The common OUT rules of `setupFirewallRules`, which only NAT mode calls. -/
def setupCommonOutRule (w : World) (jid : Nat) (c : Container) (fwd4Users : Nat) : World :=
  let install := c.isNatMode && c.allowOutbound && sharedMode fwd4Users = 1
  enter { w with rule := w.rule || install } jid (.installed c)

/-- `release_fw_lease`, with the answer kept for the removal. -/
def releaseLease (w : World) (jid : Nat) (c : Container) : World :=
  let (r, d) := FwLeaseRegistry.release w.daemon jid
  enter { w with daemon := d } jid (.released c r.fwd4Users)

/-- `destroy_jail` returns the lease too, and its answer does not carry a number. -/
def destroyJail (w : World) (jid : Nat) (c : Container) : World :=
  enter { w with daemon := (FwLeaseRegistry.release w.daemon jid).2 } jid (.destroyed c)

def removeCommonOutRule (w : World) (jid : Nat) (c : Container) (fwd4Users : Nat) : World :=
  enter { w with rule := w.rule && !(c.isNatMode && fwd4Users = 0) } jid .idle

/-- A run that fails returns its lease from whatever phase it has reached. -/
def step (w : World) : Action → World
  | .acquire jid c =>
      match w.procs jid with
      | .idle => acquireLease w jid c
      | _ => w
  | .install jid =>
      match w.procs jid with
      | .acquired c fwd4Users => setupCommonOutRule w jid c fwd4Users
      | _ => w
  | .finish jid =>
      match w.procs jid with
      | .installed c => enter w jid (.ready c)
      | _ => w
  | .destroyJail jid =>
      match w.procs jid with
      | .acquired c _ | .installed c | .ready c => destroyJail w jid c
      | _ => w
  | .release jid =>
      match w.procs jid with
      | .acquired c _ | .installed c | .ready c | .destroyed c => releaseLease w jid c
      | _ => w
  | .remove jid =>
      match w.procs jid with
      | .released c fwd4Users => removeCommonOutRule w jid c fwd4Users
      | _ => w

def start (k : Sysctl) : World :=
  { daemon := FwLeaseRegistry.start k, procs := fun _ => .idle, rule := false }

/-- The rule is installed whenever a container that needs it is set up and holds its lease. -/
def RuleWhereNeeded (w : World) : Prop :=
  ∀ jid c, w.procs jid = .ready c → c.needsOutRule = true → w.rule = true

/-! ## The daemon's answers -/

theorem acquire_answers (d : FwLeaseRegistry.World) (jid : Nat) (wantSlot want6 : Bool) :
    (∃ err, FwLeaseRegistry.acquire d jid wantSlot true want6 = (.error err, d)) ∨
    ∃ r d' e, FwLeaseRegistry.acquire d jid wantSlot true want6 = (.ok r, d') ∧
      d'.registry.state.leases = d.registry.state.leases.insert jid e ∧ e.fwd4 = true ∧
      r.fwd4Users = users d'.registry.state .v4 ∧ (wantSlot = true → 0 ≤ r.slot) := by
  rcases FwLeasePure.acquire_cases d.registry.state jid wantSlot true want6 with
    ⟨-, -, -, heq⟩ | ⟨slot, hslot, heq⟩
  · left
    simp only [FwLeaseRegistry.acquire, heq]
    exact ⟨_, rfl⟩
  · right
    have hgranted : (FwLeasePure.granted d.registry.state jid true want6 slot).fwd4 = true := by
      simp [FwLeasePure.granted]
    have hpos : wantSlot = true → 0 ≤ slot := by
      intro hwant
      rcases hslot with ⟨-, hhas⟩ | ⟨-, -, hfree⟩
      · exact hhas hwant
      · exact hfree.nonneg
    simp only [FwLeaseRegistry.acquire, heq _ rfl]
    exact ⟨_, _, FwLeasePure.granted d.registry.state jid true want6 slot, rfl, rfl, hgranted, rfl,
      hpos⟩

theorem release_answers (d : FwLeaseRegistry.World) (jid : Nat) :
    (FwLeaseRegistry.release d jid).2.registry.state.leases =
        d.registry.state.leases.erase jid ∧
      (FwLeaseRegistry.release d jid).1.fwd4Users =
        users (FwLeaseRegistry.release d jid).2.registry.state .v4 := by
  refine ⟨?_, rfl⟩
  cases hfind : d.registry.state.leases.find? jid with
  | none =>
      have hsame : d.registry.state.leases.erase jid = d.registry.state.leases := by
        apply OrdMap.ext_find?
        intro other
        rw [OrdMap.find?_erase]
        split
        · rename_i heq
          rw [heq, hfind]
        · rfl
      rw [hsame]
      simp [FwLeaseRegistry.release, FwLeasePure.release, hfind]
  | some e => simp [FwLeaseRegistry.release, FwLeasePure.release, hfind, FwLeaseRegistry.commit,
      FwLeaseRegistry.applyTransition, FwLeaseRegistry.persist]

/-! ## The invariant -/

def Phase.holder : Phase → Option Container
  | .acquired c _ | .installed c | .ready c => some c
  | _ => none

/-- A NAT container has been told that it was the last user and has not removed the rule yet. -/
def RemovalPending (w : World) : Prop :=
  ∃ jid c, w.procs jid = .released c 0 ∧ c.isNatMode = true

structure Inv (w : World) : Prop where
  leases : ∀ jid, (w.daemon.registry.state.leases.find? jid).isSome = (w.procs jid).holder.isSome
  fwd4 : ∀ jid e, w.daemon.registry.state.leases.find? jid = some e → e.fwd4 = true
  rule : ∀ jid c, (w.procs jid).holder = some c → c.needsOutRule = true →
    w.rule = true ∨ w.procs jid = .acquired c 1
  pending : RemovalPending w → ∀ jid c, (w.procs jid).holder = some c → c.needsOutRule = false

/--
A container that needs the rule acquires its lease only while no removal is
outstanding, and when the rule is installed or no lease refers to IPv4
forwarding.
-/
def AcquiresInTurn (w : World) : Action → Prop
  | .acquire _ c => c.needsOutRule = true →
      ¬RemovalPending w ∧ (w.rule = true ∨ ¬Referenced w.daemon.registry.state .v4)
  | _ => True

theorem inv_start (k : Sysctl) : Inv (start k) where
  leases jid := by simp [start, Phase.holder]
  fwd4 jid e h := by simp [start] at h
  rule jid c h := by simp [start, Phase.holder] at h
  pending h := by
    obtain ⟨jid, c, hproc, -⟩ := h
    simp [start] at hproc

@[simp] theorem enter_procs_self (w : World) (jid : Nat) (phase : Phase) :
    (enter w jid phase).procs jid = phase := by
  simp [enter]

theorem enter_procs_ne {jid other : Nat} (h : other ≠ jid) (w : World) (phase : Phase) :
    (enter w jid phase).procs other = w.procs other := by
  simp [enter, h]

theorem users_eq_one {s : FwLeasePure.State} {m : OrdMap Nat FwLeasePure.Entry} {jid : Nat}
    {e : FwLeasePure.Entry} (hempty : ∀ j, m.find? j = none) (hleases : s.leases = m.insert jid e)
    (he : e.fwd4 = true) : users s .v4 = 1 := by
  have hm : m = .empty := OrdMap.ext_find? (fun j => by rw [hempty j, OrdMap.find?_empty])
  rw [FwLeaseRegistry.users_eq_countP, hleases, hm]
  simp [OrdMap.insert, OrdMap.empty, OrdMap.insertEntry, FwLeaseRegistry.refers, he]

/-! ## One step -/

structure Moves (w w' : World) (jid : Nat) : Prop where
  procs : ∀ j, j ≠ jid → w'.procs j = w.procs j
  others : ∀ j, j ≠ jid →
    w'.daemon.registry.state.leases.find? j = w.daemon.registry.state.leases.find? j
  mine : (w'.daemon.registry.state.leases.find? jid).isSome = (w'.procs jid).holder.isSome
  fwd4 : ∀ e, w'.daemon.registry.state.leases.find? jid = some e → e.fwd4 = true

theorem Moves.leases {w w' : World} {jid : Nat} (h : Inv w) (hm : Moves w w' jid) (j : Nat) :
    (w'.daemon.registry.state.leases.find? j).isSome = (w'.procs j).holder.isSome := by
  by_cases hj : j = jid
  · subst hj
    exact hm.mine
  · rw [hm.others j hj, hm.procs j hj]
    exact h.leases j

theorem Inv.of_moves {w w' : World} {jid : Nat} (h : Inv w) (hm : Moves w w' jid)
    (hrule : ∀ j c, j ≠ jid → (w.procs j).holder = some c → c.needsOutRule = true →
      w.rule = true → w'.rule = true)
    (hmine : ∀ c, (w'.procs jid).holder = some c → c.needsOutRule = true →
      w'.rule = true ∨ w'.procs jid = .acquired c 1)
    (hpending : RemovalPending w' → ∀ j c, (w'.procs j).holder = some c →
      c.needsOutRule = false) : Inv w' where
  leases := hm.leases h
  fwd4 j e hfind := by
    by_cases hj : j = jid
    · subst hj
      exact hm.fwd4 e hfind
    · rw [hm.others j hj] at hfind
      exact h.fwd4 j e hfind
  rule j c hholder hneeds := by
    by_cases hj : j = jid
    · subst hj
      exact hmine c hholder hneeds
    · rw [hm.procs j hj] at hholder ⊢
      rcases h.rule j c hholder hneeds with hin | hfirst
      · exact .inl (hrule j c hj hholder hneeds hin)
      · exact .inr hfirst
  pending := hpending

/-- A removal that is outstanding after the move was so before, or is the move's own. -/
theorem Moves.pending {w w' : World} {jid : Nat} (hm : Moves w w' jid)
    (hpending : RemovalPending w') :
    RemovalPending w ∨ ∃ c, w'.procs jid = .released c 0 ∧ c.isNatMode = true := by
  obtain ⟨j, c, hproc, hnat⟩ := hpending
  by_cases hj : j = jid
  · subst hj
    exact .inr ⟨c, hproc, hnat⟩
  · rw [hm.procs j hj] at hproc
    exact .inl ⟨j, c, hproc, hnat⟩

theorem moves_enter {w : World} (h : Inv w) {jid : Nat} {phase : Phase} {rule : Bool}
    (hsame : phase.holder.isSome = (w.procs jid).holder.isSome) :
    Moves w (enter { w with rule := rule } jid phase) jid where
  procs j hj := enter_procs_ne hj _ _
  others j _ := rfl
  mine := by
    rw [enter_procs_self, hsame]
    exact h.leases jid
  fwd4 e hfind := h.fwd4 jid e hfind

theorem moves_release {w : World} {jid : Nat} {phase : Phase} (hphase : phase.holder = none) :
    Moves w (enter { w with daemon := (FwLeaseRegistry.release w.daemon jid).2 } jid phase) jid := by
  have hleases := (release_answers w.daemon jid).1
  have hgone : (FwLeaseRegistry.release w.daemon jid).2.registry.state.leases.find? jid = none := by
    rw [hleases, OrdMap.find?_erase, if_pos rfl]
  refine ⟨fun j hj => enter_procs_ne hj _ _, fun j hj => ?_, ?_, fun e hfind => ?_⟩
  · change (FwLeaseRegistry.release w.daemon jid).2.registry.state.leases.find? j = _
    rw [hleases, OrdMap.find?_erase, if_neg hj]
  · rw [enter_procs_self, hphase]
    change ((FwLeaseRegistry.release w.daemon jid).2.registry.state.leases.find? jid).isSome = _
    rw [hgone]
    rfl
  · change (FwLeaseRegistry.release w.daemon jid).2.registry.state.leases.find? jid = _ at hfind
    rw [hgone] at hfind
    contradiction

theorem Inv.acquireLease {w : World} (h : Inv w) {jid : Nat} {c : Container}
    (hidle : w.procs jid = .idle) (hcond : AcquiresInTurn w (.acquire jid c)) :
    Inv (acquireLease w jid c) := by
  rcases acquire_answers w.daemon jid c.isNatMode (c.isNatMode && c.ipv6) with
    ⟨err, heq⟩ | ⟨r, d', e, heq, hleases, hfwd4, husers, hslot⟩
  · simp only [RunNet.acquireLease, heq]
    exact h
  · have hkeep : (c.isNatMode && decide (r.slot < 0)) = false := by
      rw [Bool.eq_false_iff]
      intro hbad
      simp only [Bool.and_eq_true, decide_eq_true_eq] at hbad
      have := hslot hbad.1
      omega
    simp only [RunNet.acquireLease, heq, hkeep, Bool.false_eq_true, if_false]
    have hm : Moves w (enter { w with daemon := d' } jid (.acquired c r.fwd4Users)) jid := by
      refine ⟨fun j hj => enter_procs_ne hj _ _, fun j hj => ?_, ?_, fun x hfind => ?_⟩
      · change d'.registry.state.leases.find? j = _
        rw [hleases, OrdMap.find?_insert_ne (Ne.symm hj)]
      · rw [enter_procs_self]
        change (d'.registry.state.leases.find? jid).isSome = true
        rw [hleases, OrdMap.find?_insert_self]
        rfl
      · change d'.registry.state.leases.find? jid = some x at hfind
        rw [hleases, OrdMap.find?_insert_self] at hfind
        cases hfind
        exact hfwd4
    refine h.of_moves hm (fun _ _ _ _ _ hrule => hrule) ?_ ?_
    · intro c' hholder hneeds
      rw [enter_procs_self] at hholder ⊢
      cases hholder
      rcases (hcond hneeds).2 with hrule | hnone
      · exact .inl hrule
      · have hempty : ∀ j, w.daemon.registry.state.leases.find? j = none := by
          intro j
          rw [← Option.not_isSome_iff_eq_none]
          intro hsome
          obtain ⟨x, hx⟩ := Option.isSome_iff_exists.mp hsome
          exact hnone ⟨j, x, hx, h.fwd4 j x hx⟩
        exact .inr (by rw [husers, users_eq_one hempty hleases hfwd4])
    · intro hpending j c' hholder
      rcases hm.pending hpending with hbefore | ⟨c₀, hproc, -⟩
      · by_cases hj : j = jid
        · subst hj
          rw [enter_procs_self] at hholder
          cases hholder
          by_contra hneeds
          exact (hcond (by simpa using hneeds)).1 hbefore
        · rw [hm.procs j hj] at hholder
          exact h.pending hbefore j c' hholder
      · rw [enter_procs_self] at hproc
        contradiction

/-- A run that goes on with its lease: its own duty to install is met, the rule stays. -/
theorem Inv.proceed {w : World} (h : Inv w) {jid : Nat} {c : Container} {phase : Phase}
    {rule : Bool} (hholder : (w.procs jid).holder = some c) (hphase : phase.holder = some c)
    (hrule : w.rule = true → rule = true) (hmine : c.needsOutRule = true → rule = true) :
    Inv (enter { w with rule := rule } jid phase) := by
  have hm : Moves w (enter { w with rule := rule } jid phase) jid :=
    moves_enter h (by rw [hphase, hholder])
  refine h.of_moves hm (fun _ _ _ _ _ hin => hrule hin) ?_ ?_
  · intro c' hc' hneeds
    rw [enter_procs_self, hphase] at hc'
    cases hc'
    exact .inl (hmine hneeds)
  · intro hpending j c' hc'
    rcases hm.pending hpending with hbefore | ⟨c₀, hproc, -⟩
    · by_cases hj : j = jid
      · subst hj
        rw [enter_procs_self, hphase] at hc'
        cases hc'
        exact h.pending hbefore j c hholder
      · rw [hm.procs j hj] at hc'
        exact h.pending hbefore j c' hc'
    · rw [enter_procs_self] at hproc
      rw [hproc] at hphase
      contradiction

theorem Inv.setupCommonOutRule {w : World} (h : Inv w) {jid : Nat} {c : Container}
    {fwd4Users : Nat} (hproc : w.procs jid = .acquired c fwd4Users) :
    Inv (setupCommonOutRule w jid c fwd4Users) := by
  have hholder : (w.procs jid).holder = some c := by rw [hproc, Phase.holder]
  refine h.proceed hholder rfl (fun hin => by simp [hin]) ?_
  intro hneeds
  rcases h.rule jid c hholder hneeds with hin | hfirst
  · simp [hin]
  · rw [hproc] at hfirst
    cases hfirst
    simp only [Container.needsOutRule] at hneeds
    simp [hneeds, sharedMode]

theorem Inv.finish {w : World} (h : Inv w) {jid : Nat} {c : Container}
    (hproc : w.procs jid = .installed c) : Inv (enter w jid (.ready c)) := by
  have hholder : (w.procs jid).holder = some c := by rw [hproc, Phase.holder]
  refine h.proceed hholder rfl id ?_
  intro hneeds
  rcases h.rule jid c hholder hneeds with hin | hfirst
  · exact hin
  · rw [hproc] at hfirst
    contradiction

theorem Inv.leave {w : World} (h : Inv w) {jid : Nat} {phase : Phase}
    (hphase : phase.holder = none)
    (hlast : ∀ c, phase = .released c 0 →
      users (FwLeaseRegistry.release w.daemon jid).2.registry.state .v4 = 0) :
    Inv (enter { w with daemon := (FwLeaseRegistry.release w.daemon jid).2 } jid phase) := by
  have hm : Moves w (enter { w with daemon := (FwLeaseRegistry.release w.daemon jid).2 } jid phase)
      jid := moves_release hphase
  refine h.of_moves hm (fun _ _ _ _ _ hin => hin) ?_ ?_
  · intro c hholder
    rw [enter_procs_self, hphase] at hholder
    contradiction
  · intro hpending j c hholder
    rcases hm.pending hpending with hbefore | ⟨c₀, hproc, -⟩
    · by_cases hj : j = jid
      · subst hj
        rw [enter_procs_self, hphase] at hholder
        contradiction
      · rw [hm.procs j hj] at hholder
        exact h.pending hbefore j c hholder
    · -- the answer was 0, so nobody holds a lease
      rw [enter_procs_self] at hproc
      have hzero := hlast c₀ hproc
      have hsome := hm.leases h j
      rw [hholder] at hsome
      obtain ⟨e, hfind⟩ := Option.isSome_iff_exists.mp hsome
      have hfwd4 : e.fwd4 = true := by
        by_cases hj : j = jid
        · subst hj
          exact hm.fwd4 e hfind
        · rw [hm.others j hj] at hfind
          exact h.fwd4 j e hfind
      have hpos := FwLeaseRegistry.users_pos_iff (f := .v4).mpr ⟨j, e, hfind, hfwd4⟩
      exact absurd hzero (Nat.ne_of_gt hpos)

theorem Inv.destroyJail {w : World} (h : Inv w) (jid : Nat) (c : Container) :
    Inv (destroyJail w jid c) :=
  h.leave rfl (fun _ hproc => by contradiction)

theorem Inv.releaseLease {w : World} (h : Inv w) (jid : Nat) (c : Container) :
    Inv (releaseLease w jid c) := by
  refine h.leave rfl ?_
  intro c' hphase
  rw [← (release_answers w.daemon jid).2]
  exact (Phase.released.inj hphase).2

theorem Inv.removeCommonOutRule {w : World} (h : Inv w) {jid : Nat} {c : Container}
    {fwd4Users : Nat} (hproc : w.procs jid = .released c fwd4Users) :
    Inv (removeCommonOutRule w jid c fwd4Users) := by
  have hm : Moves w (RunNet.removeCommonOutRule w jid c fwd4Users) jid :=
    moves_enter h (by rw [hproc]; rfl)
  refine h.of_moves hm ?_ ?_ ?_
  · intro j c' _ hholder hneeds hin
    by_cases hremove : c.isNatMode = true ∧ fwd4Users = 0
    · obtain ⟨hnat, rfl⟩ := hremove
      rw [h.pending ⟨jid, c, hproc, hnat⟩ j c' hholder] at hneeds
      contradiction
    · have hkeep : (c.isNatMode && decide (fwd4Users = 0)) = false := by
        simpa using hremove
      simp [RunNet.removeCommonOutRule, enter, hin, hkeep]
  · intro c' hholder
    rw [RunNet.removeCommonOutRule, enter_procs_self] at hholder
    contradiction
  · intro hpending j c' hholder
    rcases hm.pending hpending with hbefore | ⟨c₀, hproc', -⟩
    · by_cases hj : j = jid
      · subst hj
        rw [RunNet.removeCommonOutRule, enter_procs_self] at hholder
        contradiction
      · rw [hm.procs j hj] at hholder
        exact h.pending hbefore j c' hholder
    · rw [RunNet.removeCommonOutRule, enter_procs_self] at hproc'
      contradiction

theorem Inv.step {w : World} (h : Inv w) {a : Action} (hcond : AcquiresInTurn w a) :
    Inv (step w a) := by
  cases a with
  | acquire jid c =>
      simp only [RunNet.step]
      split
      · rename_i hidle
        exact h.acquireLease hidle hcond
      · exact h
  | install jid =>
      simp only [RunNet.step]
      split
      · rename_i c fwd4Users hproc
        exact h.setupCommonOutRule hproc
      · exact h
  | finish jid =>
      simp only [RunNet.step]
      split
      · rename_i c hproc
        exact h.finish hproc
      · exact h
  | destroyJail jid =>
      simp only [RunNet.step]
      split <;> first | exact h | exact h.destroyJail jid _
  | release jid =>
      simp only [RunNet.step]
      split <;> first | exact h | exact h.releaseLease jid _
  | remove jid =>
      simp only [RunNet.step]
      split
      · rename_i c fwd4Users hproc
        exact h.removeCommonOutRule hproc
      · exact h

theorem Inv.ruleWhereNeeded {w : World} (h : Inv w) : RuleWhereNeeded w := by
  intro jid c hproc hneeds
  have hholder : (w.procs jid).holder = some c := by rw [hproc, Phase.holder]
  rcases h.rule jid c hholder hneeds with hin | hfirst
  · exact hin
  · rw [hproc] at hfirst
    contradiction

/-! ## Whole runs -/

/--
In every run in which the containers that need the shared rule acquire in turn,
the rule is installed wherever it is needed, in every state of the run.
-/
theorem shared_rule_where_needed (k : Sysctl) {actions : List Action}
    (hturn : StepsMeet step AcquiresInTurn (start k) actions) :
    ∀ before, before <+: actions → RuleWhereNeeded (run step (start k) before) := by
  intro before hbefore
  have hstep : ∀ w a, Inv w → AcquiresInTurn w a → Inv (step w a) := fun _ _ h hc => h.step hc
  exact (forall_prefix_good hstep (inv_start k) hturn hbefore).ruleWhereNeeded

set_option maxRecDepth 4000 in
/-- A NAT container comes first; a bridge container joins it and leaves again. -/
theorem shared_rule_where_needed_nat_first :
    let actions : List Action := [.acquire 2 ⟨.nat, true, false⟩, .install 2, .finish 2,
      .acquire 1 ⟨.bridge, true, false⟩, .release 1, .remove 1]
    (run step (start ⟨0, 0⟩) actions).procs 2 = .ready ⟨.nat, true, false⟩ ∧
      (run step (start ⟨0, 0⟩) actions).rule = true := by
  intro actions
  have hturn : StepsMeet step AcquiresInTurn (start ⟨0, 0⟩) actions := by
    refine ⟨fun _ => ⟨?_, .inr ?_⟩, trivial, trivial, ?_, trivial, trivial, trivial⟩
    · rintro ⟨jid, c, hproc, -⟩
      simp [start] at hproc
    · rintro ⟨jid, e, hfind, -⟩
      simp [start] at hfind
    · intro hneeds
      exact absurd hneeds (by decide)
  have hready : (run step (start ⟨0, 0⟩) actions).procs 2 = .ready ⟨.nat, true, false⟩ := by
    decide
  exact ⟨hready,
    shared_rule_where_needed ⟨0, 0⟩ hturn actions List.prefix_rfl 2 _ hready (by decide)⟩

set_option maxRecDepth 4000 in
/-- A bridge container was counted first, so the NAT container never installs the rule. -/
theorem shared_rule_missing_behind_bridge :
    ¬ ∀ (k : Sysctl) (actions : List Action), RuleWhereNeeded (run step (start k) actions) := by
  intro h
  have hrule := h ⟨0, 0⟩
    [.acquire 1 ⟨.bridge, true, false⟩, .acquire 2 ⟨.nat, true, false⟩, .install 2, .finish 2]
    2 ⟨.nat, true, false⟩ (by decide) (by decide)
  exact absurd hrule (by decide)

/-! ## The condition is exact -/

theorem users_ne_one {s : FwLeasePure.State} {j₁ j₂ : Nat} {e₁ e₂ : FwLeasePure.Entry}
    (h₁ : s.leases.find? j₁ = some e₁) (h₂ : s.leases.find? j₂ = some e₂) (hne : j₁ ≠ j₂)
    (hf₁ : e₁.fwd4 = true) (hf₂ : e₂.fwd4 = true) : users s .v4 ≠ 1 := by
  rw [FwLeaseRegistry.users_eq_countP, List.countP_eq_length_filter]
  intro hone
  obtain ⟨kv, hkv⟩ := List.length_eq_one_iff.mp hone
  have hmem : ∀ {j e}, s.leases.find? j = some e → e.fwd4 = true → (j, e) = kv := by
    intro j e hfind hfwd4
    have hin : (j, e) ∈ s.leases.entries.filter (fun kv => FwLeaseRegistry.refers kv.2 .v4) :=
      List.mem_filter.mpr ⟨OrdMap.find?_eq_some_iff.mp hfind, hfwd4⟩
    rw [hkv] at hin
    simpa using hin
  exact hne (congrArg Prod.fst ((hmem h₁ hf₁).trans (hmem h₂ hf₂).symm))

theorem run_setup {w : World} {jid : Nat} {c : Container} {n : Nat}
    (hproc : w.procs jid = .acquired c n) :
    run step w [.install jid, .finish jid] =
      enter (enter { w with rule := w.rule || (c.needsOutRule && n = 1) } jid (.installed c)) jid
        (.ready c) := by
  have hmode : decide (sharedMode n = 1) = decide (n = 1) := by
    by_cases hn : n = 1 <;> simp [sharedMode, hn]
  simp only [run, List.foldl_cons, List.foldl_nil, step, hproc, setupCommonOutRule,
    enter_procs_self, hmode, Container.needsOutRule]

theorem step_remove {w : World} {jid : Nat} {c : Container} {n : Nat}
    (hproc : w.procs jid = .released c n) :
    step w (.remove jid) = removeCommonOutRule w jid c n := by
  simp only [step, hproc]

theorem acquire_granted {w : World} {jid n : Nat} {c : Container} (hidle : w.procs jid = .idle)
    (hgranted : (step w (.acquire jid c)).procs jid = .acquired c n) :
    (step w (.acquire jid c)).rule = w.rule ∧
      (∀ j, j ≠ jid → (step w (.acquire jid c)).procs j = w.procs j) ∧
      ∃ s e, n = users s .v4 ∧ e.fwd4 = true ∧
        s.leases = w.daemon.registry.state.leases.insert jid e := by
  simp only [step, hidle] at hgranted ⊢
  rcases acquire_answers w.daemon jid c.isNatMode (c.isNatMode && c.ipv6) with
    ⟨err, heq⟩ | ⟨r, d', e, heq, hleases, hfwd4, husers, -⟩
  · simp only [acquireLease, heq, hidle] at hgranted
    contradiction
  · simp only [acquireLease, heq] at hgranted ⊢
    split at hgranted
    · simp only [hidle] at hgranted
      contradiction
    · rename_i hslot
      rw [enter_procs_self] at hgranted
      rw [if_neg hslot]
      refine ⟨rfl, fun j hj => enter_procs_ne hj _ _, d'.registry.state, e, ?_, hfwd4, hleases⟩
      rw [← husers]
      exact (Phase.acquired.inj hgranted).2.symm

/--
Where the condition fails and the lease is granted, the run can go on to a
state in which the rule is missing.
-/
theorem out_of_turn_breaks {w : World} (h : Inv w) {jid n : Nat} {c : Container}
    (hidle : w.procs jid = .idle) (hout : ¬AcquiresInTurn w (.acquire jid c))
    (hgranted : (step w (.acquire jid c)).procs jid = .acquired c n) :
    ∃ rest, ¬RuleWhereNeeded (run step w (.acquire jid c :: rest)) := by
  obtain ⟨hrule, hothers, s, e, hn, he, hleases⟩ := acquire_granted hidle hgranted
  have hsetup := run_setup hgranted
  obtain ⟨hneeds, hblocked⟩ : c.needsOutRule = true ∧
      (¬RemovalPending w → w.rule = false ∧ Referenced w.daemon.registry.state .v4) := by
    simp only [AcquiresInTurn, Classical.not_imp, not_and, not_or, not_not,
      Bool.not_eq_true] at hout
    exact hout
  by_cases hpending : RemovalPending w
  · -- the outstanding removal takes the rule away after the setup
    obtain ⟨j, c', hproc, hnat⟩ := hpending
    have hj : j ≠ jid := by
      rintro rfl
      rw [hidle] at hproc
      contradiction
    refine ⟨[.install jid, .finish jid, .remove j], fun hall => ?_⟩
    have hrun : run step w [.acquire jid c, .install jid, .finish jid, .remove j] =
        step (run step (step w (.acquire jid c)) [.install jid, .finish jid]) (.remove j) := rfl
    have hready : (run step (step w (.acquire jid c)) [.install jid, .finish jid]).procs j =
        .released c' 0 := by
      rw [hsetup, enter_procs_ne hj, enter_procs_ne hj]
      exact (hothers j hj).trans hproc
    rw [hrun, step_remove hready] at hall
    have hstays : (removeCommonOutRule (run step (step w (.acquire jid c))
        [.install jid, .finish jid]) j c' 0).procs jid = .ready c := by
      rw [removeCommonOutRule, enter_procs_ne (Ne.symm hj), hsetup]
      exact enter_procs_self _ _ _
    have hmine := hall jid c hstays hneeds
    simp [removeCommonOutRule, enter, hnat] at hmine
  · -- another lease was counted, so the container installs nothing
    obtain ⟨hoff, other, x, hfind, hx⟩ := hblocked hpending
    have hne : other ≠ jid := by
      rintro rfl
      have hsome := h.leases other
      rw [hfind, hidle] at hsome
      contradiction
    have hmany : n ≠ 1 := by
      have hkept : s.leases.find? other = some x := by
        rw [hleases, OrdMap.find?_insert_ne (Ne.symm hne), hfind]
      have hnew : s.leases.find? jid = some e := by
        rw [hleases, OrdMap.find?_insert_self]
      rw [hn]
      exact users_ne_one hkept hnew hne hx he
    refine ⟨[.install jid, .finish jid], fun hall => ?_⟩
    have hrun : run step w [.acquire jid c, .install jid, .finish jid] =
        run step (step w (.acquire jid c)) [.install jid, .finish jid] := rfl
    rw [hrun, hsetup] at hall
    have hmine := hall jid c (enter_procs_self _ _ _) hneeds
    simp [enter, hrule, hoff, hmany] at hmine

end Crate.RunNet
