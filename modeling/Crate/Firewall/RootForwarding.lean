import Crate.Firewall.Forwarding
import Crate.Firewall.Users
import Crate.Foundation.Remembered

/-!
# Forwarding without the daemon

A root `crate` reads a forwarding sysctl itself, turns it on where it was off and
turns it off again at its end.  For each address family a run is a user of a
`Remembered` setting; for IPv4 only a run with outbound access ever restores it,
and only when the file of `FwUsers` has no other live process.
-/

namespace Crate.RunCrate.RootForwarding

open Crate.Foundation
open Crate.Ctx (FwUsers)
open Crate.FwLeaseRegistry (Family Sysctl)

/-! ## Runs -/

structure Pid where
  val : Int
  isPid : Ctx.FwSlots.IsPid val

/-- What a run's `net` options decide; a run without them is none of these. -/
structure Net where
  isNatMode : Bool
  allowOutbound : Bool
  allowInbound : Bool
  ipv6 : Bool
  deriving DecidableEq, Repr

/-- The run gets an epair and firewall rules, and IPv6 with them. -/
def Net.setsForwarding6 (net : Net) : Bool :=
  net.isNatMode && (net.allowOutbound || net.allowInbound) && net.ipv6

/-- The run is entered in `FwUsers`. -/
def Net.isUser (net : Net) : Bool := net.isNatMode && net.allowOutbound

/-- Where a process stands; `other` is one that is not in a run. -/
inductive Phase where
  | dead
  | other
  | read4 (net : Net) (origIpForwarding : Int)
  | set4 (net : Net) (origIpForwarding : Int)
  | read6 (net : Net) (origIpForwarding origIp6Forwarding : Int)
  | ready (net : Net) (origIpForwarding : Int) (origIp6Forwarding : Option Int)
  | running (net : Net) (origIpForwarding : Int) (origIp6Forwarding : Option Int)
  /-- Its firewall rules are gone. -/
  | closing (net : Net) (origIp6Forwarding : Option Int)
  deriving DecidableEq, Repr

structure World where
  sysctl : Sysctl
  /-- `ctx-fw-users`. -/
  users : Str
  procs : Int → Phase

def World.alive (w : World) (pid : Int) : Bool := w.procs pid ≠ .dead

inductive Action where
  | spawn (pid : Pid)
  | readForwarding (pid : Pid) (net : Net)
  | setForwarding (pid : Pid)
  | readForwarding6 (pid : Pid)
  | setForwarding6 (pid : Pid)
  | setupFirewallRules (pid : Pid)
  | destroyFirewallRules (pid : Pid)
  | restoreForwarding6 (pid : Pid)
  | die (pid : Pid)

def enter (w : World) (pid : Pid) (phase : Phase) : World :=
  { w with procs := Function.update w.procs pid.val phase }

def setForwardingStep (w : World) (pid : Pid) (net : Net) (origIpForwarding : Int) : World :=
  let forwarding4 := if origIpForwarding = 0 then 1 else w.sysctl.forwarding4
  enter { w with sysctl := { w.sysctl with forwarding4 := forwarding4 } } pid
    (.set4 net origIpForwarding)

def setForwarding6Step (w : World) (pid : Pid) (net : Net)
    (origIpForwarding origIp6Forwarding : Int) : World :=
  let forwarding6 := if origIp6Forwarding = 0 then 1 else w.sysctl.forwarding6
  enter { w with sysctl := { w.sysctl with forwarding6 := forwarding6 } } pid
    (.ready net origIpForwarding (some origIp6Forwarding))

def setupStep (w : World) (pid : Pid) (net : Net) (origIpForwarding : Int)
    (origIp6Forwarding : Option Int) : World :=
  let users := if net.isUser then
      let (ctx, file) := FwUsers.add FwUsers.lock w.users pid.val
      FwUsers.unlock ctx file
    else w.users
  enter { w with users := users } pid (.running net origIpForwarding origIp6Forwarding)

/-- `FwUsers` has no other process that lives. -/
def lastUser (w : World) (pid : Pid) : Bool :=
  FwUsers.isEmpty (FwUsers.del FwUsers.lock w.users w.alive pid.val) w.users

/-- The cleanup of `setupFirewallRules`. -/
def destroyStep (w : World) (pid : Pid) (net : Net) (origIpForwarding : Int)
    (origIp6Forwarding : Option Int) : World :=
  if net.isUser then
    let ctx := FwUsers.del FwUsers.lock w.users w.alive pid.val
    let forwarding4 :=
      if lastUser w pid = true ∧ origIpForwarding = 0 then 0 else w.sysctl.forwarding4
    enter { w with
      sysctl := { w.sysctl with forwarding4 := forwarding4 }
      users := FwUsers.unlock ctx w.users } pid (.closing net origIp6Forwarding)
  else enter w pid (.closing net origIp6Forwarding)

/-- `restoreIp6ForwardingAtEnd`, which is set when the run found 0. -/
def restoreForwarding6Step (w : World) (pid : Pid) (origIp6Forwarding : Option Int) : World :=
  let forwarding6 := if origIp6Forwarding = some 0 then 0 else w.sysctl.forwarding6
  enter { w with sysctl := { w.sysctl with forwarding6 := forwarding6 } } pid .other

def step (w : World) : Action → World
  | .spawn pid =>
      match w.procs pid.val with
      | .dead => enter w pid .other
      | _ => w
  | .readForwarding pid net =>
      match w.procs pid.val with
      | .other => enter w pid (.read4 net w.sysctl.forwarding4)
      | _ => w
  | .setForwarding pid =>
      match w.procs pid.val with
      | .read4 net orig4 => setForwardingStep w pid net orig4
      | _ => w
  | .readForwarding6 pid =>
      match w.procs pid.val with
      | .set4 net orig4 =>
          if net.setsForwarding6 then enter w pid (.read6 net orig4 w.sysctl.forwarding6)
          else enter w pid (.ready net orig4 none)
      | _ => w
  | .setForwarding6 pid =>
      match w.procs pid.val with
      | .read6 net orig4 orig6 => setForwarding6Step w pid net orig4 orig6
      | _ => w
  | .setupFirewallRules pid =>
      match w.procs pid.val with
      | .ready net orig4 orig6 => setupStep w pid net orig4 orig6
      | _ => w
  | .destroyFirewallRules pid =>
      match w.procs pid.val with
      | .running net orig4 orig6 => destroyStep w pid net orig4 orig6
      | _ => w
  | .restoreForwarding6 pid =>
      match w.procs pid.val with
      | .closing _ orig6 => restoreForwarding6Step w pid orig6
      | _ => w
  | .die pid => enter w pid .dead

def start (k : Sysctl) : World := { sysctl := k, users := [], procs := fun _ => .dead }

/-! ## Who uses forwarding -/

/-- A run with `ipv6` that never sets the sysctl needs it from its start. -/
def Net.stake6 (net : Net) : Stake Int :=
  if net.ipv6 && !net.setsForwarding6 then .uses none else .out

def memory6 (net : Net) : Option Int → Stake Int
  | some orig6 => .uses (some orig6)
  | none => net.stake6

/-- A run uses forwarding once it has set it and until its firewall rules are gone. -/
def Phase.stake4 : Phase → Stake Int
  | .read4 _ orig4 => .found orig4
  | .set4 _ orig4 => .uses (some orig4)
  | .read6 _ orig4 _ => .uses (some orig4)
  | .ready _ orig4 _ => .uses (some orig4)
  | .running _ orig4 _ => .uses (some orig4)
  | _ => .out

def Phase.stake6 : Phase → Stake Int
  | .set4 net _ => net.stake6
  | .read6 _ _ orig6 => .found orig6
  | .ready net _ orig6 => memory6 net orig6
  | .running net _ orig6 => memory6 net orig6
  | .closing net orig6 => memory6 net orig6
  | _ => .out

def Phase.stake : Family → Phase → Stake Int
  | .v4 => Phase.stake4
  | .v6 => Phase.stake6

def Uses (f : Family) (w : World) (pid : Int) : Prop :=
  ∃ memory, (w.procs pid).stake f = .uses memory

/-- Each family's sysctl reads 1 while a run uses it and its first value while none does. -/
def Restored (k : Sysctl) (w : World) : Prop :=
  ∀ f, ((∃ pid, Uses f w pid) → w.sysctl.value f = 1) ∧
    ((¬∃ pid, Uses f w pid) → w.sysctl.value f = k.value f)

/--
A run that goes and leaves others of the family behind does not restore; one that
leaves none behind does, if the sysctl was 0 at first.
-/
def Leaves (f : Family) (k : Sysctl) (w : World) (pid : Pid) (restores : Prop) : Prop :=
  ((∃ q, q ≠ pid.val ∧ Uses f w q) → ¬restores) ∧
    ((¬∃ q, q ≠ pid.val ∧ Uses f w q) → k.value f = 0 → restores)

/-- Another process that lives is in the file of `FwUsers`. -/
def OthersListed (w : World) (pid : Pid) : Prop :=
  ∃ q, q ≠ pid.val ∧ w.alive q = true ∧ FwUsers.Listed w.users q

/--
When forwarding is set the run found 0 or it reads 1 by now, and IPv6 reads 1
where a run needs it and does not set it.  Of the runs that go, exactly the last
of a family restores, if the sysctl was 0 at first: it is one that found 0 and,
for IPv4, has outbound access and is alone in `FwUsers`; one that is killed does
not restore.
-/
def LastRestores (k : Sysctl) (w : World) : Action → Prop
  | .setForwarding pid =>
      match w.procs pid.val with
      | .read4 net orig4 => (orig4 = 0 ∨ w.sysctl.forwarding4 = 1) ∧
          (net.ipv6 = true → net.setsForwarding6 = false → w.sysctl.forwarding6 = 1)
      | _ => True
  | .setForwarding6 pid =>
      match w.procs pid.val with
      | .read6 _ _ orig6 => orig6 = 0 ∨ w.sysctl.forwarding6 = 1
      | _ => True
  | .destroyFirewallRules pid =>
      match w.procs pid.val with
      | .running net orig4 _ =>
          Leaves .v4 k w pid (net.isUser = true ∧ ¬OthersListed w pid ∧ orig4 = 0)
      | _ => True
  | .restoreForwarding6 pid =>
      match w.procs pid.val with
      | .closing _ orig6 => Uses .v6 w pid.val → Leaves .v6 k w pid (orig6 = some 0)
      | _ => True
  | .die pid => ∀ f, Uses f w pid.val → Leaves f k w pid False
  | _ => True

/-! ## Each family is a remembered setting -/

def view (f : Family) (w : World) : Remembered Int Int where
  value := w.sysctl.value f
  stake pid := (w.procs pid).stake f

def moveOf (w : World) : Family → Action → Move Int
  | .v4, .readForwarding pid _ =>
      match w.procs pid.val with
      | .other => .find pid.val
      | _ => .skip
  | .v4, .setForwarding pid =>
      match w.procs pid.val with
      | .read4 _ _ => .take pid.val
      | _ => .skip
  | .v4, .destroyFirewallRules pid =>
      match w.procs pid.val with
      | .running net _ _ => .leave pid.val (net.isUser && lastUser w pid)
      | _ => .skip
  | .v6, .setForwarding pid =>
      match w.procs pid.val with
      | .read4 net _ => if net.ipv6 && !net.setsForwarding6 then .join pid.val else .skip
      | _ => .skip
  | .v6, .readForwarding6 pid =>
      match w.procs pid.val with
      | .set4 net _ => if net.setsForwarding6 then .find pid.val else .skip
      | _ => .skip
  | .v6, .setForwarding6 pid =>
      match w.procs pid.val with
      | .read6 _ _ _ => .take pid.val
      | _ => .skip
  | .v6, .restoreForwarding6 pid =>
      match w.procs pid.val with
      | .closing _ _ => .leave pid.val true
      | _ => .skip
  | _, .die pid => .leave pid.val false
  | _, _ => .skip

attribute [local simp] moveOf

@[simp] theorem view_value (f : Family) (w : World) : (view f w).value = w.sysctl.value f := rfl

@[simp] theorem view_stake (f : Family) (w : World) (pid : Int) :
    (view f w).stake pid = (w.procs pid).stake f := rfl

/-- A step that changes one process and perhaps a sysctl. -/
theorem view_enter (f : Family) (w : World) {w' : World} (hprocs : w'.procs = w.procs) (pid : Pid)
    (phase : Phase) :
    view f (enter w' pid phase) =
      { view f w with value := w'.sysctl.value f }.enter pid.val (phase.stake f) := by
  unfold view enter Remembered.enter
  congr 1
  funext q
  dsimp only
  rw [hprocs]
  by_cases hq : q = pid.val
  · subst hq
    rw [Function.update_self, Function.update_self]
  · rw [Function.update_of_ne hq, Function.update_of_ne hq]

/-- A run that only goes on stands where it stood. -/
theorem view_enter_same {f : Family} {w w' : World} (hprocs : w'.procs = w.procs)
    (hvalue : w'.sysctl.value f = w.sysctl.value f) {pid : Pid} {phase : Phase}
    (h : (w.procs pid.val).stake f = phase.stake f) : view f (enter w' pid phase) = view f w := by
  rw [view_enter f w hprocs, hvalue, ← h]
  exact Remembered.enter_self

theorem view_readForwarding (f : Family) (w : World) (pid : Pid) (net : Net) :
    view f (step w (.readForwarding pid net)) =
      (view f w).move 0 1 (moveOf w f (.readForwarding pid net)) := by
  cases hproc : w.procs pid.val with
  | other =>
      simp only [step, hproc]
      cases f with
      | v4 =>
          simp only [moveOf, hproc]
          rw [view_enter .v4 w (by rfl), Remembered.move_find (by rw [view_stake, hproc]; rfl)]
          rfl
      | v6 => exact view_enter_same rfl rfl (by rw [hproc]; rfl)
  | dead | read4 | set4 | read6 | ready | running | closing =>
      cases f <;> simp only [step, moveOf, hproc] <;> rfl

theorem view_setForwarding (f : Family) (w : World) (pid : Pid) :
    view f (step w (.setForwarding pid)) =
      (view f w).move 0 1 (moveOf w f (.setForwarding pid)) := by
  cases hproc : w.procs pid.val with
  | read4 net orig4 =>
      simp only [step, hproc, setForwardingStep]
      cases f with
      | v4 =>
          simp only [moveOf, hproc]
          rw [view_enter .v4 w (by rfl), Remembered.move_take (by rw [view_stake, hproc]; rfl)]
          rfl
      | v6 =>
          simp only [moveOf, hproc]
          rw [view_enter .v6 w (by rfl)]
          have hout : (view .v6 w).stake pid.val = .out := by
            rw [view_stake, hproc]
            rfl
          cases hjoin : net.ipv6 && !net.setsForwarding6 with
          | true =>
              have hstake : Phase.stake .v6 (.set4 net orig4) = .uses none := by
                simp only [Phase.stake, Phase.stake6, Net.stake6, hjoin, if_true]
              rw [hstake, if_pos rfl, Remembered.move_join hout]
              rfl
          | false =>
              have hstake : Phase.stake .v6 (.set4 net orig4) = .out := by
                simp only [Phase.stake, Phase.stake6, Net.stake6, hjoin]
                rfl
              rw [hstake, ← hout]
              exact Remembered.enter_self
  | dead | other | set4 | read6 | ready | running | closing =>
      cases f <;> simp only [step, moveOf, hproc] <;> rfl

theorem view_readForwarding6 (f : Family) (w : World) (pid : Pid) :
    view f (step w (.readForwarding6 pid)) =
      (view f w).move 0 1 (moveOf w f (.readForwarding6 pid)) := by
  cases hproc : w.procs pid.val with
  | set4 net orig4 =>
      simp only [step, hproc]
      cases f with
      | v4 =>
          split
          · exact view_enter_same rfl rfl (by rw [hproc]; rfl)
          · exact view_enter_same rfl rfl (by rw [hproc]; rfl)
      | v6 =>
          simp only [moveOf, hproc]
          split
          · rename_i hsets
            have hout : (view .v6 w).stake pid.val = .out := by
              rw [view_stake, hproc]
              simp [Phase.stake, Phase.stake6, Net.stake6, hsets]
            rw [view_enter .v6 w (by rfl), Remembered.move_find hout]
            rfl
          · exact view_enter_same rfl rfl (by rw [hproc]; rfl)
  | dead | other | read4 | read6 | ready | running | closing =>
      cases f <;> simp only [step, moveOf, hproc] <;> rfl

theorem view_setForwarding6 (f : Family) (w : World) (pid : Pid) :
    view f (step w (.setForwarding6 pid)) =
      (view f w).move 0 1 (moveOf w f (.setForwarding6 pid)) := by
  cases hproc : w.procs pid.val with
  | read6 net orig4 orig6 =>
      simp only [step, hproc, setForwarding6Step]
      cases f with
      | v4 => exact view_enter_same rfl rfl (by rw [hproc]; rfl)
      | v6 =>
          simp only [moveOf, hproc]
          rw [view_enter .v6 w (by rfl), Remembered.move_take (by rw [view_stake, hproc]; rfl)]
          rfl
  | dead | other | read4 | set4 | ready | running | closing =>
      cases f <;> simp only [step, moveOf, hproc] <;> rfl

theorem view_setupFirewallRules (f : Family) (w : World) (pid : Pid) :
    view f (step w (.setupFirewallRules pid)) =
      (view f w).move 0 1 (moveOf w f (.setupFirewallRules pid)) := by
  cases hproc : w.procs pid.val with
  | ready net orig4 orig6 =>
      have hmove : moveOf w f (.setupFirewallRules pid) = .skip := by
        cases f <;> rfl
      simp only [step, hproc, setupStep]
      rw [hmove]
      exact view_enter_same rfl rfl (by rw [hproc]; cases f <;> rfl)
  | dead | other | read4 | set4 | read6 | running | closing =>
      cases f <;> simp only [step, moveOf, hproc] <;> rfl

theorem view_destroyFirewallRules (f : Family) (w : World) (pid : Pid) :
    view f (step w (.destroyFirewallRules pid)) =
      (view f w).move 0 1 (moveOf w f (.destroyFirewallRules pid)) := by
  cases hproc : w.procs pid.val with
  | running net orig4 orig6 =>
      simp only [step, hproc, destroyStep]
      cases f with
      | v4 =>
          simp only [moveOf, hproc]
          rw [Remembered.move_leave (by rw [view_stake, hproc]; rfl)]
          cases huser : net.isUser with
          | true =>
              simp only [if_true]
              rw [view_enter .v4 w (by rfl)]
              simp [Sysctl.value, Phase.stake, Phase.stake4]
          | false =>
              simp only [Bool.false_eq_true, if_false]
              rw [view_enter .v4 w (by rfl)]
              simp [Phase.stake, Phase.stake4]
      | v6 =>
          split
          · exact view_enter_same rfl rfl (by rw [hproc]; rfl)
          · exact view_enter_same rfl rfl (by rw [hproc]; rfl)
  | dead | other | read4 | set4 | read6 | ready | closing =>
      cases f <;> simp only [step, moveOf, hproc] <;> rfl

theorem view_restoreForwarding6 (f : Family) (w : World) (pid : Pid) :
    view f (step w (.restoreForwarding6 pid)) =
      (view f w).move 0 1 (moveOf w f (.restoreForwarding6 pid)) := by
  cases hproc : w.procs pid.val with
  | closing net orig6 =>
      simp only [step, hproc, restoreForwarding6Step]
      cases f with
      | v4 => exact view_enter_same rfl rfl (by rw [hproc]; rfl)
      | v6 =>
          simp only [moveOf, hproc]
          have hstake : (view .v6 w).stake pid.val = memory6 net orig6 := by
            rw [view_stake, hproc]
            rfl
          rw [view_enter .v6 w (by rfl)]
          cases orig6 with
          | some orig6 =>
              rw [Remembered.move_leave hstake]
              simp [Sysctl.value, Phase.stake, Phase.stake6]
          | none =>
              cases hjoin : net.ipv6 && !net.setsForwarding6 with
              | true =>
                  have huses : memory6 net none = .uses none := by
                    simp only [memory6, Net.stake6, hjoin, if_true]
                  rw [Remembered.move_leave (hstake.trans huses)]
                  simp [Sysctl.value, Phase.stake, Phase.stake6]
              | false =>
                  have hout : memory6 net none = .out := by
                    simp only [memory6, Net.stake6, hjoin]
                    rfl
                  have hnone : ∀ memory, (view .v6 w).stake pid.val ≠ .uses memory := by
                    intro memory h
                    rw [hstake, hout] at h
                    cases h
                  rw [Remembered.move_leave_of_not_uses hnone]
                  rfl
  | dead | other | read4 | set4 | read6 | ready | running =>
      cases f <;> simp only [step, moveOf, hproc] <;> rfl

theorem view_die (f : Family) (w : World) (pid : Pid) :
    view f (step w (.die pid)) = (view f w).move 0 1 (moveOf w f (.die pid)) := by
  have hmove : moveOf w f (.die pid) = .leave pid.val false := by
    cases f <;> rfl
  rw [hmove, Remembered.move_leave_false, step, view_enter f w (by rfl)]
  cases f <;> rfl

/-- Each step of the runs is a move of each family's setting. -/
theorem view_step (f : Family) (w : World) (a : Action) :
    view f (step w a) = (view f w).move 0 1 (moveOf w f a) := by
  cases a with
  | spawn pid =>
      have hmove : moveOf w f (.spawn pid) = .skip := by
        cases f <;> rfl
      rw [hmove, Remembered.move_skip]
      cases hproc : w.procs pid.val with
      | dead =>
          simp only [step, hproc]
          exact view_enter_same rfl rfl (by rw [hproc]; cases f <;> rfl)
      | other | read4 | set4 | read6 | ready | running | closing => simp only [step, hproc]
  | readForwarding pid net => exact view_readForwarding f w pid net
  | setForwarding pid => exact view_setForwarding f w pid
  | readForwarding6 pid => exact view_readForwarding6 f w pid
  | setForwarding6 pid => exact view_setForwarding6 f w pid
  | setupFirewallRules pid => exact view_setupFirewallRules f w pid
  | destroyFirewallRules pid => exact view_destroyFirewallRules f w pid
  | restoreForwarding6 pid => exact view_restoreForwarding6 f w pid
  | die pid => exact view_die f w pid

/-! ## When forwarding is restored -/

theorem restored_iff (k : Sysctl) (w : World) :
    Restored k w ↔ ∀ f, Remembered.Tracks 1 (k.value f) (view f w) :=
  forall_congr' fun _ => ⟨fun h => ⟨h.1, h.2⟩, fun h => ⟨h.busy, h.idle⟩⟩

theorem lastUser_iff {w : World} {pid : Pid} : lastUser w pid = true ↔ ¬OthersListed w pid :=
  FwUsers.isEmpty_del_iff

/-- The move of a run that goes meets its condition when the run leaves rightly. -/
theorem meets_leave_iff {k : Sysctl} {w : World} {f : Family} {pid : Pid} {restores : Bool} :
    Remembered.Meets 0 1 (k.value f) (view f w) (.leave pid.val restores) ↔
      ∀ memory, (w.procs pid.val).stake f = .uses memory →
        Leaves f k w pid (restores = true ∧ memory = some 0) := Iff.rfl

theorem memory6_eq {net : Net} {orig6 memory : Option Int}
    (h : memory6 net orig6 = .uses memory) : memory = orig6 := by
  cases orig6 with
  | some orig6 =>
      cases h
      rfl
  | none =>
      unfold memory6 Net.stake6 at h
      dsimp only at h
      split at h
      · cases h
        rfl
      · cases h

theorem forall_family {p : Family → Prop} : (∀ f, p f) ↔ p .v4 ∧ p .v6 := by
  constructor
  · exact fun h => ⟨h .v4, h .v6⟩
  · rintro ⟨h4, h6⟩ (_ | _)
    · exact h4
    · exact h6

theorem lastRestores_setForwarding_iff (k : Sysctl) (w : World) (pid : Pid) :
    LastRestores k w (.setForwarding pid) ↔
      ∀ f, Remembered.Meets 0 1 (k.value f) (view f w) (moveOf w f (.setForwarding pid)) := by
  rw [forall_family]
  cases hproc : w.procs pid.val with
  | read4 net orig4 =>
      simp only [LastRestores, moveOf, hproc]
      have hfound : (view .v4 w).stake pid.val = .found orig4 := by
        rw [view_stake, hproc]
        rfl
      have hout : (view .v6 w).stake pid.val = .out := by
        rw [view_stake, hproc]
        rfl
      refine and_congr ?_ ?_
      · simp only [Remembered.Meets, hfound, Stake.found.injEq, forall_eq', view_value]
        exact Iff.rfl
      · cases hjoin : net.ipv6 && !net.setsForwarding6 with
        | true =>
            simp only [Bool.and_eq_true, Bool.not_eq_true'] at hjoin
            simp only [if_true, Remembered.Meets, hout, view_value, hjoin, forall_const]
            exact Iff.rfl
        | false =>
            simp only [Bool.and_eq_false_iff, Bool.not_eq_false'] at hjoin
            simp only [Bool.false_eq_true, if_false, Remembered.Meets, iff_true]
            intro hv6 hsets
            rcases hjoin with hno | hyes
            · exact absurd hv6 (by rw [hno]; decide)
            · exact absurd hyes (by rw [hsets]; decide)
  | dead | other | set4 | read6 | ready | running | closing =>
      simp [LastRestores, hproc, Remembered.Meets]

theorem lastRestores_setForwarding6_iff (k : Sysctl) (w : World) (pid : Pid) :
    LastRestores k w (.setForwarding6 pid) ↔
      ∀ f, Remembered.Meets 0 1 (k.value f) (view f w) (moveOf w f (.setForwarding6 pid)) := by
  rw [forall_family]
  cases hproc : w.procs pid.val with
  | read6 net orig4 orig6 =>
      simp only [LastRestores, moveOf, hproc]
      have hfound : (view .v6 w).stake pid.val = .found orig6 := by
        rw [view_stake, hproc]
        rfl
      simp only [Remembered.Meets, hfound, Stake.found.injEq, forall_eq', view_value, true_and]
      exact Iff.rfl
  | dead | other | read4 | set4 | ready | running | closing =>
      simp [LastRestores, hproc, Remembered.Meets]

theorem lastRestores_destroyFirewallRules_iff (k : Sysctl) (w : World) (pid : Pid) :
    LastRestores k w (.destroyFirewallRules pid) ↔
      ∀ f, Remembered.Meets 0 1 (k.value f) (view f w) (moveOf w f (.destroyFirewallRules pid)) := by
  rw [forall_family]
  cases hproc : w.procs pid.val with
  | running net orig4 orig6 =>
      simp only [LastRestores, moveOf, hproc]
      have huses : (w.procs pid.val).stake .v4 = .uses (some orig4) := by
        rw [hproc]
        rfl
      rw [meets_leave_iff, and_iff_left Remembered.meets_skip]
      simp only [huses, Stake.uses.injEq, forall_eq', Bool.and_eq_true, lastUser_iff,
        Option.some.injEq, and_assoc]
  | dead | other | read4 | set4 | read6 | ready | closing =>
      simp [LastRestores, hproc, Remembered.Meets]

theorem lastRestores_restoreForwarding6_iff (k : Sysctl) (w : World) (pid : Pid) :
    LastRestores k w (.restoreForwarding6 pid) ↔
      ∀ f, Remembered.Meets 0 1 (k.value f) (view f w) (moveOf w f (.restoreForwarding6 pid)) := by
  rw [forall_family]
  cases hproc : w.procs pid.val with
  | closing net orig6 =>
      simp only [LastRestores, moveOf, hproc]
      rw [meets_leave_iff, and_iff_right Remembered.meets_skip]
      have hmemory : ∀ memory, (w.procs pid.val).stake .v6 = .uses memory → memory = orig6 := by
        intro memory huses
        rw [hproc] at huses
        exact memory6_eq huses
      constructor
      · intro hleaves memory huses
        rw [hmemory memory huses]
        simpa using hleaves ⟨memory, huses⟩
      · rintro hleaves ⟨memory, huses⟩
        have hrestores := hleaves memory huses
        rw [hmemory memory huses] at hrestores
        simpa using hrestores
  | dead | other | read4 | set4 | read6 | ready | running =>
      simp [LastRestores, hproc, Remembered.Meets]

theorem lastRestores_iff (k : Sysctl) (w : World) (a : Action) :
    LastRestores k w a ↔
      ∀ f, Remembered.Meets 0 1 (k.value f) (view f w) (moveOf w f a) := by
  cases a with
  | setForwarding pid => exact lastRestores_setForwarding_iff k w pid
  | setForwarding6 pid => exact lastRestores_setForwarding6_iff k w pid
  | destroyFirewallRules pid => exact lastRestores_destroyFirewallRules_iff k w pid
  | restoreForwarding6 pid => exact lastRestores_restoreForwarding6_iff k w pid
  | die pid =>
      refine forall_congr' (fun f => ?_)
      have hmove : moveOf w f (.die pid) = .leave pid.val false := by
        cases f <;> rfl
      rw [hmove, meets_leave_iff]
      simp only [Bool.false_eq_true, false_and, Uses, forall_exists_index]
  | spawn pid => simp [LastRestores, Remembered.Meets]
  | setupFirewallRules pid => simp [LastRestores, Remembered.Meets]
  | readForwarding pid net =>
      rw [forall_family]
      cases hproc : w.procs pid.val <;> simp [LastRestores, Remembered.Meets, hproc]
  | readForwarding6 pid =>
      rw [forall_family]
      cases hproc : w.procs pid.val with
      | set4 net orig4 =>
          simp only [LastRestores, moveOf, hproc, true_iff]
          refine ⟨Remembered.meets_skip, ?_⟩
          split
          · exact Remembered.meets_find
          · exact Remembered.meets_skip
      | dead | other | read4 | read6 | ready | running | closing =>
          simp [LastRestores, hproc, Remembered.Meets]

/-! ## Who is in the file -/

/-- The lines of the file have every run with outbound access. -/
def UsersListed (w : World) : Prop :=
  ∃ pids, FwUsers.HasLines w.users pids ∧
    ∀ pid net orig4 orig6, w.procs pid = .running net orig4 orig6 → net.isUser = true → pid ∈ pids

/-- A step that changes one process and keeps the lines of the others that live. -/
theorem UsersListed.enter {w : World} (h : UsersListed w) (w' : World) (hprocs : w'.procs = w.procs)
    (pid : Pid) {phase : Phase}
    (hlines : ∀ pids, FwUsers.HasLines w.users pids → ∃ pids', FwUsers.HasLines w'.users pids' ∧
      (∀ q, q ≠ pid.val → w.alive q = true → q ∈ pids → q ∈ pids') ∧
      ∀ net orig4 orig6, phase = .running net orig4 orig6 → net.isUser = true → pid.val ∈ pids') :
    UsersListed (enter w' pid phase) := by
  obtain ⟨pids, hhas, hrunning⟩ := h
  obtain ⟨pids', hhas', hothers, hmine⟩ := hlines pids hhas
  refine ⟨pids', hhas', fun q net orig4 orig6 hq huser => ?_⟩
  simp only [RootForwarding.enter] at hq
  by_cases hqp : q = pid.val
  · subst hqp
    rw [Function.update_self] at hq
    exact hmine net orig4 orig6 hq huser
  · rw [Function.update_of_ne hqp, hprocs] at hq
    exact hothers q hqp (by simp [World.alive, hq]) (hrunning q net orig4 orig6 hq huser)

theorem usersListed_step (w : World) (a : Action) (h : UsersListed w) :
    UsersListed (step w a) := by
  have hidle : ∀ (w' : World) (pid : Pid) (phase : Phase), w'.procs = w.procs →
      w'.users = w.users → (∀ net orig4 orig6, phase ≠ .running net orig4 orig6) →
      UsersListed (enter w' pid phase) := by
    intro w' pid phase hprocs husers hphase
    refine h.enter w' hprocs pid (fun pids hhas => ⟨pids, husers ▸ hhas, ?_, ?_⟩)
    · exact fun q _ _ hq => hq
    · exact fun net orig4 orig6 hrunning => absurd hrunning (hphase net orig4 orig6)
  cases a with
  | setupFirewallRules pid =>
      unfold step
      dsimp only
      split
      · rename_i net orig4 orig6 _
        unfold setupStep
        dsimp only
        refine UsersListed.enter h _ ?_ pid (fun pids hhas => ?_)
        · rfl
        cases huser : net.isUser with
        | true =>
            refine ⟨pids ++ [pid.val], hhas.add pid.isPid, ?_, ?_⟩
            · exact fun q _ _ hq => List.mem_append_left _ hq
            · exact fun _ _ _ _ _ => List.mem_append_right _ (List.mem_singleton_self _)
        | false =>
            refine ⟨pids, hhas, fun q _ _ hq => hq, ?_⟩
            intro net' _ _ hphase huser'
            cases hphase
            rw [huser] at huser'
            contradiction
      · exact h
  | destroyFirewallRules pid =>
      unfold step
      dsimp only
      split
      · unfold destroyStep
        split
        · refine UsersListed.enter h _ ?_ pid (fun pids hhas => ?_)
          · rfl
          obtain ⟨pids', hhas', hmem⟩ := hhas.del w.alive pid.val
          refine ⟨pids', hhas', fun q hq halive hin => (hmem q).mpr ⟨hq, halive, hin⟩, ?_⟩
          exact fun _ _ _ hphase => by cases hphase
        · exact hidle w pid _ rfl rfl (by simp)
      · exact h
  | spawn pid | setForwarding pid | setForwarding6 pid | restoreForwarding6 pid
  | readForwarding pid net =>
      unfold step
      dsimp only
      split
      · exact hidle _ pid _ rfl rfl (by simp)
      · exact h
  | readForwarding6 pid =>
      unfold step
      dsimp only
      split
      · split
        · exact hidle w pid _ rfl rfl (by simp)
        · exact hidle w pid _ rfl rfl (by simp)
      · exact h
  | die pid => exact hidle w pid _ rfl rfl (by simp)

/-- While a run with outbound access goes on, no other restores IPv4. -/
theorem othersListed_of_running (k : Sysctl) (actions : List Action) (pid : Pid) {q : Int}
    {net : Net} {orig4 : Int} {orig6 : Option Int} (hne : q ≠ pid.val)
    (hrunning : (run step (start k) actions).procs q = .running net orig4 orig6)
    (huser : net.isUser = true) : OthersListed (run step (start k) actions) pid := by
  have hstart : UsersListed (start k) :=
    ⟨[], ⟨rfl, fun _ hpid => absurd hpid List.not_mem_nil⟩, fun _ _ _ _ hphase => by cases hphase⟩
  obtain ⟨pids, hhas, hall⟩ := run_induct usersListed_step hstart actions
  refine ⟨q, hne, by simp [World.alive, hrunning], ?_⟩
  exact hhas.listed_iff.mpr (hall q net orig4 orig6 hrunning huser)

/-! ## Whole runs -/

def Inv (k : Sysctl) (w : World) : Prop := ∀ f, Remembered.Inv 0 1 (k.value f) (view f w)

theorem inv_start (k : Sysctl) : Inv k (start k) := by
  intro f
  constructor
  · rintro pid (h | h) <;> cases f <;> cases h
  · rintro ⟨pid, memory, h⟩
    cases f <;> cases h

theorem restored_start (k : Sysctl) : Restored k (start k) := by
  intro f
  refine ⟨?_, fun _ => rfl⟩
  rintro ⟨pid, memory, h⟩
  cases f <;> cases h

/--
In a run each family's sysctl is on while a container uses it and has its first
value while none does exactly when, of the containers that go, the last of each
family restores and no other.
-/
theorem forwarding_restored_iff (k : Sysctl) (actions : List Action) :
    (∀ before, before <+: actions → Restored k (run step (start k) before)) ↔
      StepsMeet step (LastRestores k) (start k) actions := by
  have hne : (0 : Int) ≠ 1 := by decide
  refine forall_prefix_good_iff_of_inv ?_ ?_ (inv_start k) (restored_start k) actions
  · intro w a hinv h hnext f
    rw [restored_iff] at h hnext
    have htracks := hnext f
    rw [view_step] at htracks ⊢
    exact (hinv f).move hne (h f) ((Remembered.tracks_move_iff hne (hinv f) (h f) _).mp htracks)
  · intro w a hinv h
    rw [restored_iff] at h
    rw [restored_iff, lastRestores_iff]
    refine forall_congr' (fun f => ?_)
    rw [view_step]
    exact Remembered.tracks_move_iff hne (hinv f) (h f) _

/-- A NAT run that found 0 goes while a bridge run that found 1 is there. -/
theorem forwarding_lost :
    ¬∀ (k : Sysctl) (actions before : List Action), before <+: actions →
      Restored k (run step (start k) before) := by
  intro hall
  let first : Pid := ⟨100, by decide, by decide⟩
  let second : Pid := ⟨200, by decide, by decide⟩
  let actions : List Action := [.spawn first, .spawn second,
    .readForwarding first ⟨true, true, false, false⟩, .setForwarding first, .readForwarding6 first,
    .setupFirewallRules first,
    .readForwarding second ⟨false, false, false, false⟩, .setForwarding second,
    .readForwarding6 second, .setupFirewallRules second,
    .destroyFirewallRules first]
  have hrestored := hall ⟨0, 0⟩ actions actions (List.prefix_refl _) .v4
  have hsecond : (run step (start ⟨0, 0⟩) actions).procs 200 =
      .running ⟨false, false, false, false⟩ 1 none := by
    decide
  have hvalue : (run step (start ⟨0, 0⟩) actions).sysctl.value .v4 = 0 := by
    decide
  have hone := hrestored.1 ⟨200, some 1, by rw [hsecond]; rfl⟩
  rw [hvalue] at hone
  contradiction

end Crate.RunCrate.RootForwarding
