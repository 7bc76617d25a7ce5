import Crate.Foundation.Run
import Crate.Registry.JidOwner

/-!
# The registry next to the kernel

A world is the daemon's registry together with the jails the kernel runs.
Registry calls and the life and death of jails are the actions of one machine,
in any order: a jail may appear without being recorded and die without being
forgotten.  The probe the daemon installs accepts an entry exactly when its
jid is live under its name.
-/

namespace Crate

open Crate.Foundation
open Crate.JidOwnerRegistryPure (Entry LiveProbe)

/-- The live jails: a jid has one name, and a name has one jid. -/
structure LiveJails where
  jails : OrdMap Nat Str
  unique : ∀ {j₁ j₂ n}, jails.find? j₁ = some n → jails.find? j₂ = some n → j₁ = j₂

namespace LiveJails

variable {live : LiveJails} {jid j : Nat} {name n : Str}

def noJails : LiveJails := ⟨.empty, by simp⟩

def free (live : LiveJails) (jid : Nat) (name : Str) : Bool :=
  (live.jails.find? jid).isNone && live.jails.entries.all (fun kv => kv.2 ≠ name)

theorem name_ne_of_free (hfree : live.free jid name = true)
    (h : live.jails.find? j = some n) : n ≠ name := by
  simp only [free, Bool.and_eq_true, List.all_eq_true, decide_eq_true_eq] at hfree
  exact hfree.2 _ (OrdMap.find?_eq_some_iff.mp h)

private theorem unique_insert (hfree : live.free jid name = true) {j₁ j₂ : Nat}
    (h₁ : (live.jails.insert jid name).find? j₁ = some n)
    (h₂ : (live.jails.insert jid name).find? j₂ = some n) : j₁ = j₂ := by
  rw [OrdMap.find?_insert] at h₁ h₂
  by_cases heq₁ : jid = j₁
  · by_cases heq₂ : jid = j₂
    · omega
    · rw [if_pos heq₁, Option.some.injEq] at h₁
      rw [if_neg heq₂] at h₂
      exact absurd h₁.symm (name_ne_of_free hfree h₂)
  · rw [if_neg heq₁] at h₁
    by_cases heq₂ : jid = j₂
    · rw [if_pos heq₂, Option.some.injEq] at h₂
      exact absurd h₂.symm (name_ne_of_free hfree h₁)
    · rw [if_neg heq₂] at h₂
      exact live.unique h₁ h₂

private theorem find?_of_erase (h : (live.jails.erase jid).find? j = some n) :
    live.jails.find? j = some n := by
  rw [OrdMap.find?_erase] at h
  split at h
  · contradiction
  · exact h

def appear (live : LiveJails) (jid : Nat) (name : Str) : LiveJails :=
  if hfree : live.free jid name = true then
    ⟨live.jails.insert jid name, unique_insert hfree⟩
  else live

def die (live : LiveJails) (jid : Nat) : LiveJails :=
  ⟨live.jails.erase jid, fun h₁ h₂ =>
    live.unique (find?_of_erase h₁) (find?_of_erase h₂)⟩

theorem find?_appear_of_free (hfree : live.free jid name = true) :
    (live.appear jid name).jails.find? j =
      if jid = j then some name else live.jails.find? j := by
  rw [appear, dif_pos hfree]
  exact OrdMap.find?_insert _ _ _ _

theorem appear_of_not_free (h : live.free jid name = false) :
    live.appear jid name = live := by
  rw [appear, dif_neg (by simp [h])]

theorem find?_of_die (h : (live.die jid).jails.find? j = some n) :
    live.jails.find? j = some n :=
  find?_of_erase h

end LiveJails

structure World where
  reg : JidOwnerRegistry
  live : LiveJails

namespace World

inductive Action where
  | recordCreate (jid : Nat) (uid : UInt32) (name path : Str)
  | forgetByJid (jid : Nat)
  | forgetByName (name : Str)
  | lookupByJid (jid : Nat)
  | lookupByName (name : Str)
  | lookupByPath (path : Str)
  | reconcile
  | appear (jid : Nat) (name : Str)
  | die (jid : Nat)

def probe (w : World) : LiveProbe := fun jid e => w.live.jails.find? jid = some e.name

def step (w : World) : Action → World
  | .recordCreate jid uid name path => { w with reg := w.reg.recordCreate jid uid name path }
  | .forgetByJid jid => { w with reg := (w.reg.forgetByJid jid).2 }
  | .forgetByName name => { w with reg := (w.reg.forgetByName name).2 }
  | .lookupByJid jid => { w with reg := (w.reg.lookupByJid w.probe jid).2 }
  | .lookupByName name => { w with reg := (w.reg.lookupByName w.probe name).2 }
  | .lookupByPath _ => w
  | .reconcile => { w with reg := (w.reg.reconcile w.probe).2 }
  | .appear jid name => { w with live := w.live.appear jid name }
  | .die jid => { w with live := w.live.die jid }

/-- A registered jail that runs under the name it was recorded with. -/
def LiveEntry (w : World) (jid : Nat) (e : Entry) : Prop :=
  w.reg.entries.find? jid = some e ∧ w.live.jails.find? jid = some e.name

def Reconciled (w : World) : Prop :=
  ∀ jid e, w.reg.entries.find? jid = some e → w.LiveEntry jid e

def initial : World := ⟨{}, .noJails⟩

theorem initial_reconciled : initial.Reconciled := by
  intro jid e h
  simp [initial] at h

end World

end Crate
