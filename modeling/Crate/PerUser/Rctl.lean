import Crate.Foundation.Check

/-!
# Per-user resource control

The loginclass umbrella of `lib/per_user_rctl_pure.cpp`: the name
`crate-<uid>`, its rctl(8) subject and the shape check on a requested name.
-/

namespace Crate.PerUserRctlPure

open Crate.Foundation

def kPrefix : Str := "crate-"

def uidStr (uid : UInt32) : Str := digitString uid.toNat

def loginclassName (uid : UInt32) : Str := kPrefix ++ uidStr uid

def loginclassSubject (uid : UInt32) : Str := "loginclass:" ++ loginclassName uid

-- The dash in the first message is three bytes of UTF-8.
def validateLoginclassName (name : Str) : Check := do
  reject (name.length ≤ kPrefix.length)
    ("loginclass too short \xe2\x80\x94 expected '" ++ kPrefix ++ "<uid>'")
  reject (name.take kPrefix.length ≠ kPrefix) "loginclass missing 'crate-' prefix"
  let tail := name.drop kPrefix.length
  reject (tail = []) "loginclass missing uid suffix"
  reject (tail.length > 10) "loginclass uid suffix too long (>10 chars)"
  reject (tail.length > 1 ∧ tail.head? = some '0') "loginclass uid suffix has leading zero"
  reject (!tail.all isDecimalDigit) "loginclass uid suffix is not all digits"

@[simp] theorem uidStr_eq_decimal (uid : UInt32) : uidStr uid = decimal uid.toNat :=
  digitString_eq_decimal uid.toNat

theorem loginclassName_injective : Function.Injective loginclassName := by
  intro u₁ u₂ h
  simp only [loginclassName, uidStr_eq_decimal, List.append_cancel_left_eq] at h
  exact UInt32.toNat_inj.mp (decimal_injective h)

end Crate.PerUserRctlPure
