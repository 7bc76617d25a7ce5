import Crate.PrivOps.Authz
import Crate.PrivOps.Transport
import Crate.PrivOps.ValidateReq

/-!
# Dispatch over libnv

`dispatchPrivOpFromMap` of `daemon/privops_handlers.cpp`: the gate judges a
record it reads from the field map itself, then the verb's parser and
validator run and the handler gets the parsed request.  The gate reads the jid
with `std::stoul`, the parser with `strtol`.
-/

namespace Crate.Crated

open Crate.Foundation
open Crate.PrivOpsPure
open Crate.PrivOpsNvPure
open Crate.PrivOpsAuthzPure
open Crate.PrivOpsWirePure (DispatchResult formatHandlerError formatParseError formatValidateError)

/-! ## What the gate judges -/

/-- `static_cast<unsigned>(std::stoul(s))`, and 0 after an exception. -/
def stoulOrZero (s : Str) : UInt32 :=
  match stoul s with
  | none => 0
  | some n => n.toUInt32

def field (m : FieldMap) (key : Str) : Str := (m.find? key).getD []

def gateRuleset (v : Verb) (m : FieldMap) : UInt32 :=
  if v = .applyDevfsRules then
    match m.find? "ruleset" with
    | none => 0
    | some s => stoulOrZero s
  else 0

def gateRequest (v : Verb) (m : FieldMap) : Request :=
  let req : Request :=
    { dataset := field m "dataset"
      loginclass := field m "loginclass"
      jailName := field m "name"
      jid := if field m "jid" = [] then 0 else stoulOrZero (field m "jid")
      devfsRuleset := gateRuleset v m }
  match v with
  | .mountNullfs => { req with path := field m "target", source := field m "source" }
  | .unmountNullfs | .mountTmpfs => { req with path := field m "target" }
  | .applyDevfsRuleset | .addDevfsUnhideRule | .applyDevfsRules =>
      { req with path := field m "mount_path" }
  | .createJail => { req with path := field m "path" }
  | .reclaimIfaceFromVnet =>
      { req with jailName := field m "jail_name", ifname := field m "ifname" }
  | .addPfRule | .removePfRule | .flushPfAnchor => { req with anchor := field m "anchor" }
  | .configureIface | .teardownIface | .setIfaceUp | .disableIfaceOffload | .setIfaceInetAddr
  | .setIfaceMac => { req with ifname := field m "ifname" }
  | .bridgeAddMember | .bridgeDelMember => { req with ifname := field m "member" }
  | _ => req

/-! ## The dispatcher -/

/--
What the gate takes from the daemon: the per-user configuration, the owner
lookup built from the registries, and the answer of `claimDevfsRuleset` for a
ruleset, a uid and a mount path.
-/
structure Gate where
  cfg : PerUserEnvPure.Config
  lookup : OwnerLookup
  claimDevfsRuleset : UInt32 → UInt32 → Str → Bool

inductive Outcome where
  | reply (result : DispatchResult)
  | handle (r : Req)
  deriving DecidableEq, Repr

def gateDecision (g : Gate) (operatorUid : UInt32) (v : Verb) (m : FieldMap) : Decision :=
  let dec := authorize v (gateRequest v m) (PerUserEnvPure.composeForUid g.cfg operatorUid).env
    g.lookup
  if dec = .allow ∧ v = .applyDevfsRules ∧
      !g.claimDevfsRuleset (gateRuleset v m) operatorUid (field m "mount_path") then
    .denyForeignDevfsRuleset
  else dec

def parseAndValidate (io : Bool) (v : Verb) (m : FieldMap) : Outcome :=
  match parse v m with
  | none =>
      .reply { status := 404, body := "\x7b\"error\":\"unknown or missing 'verb' field\"\x7d" }
  | some (.error e) => .reply { status := 400, body := formatParseError e }
  | some (.ok r) =>
      match validate r with
      | .error e => .reply { status := 400, body := formatValidateError e }
      | .ok () =>
          if v = .execInJail ∧ !io then
            .reply { status := 400
                     body := formatHandlerError "missing_descriptors"
                       "exec_in_jail needs stdin/stdout/stderr descriptors" }
          else .handle r

def dispatchPrivOpFromMap (g : Gate) (rootlessPerUser : Bool) (operatorUid : UInt32) (io : Bool)
    (m : FieldMap) : Outcome :=
  let v := extractVerb m
  if rootlessPerUser ∧ operatorUid > 0 ∧ gateDecision g operatorUid v m ≠ .allow then
    .reply { status := 403
             body := formatHandlerError "forbidden"
               (decisionReason (gateDecision g operatorUid v m)) }
  else parseAndValidate io v m

/-! ## What the handler acts on -/

/-- The verbs whose request has a `long jid`, which the handler casts to `int`. -/
def hasLongJid : Verb → Bool
  | .setRctl | .clearRctl | .attachZfs | .detachZfs | .configureIface => true
  | _ => false

def handledJid : Req → Option Int
  | .setRctl r => some r.jid.toInt32.toInt
  | .clearRctl r => some r.jid.toInt32.toInt
  | .attachZfs r => some r.jid.toInt32.toInt
  | .detachZfs r => some r.jid.toInt32.toInt
  | .configureIface r => some r.jid.toInt32.toInt
  | .setJailCpuset r => some r.jid.toNat
  | .queryJailRctl r => some r.jid.toNat
  | .signalJail r => some r.jid.toNat
  | .acquireFwLease r => some r.jid.toNat
  | .releaseFwLease r => some r.jid.toNat
  | .execInJail r => some r.jid.toNat
  | _ => none

def handledRuleset : Req → Option UInt32
  | .applyDevfsRules r => some r.ruleset
  | _ => none

/-- The gate judged the jid and the ruleset the handler acts on. -/
def JudgedTarget (v : Verb) (m : FieldMap) (r : Req) : Prop :=
  (∀ jid, handledJid r = some jid → ((gateRequest v m).jid.toNat : Int) = jid) ∧
    ∀ ruleset, handledRuleset r = some ruleset → (gateRequest v m).devfsRuleset = ruleset

def JudgedTargetWord (v : Verb) (m : FieldMap) (r : Req) : Prop :=
  (∀ jid, handledJid r = some jid → ((gateRequest v m).jid.toNat : Int) ≡ jid [ZMOD 2 ^ 32]) ∧
    ∀ ruleset, handledRuleset r = some ruleset → (gateRequest v m).devfsRuleset = ruleset

/-! ## Two readers of one number -/

theorem gateRequest_jid (v : Verb) (m : FieldMap) :
    (gateRequest v m).jid = if field m "jid" = [] then 0 else stoulOrZero (field m "jid") := by
  cases v <;> rfl

theorem gateRequest_devfsRuleset (v : Verb) (m : FieldMap) :
    (gateRequest v m).devfsRuleset = gateRuleset v m := by
  cases v <;> rfl

theorem toNat_stoulOrZero {s : Str} (h : allDigits s = true) :
    (stoulOrZero s).toNat = if 2 ^ 64 ≤ decimalValue s then 0 else decimalValue s % 2 ^ 32 := by
  rw [stoulOrZero, stoul_digits h]
  by_cases hlarge : decimalValue s ≥ 2 ^ 64
  · rw [if_pos hlarge, if_pos hlarge]
    rfl
  · have hlt : decimalValue s < 2 ^ 64 := by omega
    simp only [hlarge, if_false, UInt64.toNat_toUInt32, UInt64.toNat_ofNat',
      Nat.mod_eq_of_lt hlt]

theorem isIntegerText_of_longValue {key s : Str} {n : Int64} (h : longValue key s = .ok n) :
    isIntegerText s = true ∧ strtol s = n := by
  unfold longValue at h
  split at h
  · contradiction
  · split at h
    · contradiction
    · rename_i htext
      exact ⟨by simpa using htext, Except.ok.inj h⟩

/-- A positive number that `requireLong` read is a numeral, cut at the end of `long`. -/
theorem digits_of_requireLong {m : FieldMap} {key : Str} {n : Int64}
    (hread : requireLong m key = .ok n) (hpos : 0 < n.toInt) :
    m.find? key = some (field m key) ∧ allDigits (field m key) = true ∧
      n.toInt = (min (decimalValue (field m key)) longMax : Nat) := by
  unfold requireLong requiredField at hread
  split at hread
  · contradiction
  · rename_i s hfind
    have hfield : field m key = s := by simp [field, hfind]
    obtain ⟨htext, hvalue⟩ := isIntegerText_of_longValue hread
    rw [hfield]
    unfold isIntegerText at htext
    split at htext
    · rename_i digits
      have hall : digits.all isDecimalDigit = true := by
        simp only [allDigits, Bool.and_eq_true] at htext
        exact htext.2
      have hminus := strtol_minus hall
      rw [hvalue] at hminus
      omega
    · have hall : s.all isDecimalDigit = true := by
        simp only [allDigits, Bool.and_eq_true] at htext
        exact htext.2
      refine ⟨hfind, htext, ?_⟩
      rw [← hvalue, strtol_digits hall]

theorem stoulOrZero_of_requireUnsigned {m : FieldMap} {key : Str} {u : UInt32}
    (hread : requireUnsigned m key = .ok u) (hpos : 0 < u.toNat) :
    m.find? key = some (field m key) ∧ field m key ≠ [] ∧ stoulOrZero (field m key) = u := by
  obtain ⟨n, hlong, hnarrow⟩ := bind_eq_ok.mp hread
  rw [narrowUnsigned_eq_ok_iff] at hnarrow
  obtain ⟨hfind, hdigits, hvalue⟩ := digits_of_requireLong hlong (by omega)
  have hlt := u.toNat_lt
  refine ⟨hfind, ?_, ?_⟩
  · intro hnil
    rw [hnil] at hdigits
    contradiction
  · rw [← UInt32.toNat_inj, toNat_stoulOrZero hdigits]
    simp only [longMax] at hvalue
    split <;> omega

/-! ## The jid of one request -/

/-- Both readers find the jid, and it fits in an `int`. -/
def FitsLong (s : Str) : Prop := decimalValue s < 2 ^ 63 ∧ decimalValue s % 2 ^ 32 < 2 ^ 31

def FitsWord (s : Str) : Prop :=
  decimalValue s < 2 ^ 63 ∨ (decimalValue s < 2 ^ 64 ∧ decimalValue s % 2 ^ 32 = 2 ^ 32 - 1)

section LongJid

variable {m : FieldMap} {n : Int64} (hread : requireLong m "jid" = .ok n) (hpos : 0 < n.toInt)

include hread hpos

theorem toNat_gate_jid (v : Verb) :
    (gateRequest v m).jid.toNat =
      if 2 ^ 64 ≤ decimalValue (field m "jid") then 0
      else decimalValue (field m "jid") % 2 ^ 32 := by
  obtain ⟨-, hdigits, -⟩ := digits_of_requireLong hread hpos
  have hne : field m "jid" ≠ [] := by
    intro hnil
    rw [hnil] at hdigits
    contradiction
  rw [gateRequest_jid, if_neg hne, toNat_stoulOrZero hdigits]

/-- `strtol` stops at `LONG_MAX`, whose low word is all ones. -/
theorem toInt_handled_jid :
    n.toInt32.toInt =
      if decimalValue (field m "jid") < 2 ^ 63 then
        if decimalValue (field m "jid") % 2 ^ 32 < 2 ^ 31 then
          ((decimalValue (field m "jid") % 2 ^ 32 : Nat) : Int)
        else ((decimalValue (field m "jid") % 2 ^ 32 : Nat) : Int) - 2 ^ 32
      else -1 := by
  obtain ⟨-, -, hvalue⟩ := digits_of_requireLong hread hpos
  simp only [longMax] at hvalue
  split
  · exact toInt_toInt32_of_nonneg (by omega)
  · have hmax : n.toInt = ((2 ^ 63 - 1 : Nat) : Int) := by omega
    rw [toInt_toInt32_of_nonneg hmax]
    rfl

theorem gate_jid_eq_iff (v : Verb) :
    ((gateRequest v m).jid.toNat : Int) = n.toInt32.toInt ↔ FitsLong (field m "jid") := by
  rw [toNat_gate_jid hread hpos, toInt_handled_jid hread hpos, FitsLong]
  generalize decimalValue (field m "jid") = jid
  constructor
  · intro heq
    split_ifs at heq <;> omega
  · rintro ⟨hlong, hint⟩
    split_ifs <;> omega

theorem gate_jid_modEq_iff (v : Verb) :
    ((gateRequest v m).jid.toNat : Int) ≡ n.toInt32.toInt [ZMOD 2 ^ 32] ↔
      FitsWord (field m "jid") := by
  rw [toNat_gate_jid hread hpos, toInt_handled_jid hread hpos, FitsWord, Int.ModEq]
  generalize decimalValue (field m "jid") = jid
  split_ifs <;> omega

end LongJid

/-! ## Every request that reaches its handler -/

theorem dispatch_handle {g : Gate} {uid : UInt32} {io : Bool} {m : FieldMap} {r : Req}
    (h : dispatchPrivOpFromMap g true uid io m = .handle r) :
    parse (extractVerb m) m = some (.ok r) ∧ validate r = .ok () := by
  unfold dispatchPrivOpFromMap parseAndValidate at h
  simp only at h
  split at h
  · contradiction
  · split at h
    · contradiction
    · contradiction
    · rename_i hparse
      split at h
      · contradiction
      · rename_i hvalidate
        split at h
        · contradiction
        · cases h
          exact ⟨hparse, hvalidate⟩

theorem toInt_pos_of_checkLongJid {jid : Int64} (h : checkLongJid jid = .ok ()) :
    0 < jid.toInt := by
  have hlt : ¬jid < 1 := by simpa [checkLongJid] using h
  rw [Int64.lt_iff_toInt_lt] at hlt
  have hone : (1 : Int64).toInt = 1 := by decide
  omega

/-- The range check of the `unsigned` fields rejects zero. -/
theorem toNat_pos_of_in_range {n : UInt32} (h : ¬(n = 0 ∨ n > 65535)) : 0 < n.toNat := by
  rw [Nat.pos_iff_ne_zero]
  intro hzero
  exact h (.inl (UInt32.toNat_inj.mp hzero))

theorem toNat_pos_of_checkUnsignedJid {jid : UInt32} (h : checkUnsignedJid jid = .ok ()) :
    0 < jid.toNat := by
  apply toNat_pos_of_in_range
  simpa only [checkUnsignedJid, reject_eq_ok] using h

theorem toNat_pos_of_checkRuleset {ruleset : UInt32} (h : checkRuleset ruleset = .ok ()) :
    0 < ruleset.toNat := by
  apply toNat_pos_of_in_range
  simpa only [checkRuleset, reject_eq_ok] using h

theorem gate_jid_of_requireUnsigned {m : FieldMap} {jid : UInt32} (v : Verb)
    (hread : requireUnsigned m "jid" = .ok jid) (hvalid : checkUnsignedJid jid = .ok ()) :
    (gateRequest v m).jid = jid := by
  obtain ⟨-, hne, hjid⟩ :=
    stoulOrZero_of_requireUnsigned hread (toNat_pos_of_checkUnsignedJid hvalid)
  rw [gateRequest_jid, if_neg hne, hjid]

section Read

variable {v : Verb} {m : FieldMap} {r : Req} (hparse : parse v m = some (.ok r))
  (hvalid : validate r = .ok ())

include hparse hvalid

theorem handledJid_of_long (hlong : hasLongJid v = true) :
    ∃ n, requireLong m "jid" = .ok n ∧ 0 < n.toInt ∧ handledJid r = some n.toInt32.toInt := by
  cases v with
  | setRctl =>
      obtain ⟨req, hreq, rfl⟩ := map_eq_ok.mp (Option.some.inj hparse)
      simp only [parseSetRctl, bind_eq_ok, pure_eq_ok, Except.ok.injEq] at hreq
      obtain ⟨jid, hjid, _, -, _, -, rfl⟩ := hreq
      simp only [validate, validateSetRctl, check_seq_eq_ok] at hvalid
      exact ⟨jid, hjid, toInt_pos_of_checkLongJid hvalid.1, rfl⟩
  | clearRctl =>
      obtain ⟨req, hreq, rfl⟩ := map_eq_ok.mp (Option.some.inj hparse)
      simp only [parseClearRctl, bind_eq_ok, pure_eq_ok, Except.ok.injEq] at hreq
      obtain ⟨jid, hjid, _, -, rfl⟩ := hreq
      simp only [validate, validateClearRctl, check_seq_eq_ok] at hvalid
      exact ⟨jid, hjid, toInt_pos_of_checkLongJid hvalid.1, rfl⟩
  | attachZfs =>
      obtain ⟨req, hreq, rfl⟩ := map_eq_ok.mp (Option.some.inj hparse)
      simp only [parseAttachZfs, bind_eq_ok, pure_eq_ok, Except.ok.injEq] at hreq
      obtain ⟨jid, hjid, _, -, rfl⟩ := hreq
      simp only [validate, validateAttachZfs, check_seq_eq_ok] at hvalid
      exact ⟨jid, hjid, toInt_pos_of_checkLongJid hvalid.1, rfl⟩
  | detachZfs =>
      obtain ⟨req, hreq, rfl⟩ := map_eq_ok.mp (Option.some.inj hparse)
      simp only [parseDetachZfs, bind_eq_ok, pure_eq_ok, Except.ok.injEq] at hreq
      obtain ⟨jid, hjid, _, -, rfl⟩ := hreq
      simp only [validate, validateDetachZfs, check_seq_eq_ok] at hvalid
      exact ⟨jid, hjid, toInt_pos_of_checkLongJid hvalid.1, rfl⟩
  | configureIface =>
      obtain ⟨req, hreq, rfl⟩ := map_eq_ok.mp (Option.some.inj hparse)
      simp only [parseConfigureIface, bind_eq_ok, pure_eq_ok, Except.ok.injEq] at hreq
      obtain ⟨jid, hjid, _, -, _, -, _, -, _, -, _, -, rfl⟩ := hreq
      simp only [validate, validateConfigureIface, check_seq_eq_ok] at hvalid
      exact ⟨jid, hjid, toInt_pos_of_checkLongJid hvalid.1, rfl⟩
  | _ => contradiction

theorem gate_jid_of_unsigned (hlong : hasLongJid v = false) {jid : Int}
    (hjid : handledJid r = some jid) : ((gateRequest v m).jid.toNat : Int) = jid := by
  cases v with
  | unknown => contradiction
  | setRctl | clearRctl | attachZfs | detachZfs | configureIface => contradiction
  | setJailCpuset =>
      obtain ⟨req, hreq, rfl⟩ := map_eq_ok.mp (Option.some.inj hparse)
      simp only [parseSetJailCpuset, bind_eq_ok, pure_eq_ok, Except.ok.injEq] at hreq
      obtain ⟨jid, hread, _, -, rfl⟩ := hreq
      simp only [validate, validateSetJailCpuset, check_seq_eq_ok] at hvalid
      rw [gate_jid_of_requireUnsigned .setJailCpuset hread hvalid.1]
      exact Option.some.inj hjid
  | queryJailRctl =>
      obtain ⟨req, hreq, rfl⟩ := map_eq_ok.mp (Option.some.inj hparse)
      simp only [parseQueryJailRctl, bind_eq_ok, pure_eq_ok, Except.ok.injEq] at hreq
      obtain ⟨jid, hread, _, -, rfl⟩ := hreq
      rw [gate_jid_of_requireUnsigned .queryJailRctl hread hvalid]
      exact Option.some.inj hjid
  | signalJail =>
      obtain ⟨req, hreq, rfl⟩ := map_eq_ok.mp (Option.some.inj hparse)
      simp only [parseSignalJail, bind_eq_ok, pure_eq_ok, Except.ok.injEq] at hreq
      obtain ⟨jid, hread, _, -, rfl⟩ := hreq
      simp only [validate, validateSignalJail, check_seq_eq_ok] at hvalid
      rw [gate_jid_of_requireUnsigned .signalJail hread hvalid.1]
      exact Option.some.inj hjid
  | acquireFwLease =>
      obtain ⟨req, hreq, rfl⟩ := map_eq_ok.mp (Option.some.inj hparse)
      simp only [parseAcquireFwLease, bind_eq_ok, pure_eq_ok, Except.ok.injEq] at hreq
      obtain ⟨jid, hread, _, -, _, -, _, -, rfl⟩ := hreq
      simp only [validate, validateAcquireFwLease, check_seq_eq_ok] at hvalid
      rw [gate_jid_of_requireUnsigned .acquireFwLease hread hvalid.1]
      exact Option.some.inj hjid
  | releaseFwLease =>
      obtain ⟨req, hreq, rfl⟩ := map_eq_ok.mp (Option.some.inj hparse)
      simp only [parseReleaseFwLease, bind_eq_ok, pure_eq_ok, Except.ok.injEq] at hreq
      obtain ⟨jid, hread, rfl⟩ := hreq
      rw [gate_jid_of_requireUnsigned .releaseFwLease hread hvalid]
      exact Option.some.inj hjid
  | execInJail =>
      obtain ⟨req, hreq, rfl⟩ := map_eq_ok.mp (Option.some.inj hparse)
      simp only [parseExecInJail, bind_eq_ok, pure_eq_ok, Except.ok.injEq] at hreq
      obtain ⟨jid, hread, _, -, _, -, _, -, _, -, _, -, rfl⟩ := hreq
      simp only [validate, validateExecInJail, check_seq_eq_ok] at hvalid
      rw [gate_jid_of_requireUnsigned .execInJail hread hvalid.1]
      exact Option.some.inj hjid
  | _ =>
      obtain ⟨req, -, rfl⟩ := map_eq_ok.mp (Option.some.inj hparse)
      contradiction

theorem gate_ruleset {ruleset : UInt32} (hruleset : handledRuleset r = some ruleset) :
    (gateRequest v m).devfsRuleset = ruleset := by
  cases v with
  | unknown => contradiction
  | applyDevfsRules =>
      obtain ⟨req, hreq, rfl⟩ := map_eq_ok.mp (Option.some.inj hparse)
      simp only [parseApplyDevfsRules, bind_eq_ok, pure_eq_ok, Except.ok.injEq] at hreq
      obtain ⟨_, -, number, hread, _, -, _, -, _, -, rfl⟩ := hreq
      simp only [validate, validateApplyDevfsRules, check_seq_eq_ok] at hvalid
      obtain ⟨hfind, -, hnumber⟩ :=
        stoulOrZero_of_requireUnsigned hread (toNat_pos_of_checkRuleset hvalid.2.1)
      rw [gateRequest_devfsRuleset, gateRuleset, if_pos rfl, hfind]
      exact hnumber.trans (Option.some.inj hruleset)
  | _ =>
      obtain ⟨req, -, rfl⟩ := map_eq_ok.mp (Option.some.inj hparse)
      contradiction

end Read

/--
A per-user request that reaches its handler acts on the jid and the ruleset the
gate judged, as numbers and as 32-bit words, exactly when a `long jid` fits.
-/
theorem handler_acts_on_judged_iff {g : Gate} {uid : UInt32} {io : Bool}
    {m : FieldMap} {r : Req} (h : dispatchPrivOpFromMap g true uid io m = .handle r) :
    (JudgedTarget (extractVerb m) m r ↔
      (hasLongJid (extractVerb m) = true → FitsLong (field m "jid"))) ∧
    (JudgedTargetWord (extractVerb m) m r ↔
      (hasLongJid (extractVerb m) = true → FitsWord (field m "jid"))) := by
  obtain ⟨hparse, hvalid⟩ := dispatch_handle h
  have hruleset : ∀ ruleset, handledRuleset r = some ruleset →
      (gateRequest (extractVerb m) m).devfsRuleset = ruleset :=
    fun _ => gate_ruleset hparse hvalid
  cases hlong : hasLongJid (extractVerb m) with
  | false =>
      have hjid : ∀ jid, handledJid r = some jid →
          ((gateRequest (extractVerb m) m).jid.toNat : Int) = jid :=
        fun _ => gate_jid_of_unsigned hparse hvalid hlong
      constructor
      · simp only [Bool.false_eq_true, false_imp_iff, iff_true]
        exact ⟨hjid, hruleset⟩
      · simp only [Bool.false_eq_true, false_imp_iff, iff_true]
        exact ⟨fun jid hsome => hjid jid hsome ▸ Int.ModEq.refl _, hruleset⟩
  | true =>
      obtain ⟨n, hread, hpos, hsome⟩ := handledJid_of_long hparse hvalid hlong
      have hfits := gate_jid_eq_iff hread hpos (extractVerb m)
      have hword := gate_jid_modEq_iff hread hpos (extractVerb m)
      simp only [true_imp_iff, JudgedTarget, JudgedTargetWord, hsome, Option.some.injEq,
        forall_eq', and_iff_left hruleset]
      exact ⟨hfits, hword⟩

def oneJailGate : Gate :=
  { cfg := {}
    lookup :=
      { byJid := some (fun jid => if jid = 7 then { known := true, uid := 1000 } else {}) }
    claimDevfsRuleset := fun _ _ _ => true }

def clearRctlMap (jid : Str) : FieldMap :=
  .ofList [("verb", "clear_rctl"), ("jid", jid), ("key", "pcpu")]

theorem own_jid_is_judged :
    dispatchPrivOpFromMap oneJailGate true 1000 false (clearRctlMap "7") =
        .handle (.clearRctl { jid := 7, key := "pcpu" }) ∧
      JudgedTarget .clearRctl (clearRctlMap "7") (.clearRctl { jid := 7, key := "pcpu" }) := by
  have hhandle : dispatchPrivOpFromMap oneJailGate true 1000 false (clearRctlMap "7") =
      .handle (.clearRctl { jid := 7, key := "pcpu" }) := by decide
  refine ⟨hhandle, (handler_acts_on_judged_iff hhandle).1.mpr (fun _ => ?_)⟩
  exact ⟨by decide, by decide⟩

/-- `std::stoul` reads the numeral, `strtol` stops at `LONG_MAX`: the gate looks up no jail. -/
theorem saturated_jid_is_not_judged :
    dispatchPrivOpFromMap oneJailGate true 1000 false (clearRctlMap "9223372036854775808") =
        .handle (.clearRctl { jid := Int64.maxValue, key := "pcpu" }) ∧
      (gateRequest .clearRctl (clearRctlMap "9223372036854775808")).jid = 0 ∧
      handledJid (.clearRctl { jid := Int64.maxValue, key := "pcpu" }) = some (-1) ∧
      ¬JudgedTarget .clearRctl (clearRctlMap "9223372036854775808")
        (.clearRctl { jid := Int64.maxValue, key := "pcpu" }) ∧
      ¬JudgedTargetWord .clearRctl (clearRctlMap "9223372036854775808")
        (.clearRctl { jid := Int64.maxValue, key := "pcpu" }) := by
  have hgate : (gateRequest .clearRctl (clearRctlMap "9223372036854775808")).jid = 0 := by
    decide
  have hjid : handledJid (.clearRctl { jid := Int64.maxValue, key := "pcpu" }) = some (-1) := by
    decide
  refine ⟨by decide, hgate, hjid, ?_, ?_⟩
  · intro h
    have := h.1 (-1) hjid
    rw [hgate] at this
    contradiction
  · intro h
    have := h.1 (-1) hjid
    rw [hgate] at this
    revert this
    decide

end Crate.Crated
