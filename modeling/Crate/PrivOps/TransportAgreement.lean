import Crate.PrivOps.Transport

/-!
# The transports agree, verb by verb

The wire parser and the map parser of a verb read the same fields in step.
For each verb the rules of `Agrees` turn the reads into the condition under
which the two requests are the same.
-/

namespace Crate.PrivOpsWirePure

open Crate.Foundation
open Crate.PrivOpsPure
open Crate.PrivOpsNvPure (requireString readIndexed checkArgc)

/-! ## Reading a whole request -/

/-- The wire parser `w` and the map parser `n` of the fields of `s`. -/
def AgreesOn {α : Type} (ms : Members) (s : Shape) (w n : Except Str α) : Prop :=
  Agrees (Complete ms s) (Clean ms s) w n

namespace AgreesOn

variable {ms : Members} {fs : List Field} {items : Option (Str × Nat)} {α β : Type}

theorem ok (r : α) : AgreesOn ms { fields := [] } (.ok r) (.ok r) :=
  (Agrees.ok r).congr (by simp [Complete, ItemsSupplied]) (by simp [Clean, ItemsReadable])

theorem bind {f : Field} {w n : Except Str α} {wk nk : α → Except Str β}
    (h : Paired (f.Supplied ms) (f.Readable ms) w n)
    (hk : ∀ x, n = .ok x → AgreesOn ms { fields := fs, items } (wk x) (nk x)) :
    AgreesOn ms { fields := f :: fs, items } (w >>= wk) (n >>= nk) :=
  (Agrees.bind h hk).congr (by simp [Complete, and_assoc]) (by simp [Clean, and_assoc])

theorem ignore {f : Field} (hneed : f.need = .lenient) {y : α} {n : Except Str α}
    (wk nk : α → Except Str β) (h : ∃ x, n = .ok x ∧ (f.Readable ms ↔ y = x))
    (hinj : ∀ y x r, wk y = .ok r → nk x = .ok r → y = x)
    (hk : ∀ x, AgreesOn ms { fields := fs, items } (wk x) (nk x)) :
    AgreesOn ms { fields := f :: fs, items } (wk y) (n >>= nk) := by
  obtain ⟨x, rfl, hreadable⟩ := h
  refine (Agrees.ofValues hinj hk).congr ?_ ?_
  · simp [Complete, Field.Supplied, hneed]
  · simp [Clean, hreadable, and_assoc]

theorem numbered {v : Verb} (a : Assignment v) {stem : Str} {max : Nat}
    (hitems : (shape v).items = some (stem, max)) {argc : UInt32}
    (hargc : argc.toNat = argcOf a.members) (g : List Str → α) :
    AgreesOn a.members { fields := [], items := some (stem, max) }
      (do
        checkArgc argc max
        let l ← readIndexed (requireStringField (jsonBody a.members)) stem 0 argc.toNat
        return g l)
      (do
        checkArgc argc max
        let l ← readIndexed (requireString (fieldMap a.members)) stem 0 argc.toNat
        return g l) := by
  refine (Agrees.bind (Paired.refl _) fun _ _ =>
    Agrees.bind (a.readIndexed_paired hitems argc.toNat 0) fun l _ => .ok (g l)).congr ?_ ?_
  · simp [Complete, ItemsSupplied, exists_checkArgc_eq_ok, hargc]
  · simp [Clean, ItemsReadable, hargc]

end AgreesOn

/-! ## The verbs -/

theorem parseCreateJail_agrees (a : Assignment .createJail) :
    AgreesOn a.members (shape .createJail) (parseCreateJail (jsonBody a.members))
      (PrivOpsNvPure.parseCreateJail (fieldMap a.members)) :=
  .bind (a.requireText rfl) fun _ _ => .bind (a.requireText rfl) fun _ _ =>
    .bind (a.optionalText rfl) fun _ _ => .bind (a.optionalFlag rfl _) fun _ _ =>
    .bind (a.optionalText rfl) fun _ _ => .ok _

theorem parseDestroyJail_agrees (a : Assignment .destroyJail) :
    AgreesOn a.members (shape .destroyJail) (parseDestroyJail (jsonBody a.members))
      (PrivOpsNvPure.parseDestroyJail (fieldMap a.members)) :=
  .bind (a.requireText rfl) fun _ _ => .bind (a.optionalFlag rfl _) fun _ _ => .ok _

theorem parseMountNullfs_agrees (a : Assignment .mountNullfs) :
    AgreesOn a.members (shape .mountNullfs) (parseMountNullfs (jsonBody a.members))
      (PrivOpsNvPure.parseMountNullfs (fieldMap a.members)) :=
  .bind (a.requireText rfl) fun _ _ => .bind (a.requireText rfl) fun _ _ =>
    .bind (a.optionalFlag rfl _) fun _ _ => .ok _

theorem parseUnmountNullfs_agrees (a : Assignment .unmountNullfs) :
    AgreesOn a.members (shape .unmountNullfs) (parseUnmountNullfs (jsonBody a.members))
      (PrivOpsNvPure.parseUnmountNullfs (fieldMap a.members)) :=
  .bind (a.requireText rfl) fun _ _ => .bind (a.optionalFlag rfl _) fun _ _ => .ok _

theorem parseSetRctl_agrees (a : Assignment .setRctl) :
    AgreesOn a.members (shape .setRctl) (parseSetRctl (jsonBody a.members))
      (PrivOpsNvPure.parseSetRctl (fieldMap a.members)) :=
  .bind (a.requireLong rfl) fun _ _ => .bind (a.requireText rfl) fun _ _ =>
    .bind (a.requireText rfl) fun _ _ => .ok _

theorem parseClearRctl_agrees (a : Assignment .clearRctl) :
    AgreesOn a.members (shape .clearRctl) (parseClearRctl (jsonBody a.members))
      (PrivOpsNvPure.parseClearRctl (fieldMap a.members)) :=
  .bind (a.requireLong rfl) fun _ _ => .bind (a.requireText rfl) fun _ _ => .ok _

theorem parseAttachZfs_agrees (a : Assignment .attachZfs) :
    AgreesOn a.members (shape .attachZfs) (parseAttachZfs (jsonBody a.members))
      (PrivOpsNvPure.parseAttachZfs (fieldMap a.members)) :=
  .bind (a.requireLong rfl) fun _ _ => .bind (a.requireText rfl) fun _ _ => .ok _

theorem parseDetachZfs_agrees (a : Assignment .detachZfs) :
    AgreesOn a.members (shape .detachZfs) (parseDetachZfs (jsonBody a.members))
      (PrivOpsNvPure.parseDetachZfs (fieldMap a.members)) :=
  .bind (a.requireLong rfl) fun _ _ => .bind (a.requireText rfl) fun _ _ => .ok _

theorem parseConfigureIface_agrees (a : Assignment .configureIface) :
    AgreesOn a.members (shape .configureIface) (parseConfigureIface (jsonBody a.members))
      (PrivOpsNvPure.parseConfigureIface (fieldMap a.members)) :=
  .bind (a.requireLong rfl) fun _ _ => .bind (a.requireText rfl) fun _ _ =>
    .bind (a.optionalText rfl) fun _ _ => .bind (a.optionalText rfl) fun _ _ =>
    .bind (a.optionalText rfl) fun _ _ => .bind (a.optionalText rfl) fun _ _ => .ok _

theorem parseTeardownIface_agrees (a : Assignment .teardownIface) :
    AgreesOn a.members (shape .teardownIface) (parseTeardownIface (jsonBody a.members))
      (PrivOpsNvPure.parseTeardownIface (fieldMap a.members)) :=
  .bind (a.requireText rfl) fun _ _ => .ok _

theorem parseAddPfRule_agrees (a : Assignment .addPfRule) :
    AgreesOn a.members (shape .addPfRule) (parseAddPfRule (jsonBody a.members))
      (PrivOpsNvPure.parseAddPfRule (fieldMap a.members)) :=
  .bind (a.requireText rfl) fun _ _ => .bind (a.requireText rfl) fun _ _ => .ok _

theorem parseRemovePfRule_agrees (a : Assignment .removePfRule) :
    AgreesOn a.members (shape .removePfRule) (parseRemovePfRule (jsonBody a.members))
      (PrivOpsNvPure.parseRemovePfRule (fieldMap a.members)) :=
  .bind (a.requireText rfl) fun _ _ => .bind (a.requireText rfl) fun _ _ => .ok _

theorem parseAddIpfwRule_agrees (a : Assignment .addIpfwRule) :
    AgreesOn a.members (shape .addIpfwRule) (parseAddIpfwRule (jsonBody a.members))
      (PrivOpsNvPure.parseAddIpfwRule (fieldMap a.members)) :=
  .bind (a.requireUnsigned rfl) fun _ _ => .bind (a.requireUnsigned rfl) fun _ _ =>
    .bind (a.requireText rfl) fun _ _ => .bind (a.requireText rfl) fun _ _ => .ok _

theorem parseRemoveIpfwRule_agrees (a : Assignment .removeIpfwRule) :
    AgreesOn a.members (shape .removeIpfwRule) (parseRemoveIpfwRule (jsonBody a.members))
      (PrivOpsNvPure.parseRemoveIpfwRule (fieldMap a.members)) :=
  .bind (a.requireUnsigned rfl) fun _ _ => .bind (a.requireUnsigned rfl) fun _ _ => .ok _

theorem parseSetIfaceUp_agrees (a : Assignment .setIfaceUp) :
    AgreesOn a.members (shape .setIfaceUp) (parseSetIfaceUp (jsonBody a.members))
      (PrivOpsNvPure.parseSetIfaceUp (fieldMap a.members)) :=
  .bind (a.requireText rfl) fun _ _ => .ok _

theorem parseDisableIfaceOffload_agrees (a : Assignment .disableIfaceOffload) :
    AgreesOn a.members (shape .disableIfaceOffload) (parseDisableIfaceOffload (jsonBody a.members))
      (PrivOpsNvPure.parseDisableIfaceOffload (fieldMap a.members)) :=
  .bind (a.requireText rfl) fun _ _ => .ok _

theorem parseBridgeAddMember_agrees (a : Assignment .bridgeAddMember) :
    AgreesOn a.members (shape .bridgeAddMember) (parseBridgeAddMember (jsonBody a.members))
      (PrivOpsNvPure.parseBridgeAddMember (fieldMap a.members)) :=
  .bind (a.requireText rfl) fun _ _ => .bind (a.requireText rfl) fun _ _ => .ok _

theorem parseBridgeDelMember_agrees (a : Assignment .bridgeDelMember) :
    AgreesOn a.members (shape .bridgeDelMember) (parseBridgeDelMember (jsonBody a.members))
      (PrivOpsNvPure.parseBridgeDelMember (fieldMap a.members)) :=
  .bind (a.requireText rfl) fun _ _ => .bind (a.requireText rfl) fun _ _ => .ok _

theorem parseSetIfaceInetAddr_agrees (a : Assignment .setIfaceInetAddr) :
    AgreesOn a.members (shape .setIfaceInetAddr) (parseSetIfaceInetAddr (jsonBody a.members))
      (PrivOpsNvPure.parseSetIfaceInetAddr (fieldMap a.members)) := by
  refine .bind (a.requireText rfl) fun ifname _ => ?_
  refine .ignore rfl (fun inet6 => do
    let addr ← requireStringField (jsonBody a.members) "addr"
    let prefixLen ← requireUnsignedField (jsonBody a.members) "prefix_len"
    return ({ ifname, addr, prefixLen, inet6 } : SetIfaceInetAddrReq)) _
    (a.lenientFlag "inet6" rfl) ?_ fun inet6 => ?_
  · simp only [bind_eq_ok, pure_eq_ok]
    rintro y x r ⟨_, -, _, -, ⟨⟩⟩ ⟨_, -, _, -, ⟨⟩⟩
    rfl
  · exact .bind (a.requireText rfl) fun _ _ => .bind (a.requireUnsigned rfl) fun _ _ => .ok _

theorem parseCreateEpair_agrees (a : Assignment .createEpair) :
    AgreesOn a.members (shape .createEpair) (parseCreateEpair (jsonBody a.members))
      (PrivOpsNvPure.parseCreateEpair (fieldMap a.members)) :=
  .ok _

theorem parseEnsureUserRoot_agrees (a : Assignment .ensureUserRoot) :
    AgreesOn a.members (shape .ensureUserRoot) (parseEnsureUserRoot (jsonBody a.members))
      (PrivOpsNvPure.parseEnsureUserRoot (fieldMap a.members)) :=
  .ok _

theorem parseSetLoginclassRctl_agrees (a : Assignment .setLoginclassRctl) :
    AgreesOn a.members (shape .setLoginclassRctl) (parseSetLoginclassRctl (jsonBody a.members))
      (PrivOpsNvPure.parseSetLoginclassRctl (fieldMap a.members)) :=
  .bind (a.requireText rfl) fun _ _ => .bind (a.requireText rfl) fun _ _ =>
    .bind (a.requireText rfl) fun _ _ => .ok _

theorem parseClearLoginclassRctl_agrees (a : Assignment .clearLoginclassRctl) :
    AgreesOn a.members (shape .clearLoginclassRctl) (parseClearLoginclassRctl (jsonBody a.members))
      (PrivOpsNvPure.parseClearLoginclassRctl (fieldMap a.members)) :=
  .bind (a.requireText rfl) fun _ _ => .bind (a.requireText rfl) fun _ _ => .ok _

theorem parseReclaimIfaceFromVnet_agrees (a : Assignment .reclaimIfaceFromVnet) :
    AgreesOn a.members (shape .reclaimIfaceFromVnet)
      (parseReclaimIfaceFromVnet (jsonBody a.members))
      (PrivOpsNvPure.parseReclaimIfaceFromVnet (fieldMap a.members)) :=
  .bind (a.requireText rfl) fun _ _ => .bind (a.requireText rfl) fun _ _ => .ok _

theorem parseFlushPfAnchor_agrees (a : Assignment .flushPfAnchor) :
    AgreesOn a.members (shape .flushPfAnchor) (parseFlushPfAnchor (jsonBody a.members))
      (PrivOpsNvPure.parseFlushPfAnchor (fieldMap a.members)) :=
  .bind (a.requireText rfl) fun _ _ => .ok _

theorem parseQueryJailRctl_agrees (a : Assignment .queryJailRctl) :
    AgreesOn a.members (shape .queryJailRctl) (parseQueryJailRctl (jsonBody a.members))
      (PrivOpsNvPure.parseQueryJailRctl (fieldMap a.members)) :=
  .bind (a.requireUnsigned rfl) fun _ _ =>
    .ignore rfl _ _ (a.lenientFlag "limits" rfl) (by simp) fun _ => .ok _

theorem parseConfigureIpfwNat_agrees (a : Assignment .configureIpfwNat) :
    AgreesOn a.members (shape .configureIpfwNat) (parseConfigureIpfwNat (jsonBody a.members))
      (PrivOpsNvPure.parseConfigureIpfwNat (fieldMap a.members)) :=
  .bind (a.requireUnsigned rfl) fun _ _ => .bind (a.requireText rfl) fun _ _ => .ok _

theorem parseSetJailCpuset_agrees (a : Assignment .setJailCpuset) :
    AgreesOn a.members (shape .setJailCpuset) (parseSetJailCpuset (jsonBody a.members))
      (PrivOpsNvPure.parseSetJailCpuset (fieldMap a.members)) :=
  .bind (a.requireUnsigned rfl) fun _ _ => .bind (a.requireText rfl) fun _ _ => .ok _

theorem parseApplyDevfsRuleset_agrees (a : Assignment .applyDevfsRuleset) :
    AgreesOn a.members (shape .applyDevfsRuleset) (parseApplyDevfsRuleset (jsonBody a.members))
      (PrivOpsNvPure.parseApplyDevfsRuleset (fieldMap a.members)) :=
  .bind (a.requireText rfl) fun _ _ => .bind (a.requireUnsigned rfl) fun _ _ => .ok _

theorem parseAddDevfsUnhideRule_agrees (a : Assignment .addDevfsUnhideRule) :
    AgreesOn a.members (shape .addDevfsUnhideRule) (parseAddDevfsUnhideRule (jsonBody a.members))
      (PrivOpsNvPure.parseAddDevfsUnhideRule (fieldMap a.members)) :=
  .bind (a.requireText rfl) fun _ _ => .bind (a.requireText rfl) fun _ _ => .ok _

theorem parseSignalJail_agrees (a : Assignment .signalJail) :
    AgreesOn a.members (shape .signalJail) (parseSignalJail (jsonBody a.members))
      (PrivOpsNvPure.parseSignalJail (fieldMap a.members)) :=
  .bind (a.requireUnsigned rfl) fun _ _ => .bind (a.requireText rfl) fun _ _ => .ok _

theorem parseExecInJail_agrees (a : Assignment .execInJail) :
    AgreesOn a.members (shape .execInJail) (parseExecInJail (jsonBody a.members))
      (PrivOpsNvPure.parseExecInJail (fieldMap a.members)) := by
  refine .bind (a.requireUnsigned rfl) fun jid _ => ?_
  refine .ignore rfl (fun user => do
    let argc ← requireUnsignedField (jsonBody a.members) "argc"
    checkArgc argc kExecInJailMaxArgs
    let argv ← readIndexed (requireStringField (jsonBody a.members)) "argv" 0 argc.toNat
    return (ExecInJailReq.mk jid user argv _)) _ (a.lenientText "user" rfl) ?_ fun user => ?_
  · simp only [bind_eq_ok, pure_eq_ok]
    rintro y x r ⟨_, -, _, -, _, -, ⟨⟩⟩ ⟨_, -, _, -, _, -, _, -, ⟨⟩⟩
    rfl
  refine .ignore rfl (fun term => do
    let argc ← requireUnsignedField (jsonBody a.members) "argc"
    checkArgc argc kExecInJailMaxArgs
    let argv ← readIndexed (requireStringField (jsonBody a.members)) "argv" 0 argc.toNat
    return (ExecInJailReq.mk jid user argv term)) _ (a.lenientText "term" rfl) ?_ fun term => ?_
  · simp only [bind_eq_ok, pure_eq_ok]
    rintro y x r ⟨_, -, _, -, _, -, ⟨⟩⟩ ⟨_, -, _, -, _, -, ⟨⟩⟩
    rfl
  exact .bind (a.requireUnsigned rfl) fun _ hargc => .numbered a rfl (a.toNat_argc rfl hargc) _

theorem parseSetIfaceMac_agrees (a : Assignment .setIfaceMac) :
    AgreesOn a.members (shape .setIfaceMac) (parseSetIfaceMac (jsonBody a.members))
      (PrivOpsNvPure.parseSetIfaceMac (fieldMap a.members)) :=
  .bind (a.requireText rfl) fun _ _ => .bind (a.requireText rfl) fun _ _ => .ok _

theorem parseDeleteIpfwNat_agrees (a : Assignment .deleteIpfwNat) :
    AgreesOn a.members (shape .deleteIpfwNat) (parseDeleteIpfwNat (jsonBody a.members))
      (PrivOpsNvPure.parseDeleteIpfwNat (fieldMap a.members)) :=
  .bind (a.requireUnsigned rfl) fun _ _ => .ok _

theorem parseCreateBridge_agrees (a : Assignment .createBridge) :
    AgreesOn a.members (shape .createBridge) (parseCreateBridge (jsonBody a.members))
      (PrivOpsNvPure.parseCreateBridge (fieldMap a.members)) :=
  .bind (a.requireText rfl) fun _ _ => .ok _

theorem parseAcquireFwLease_agrees (a : Assignment .acquireFwLease) :
    AgreesOn a.members (shape .acquireFwLease) (parseAcquireFwLease (jsonBody a.members))
      (PrivOpsNvPure.parseAcquireFwLease (fieldMap a.members)) := by
  refine .bind (a.requireUnsigned rfl) fun jid _ => ?_
  refine .ignore rfl (fun slot => .ok (AcquireFwLeaseReq.mk jid slot _ _)) _
    (a.lenientFlag "slot" rfl) ?_ fun slot => ?_
  · simp only [bind_eq_ok, pure_eq_ok]
    rintro y x r ⟨⟩ ⟨_, -, _, -, ⟨⟩⟩
    rfl
  refine .ignore rfl (fun fwd4 => .ok (AcquireFwLeaseReq.mk jid slot fwd4 _)) _
    (a.lenientFlag "fwd4" rfl) ?_ fun fwd4 => ?_
  · simp only [bind_eq_ok, pure_eq_ok]
    rintro y x r ⟨⟩ ⟨_, -, ⟨⟩⟩
    rfl
  exact .ignore rfl (fun fwd6 => .ok (AcquireFwLeaseReq.mk jid slot fwd4 fwd6)) _
    (a.lenientFlag "fwd6" rfl) (by simp) fun fwd6 => .ok _

theorem parseReleaseFwLease_agrees (a : Assignment .releaseFwLease) :
    AgreesOn a.members (shape .releaseFwLease) (parseReleaseFwLease (jsonBody a.members))
      (PrivOpsNvPure.parseReleaseFwLease (fieldMap a.members)) :=
  .bind (a.requireUnsigned rfl) fun _ _ => .ok _

theorem parseApplyDevfsRules_agrees (a : Assignment .applyDevfsRules) :
    AgreesOn a.members (shape .applyDevfsRules) (parseApplyDevfsRules (jsonBody a.members))
      (PrivOpsNvPure.parseApplyDevfsRules (fieldMap a.members)) :=
  .bind (a.requireText rfl) fun _ _ => .bind (a.requireUnsigned rfl) fun _ _ =>
    .bind (a.requireUnsigned rfl) fun _ hargc => .numbered a rfl (a.toNat_argc rfl hargc) _

theorem parseMountTmpfs_agrees (a : Assignment .mountTmpfs) :
    AgreesOn a.members (shape .mountTmpfs) (parseMountTmpfs (jsonBody a.members))
      (PrivOpsNvPure.parseMountTmpfs (fieldMap a.members)) := by
  refine .bind (a.requireText rfl) fun target _ => ?_
  refine .ignore rfl (fun size => .ok (MountTmpfsReq.mk target size _ _ _)) _
    (a.lenientText "size" rfl) ?_ fun size => ?_
  · simp only [bind_eq_ok, pure_eq_ok]
    rintro y x r ⟨⟩ ⟨_, -, _, -, _, -, ⟨⟩⟩
    rfl
  refine .ignore rfl (fun uid => .ok (MountTmpfsReq.mk target size uid _ _)) _
    (a.lenientText "uid" rfl) ?_ fun uid => ?_
  · simp only [bind_eq_ok, pure_eq_ok]
    rintro y x r ⟨⟩ ⟨_, -, _, -, ⟨⟩⟩
    rfl
  refine .ignore rfl (fun gid => .ok (MountTmpfsReq.mk target size uid gid _)) _
    (a.lenientText "gid" rfl) ?_ fun gid => ?_
  · simp only [bind_eq_ok, pure_eq_ok]
    rintro y x r ⟨⟩ ⟨_, -, ⟨⟩⟩
    rfl
  exact .ignore rfl (fun mode => .ok (MountTmpfsReq.mk target size uid gid mode)) _
    (a.lenientText "mode" rfl) (by simp) fun mode => .ok _

theorem AgreesOn.sameRequest {v : Verb} {ms : Members} {α : Type} {w n : Except Str α}
    (h : AgreesOn ms (shape v) w n) {g : α → Req} (hg : ∀ {x y}, g x = g y → x = y)
    (hwire : parse v (jsonBody ms) = some (w.map g))
    (hmap : PrivOpsNvPure.parse v (fieldMap ms) = some (n.map g)) :
    SameRequest v ms ↔ (Complete ms (shape v) → Clean ms (shape v)) := by
  rw [SameRequest, hwire, hmap, Option.map_some, Option.map_some, Option.some.injEq]
  exact (Agrees.map h (fun _ _ => hg)).same_iff

/-- The transports carry the same request unless a complete one misleads the scanner. -/
theorem transports_agree_iff (v : Verb) (a : Assignment v) :
    SameRequest v a.members ↔ (Complete a.members (shape v) → Clean a.members (shape v)) := by
  cases v with
  | unknown => simp [SameRequest, parse, PrivOpsNvPure.parse, Clean, shape, ItemsReadable]
  | createJail => exact (parseCreateJail_agrees a).sameRequest Req.createJail.inj rfl rfl
  | destroyJail => exact (parseDestroyJail_agrees a).sameRequest Req.destroyJail.inj rfl rfl
  | mountNullfs => exact (parseMountNullfs_agrees a).sameRequest Req.mountNullfs.inj rfl rfl
  | unmountNullfs => exact (parseUnmountNullfs_agrees a).sameRequest Req.unmountNullfs.inj rfl rfl
  | setRctl => exact (parseSetRctl_agrees a).sameRequest Req.setRctl.inj rfl rfl
  | clearRctl => exact (parseClearRctl_agrees a).sameRequest Req.clearRctl.inj rfl rfl
  | attachZfs => exact (parseAttachZfs_agrees a).sameRequest Req.attachZfs.inj rfl rfl
  | detachZfs => exact (parseDetachZfs_agrees a).sameRequest Req.detachZfs.inj rfl rfl
  | configureIface =>
      exact (parseConfigureIface_agrees a).sameRequest Req.configureIface.inj rfl rfl
  | teardownIface => exact (parseTeardownIface_agrees a).sameRequest Req.teardownIface.inj rfl rfl
  | addPfRule => exact (parseAddPfRule_agrees a).sameRequest Req.addPfRule.inj rfl rfl
  | removePfRule => exact (parseRemovePfRule_agrees a).sameRequest Req.removePfRule.inj rfl rfl
  | addIpfwRule => exact (parseAddIpfwRule_agrees a).sameRequest Req.addIpfwRule.inj rfl rfl
  | removeIpfwRule =>
      exact (parseRemoveIpfwRule_agrees a).sameRequest Req.removeIpfwRule.inj rfl rfl
  | setIfaceUp => exact (parseSetIfaceUp_agrees a).sameRequest Req.setIfaceUp.inj rfl rfl
  | disableIfaceOffload =>
      exact (parseDisableIfaceOffload_agrees a).sameRequest Req.disableIfaceOffload.inj rfl rfl
  | bridgeAddMember =>
      exact (parseBridgeAddMember_agrees a).sameRequest Req.bridgeAddMember.inj rfl rfl
  | bridgeDelMember =>
      exact (parseBridgeDelMember_agrees a).sameRequest Req.bridgeDelMember.inj rfl rfl
  | setIfaceInetAddr =>
      exact (parseSetIfaceInetAddr_agrees a).sameRequest Req.setIfaceInetAddr.inj rfl rfl
  | createEpair => exact (parseCreateEpair_agrees a).sameRequest Req.createEpair.inj rfl rfl
  | ensureUserRoot =>
      exact (parseEnsureUserRoot_agrees a).sameRequest Req.ensureUserRoot.inj rfl rfl
  | setLoginclassRctl =>
      exact (parseSetLoginclassRctl_agrees a).sameRequest Req.setLoginclassRctl.inj rfl rfl
  | clearLoginclassRctl =>
      exact (parseClearLoginclassRctl_agrees a).sameRequest Req.clearLoginclassRctl.inj rfl rfl
  | reclaimIfaceFromVnet =>
      exact (parseReclaimIfaceFromVnet_agrees a).sameRequest Req.reclaimIfaceFromVnet.inj rfl rfl
  | flushPfAnchor => exact (parseFlushPfAnchor_agrees a).sameRequest Req.flushPfAnchor.inj rfl rfl
  | queryJailRctl => exact (parseQueryJailRctl_agrees a).sameRequest Req.queryJailRctl.inj rfl rfl
  | configureIpfwNat =>
      exact (parseConfigureIpfwNat_agrees a).sameRequest Req.configureIpfwNat.inj rfl rfl
  | setJailCpuset => exact (parseSetJailCpuset_agrees a).sameRequest Req.setJailCpuset.inj rfl rfl
  | applyDevfsRuleset =>
      exact (parseApplyDevfsRuleset_agrees a).sameRequest Req.applyDevfsRuleset.inj rfl rfl
  | addDevfsUnhideRule =>
      exact (parseAddDevfsUnhideRule_agrees a).sameRequest Req.addDevfsUnhideRule.inj rfl rfl
  | signalJail => exact (parseSignalJail_agrees a).sameRequest Req.signalJail.inj rfl rfl
  | execInJail => exact (parseExecInJail_agrees a).sameRequest Req.execInJail.inj rfl rfl
  | setIfaceMac => exact (parseSetIfaceMac_agrees a).sameRequest Req.setIfaceMac.inj rfl rfl
  | deleteIpfwNat => exact (parseDeleteIpfwNat_agrees a).sameRequest Req.deleteIpfwNat.inj rfl rfl
  | createBridge => exact (parseCreateBridge_agrees a).sameRequest Req.createBridge.inj rfl rfl
  | acquireFwLease =>
      exact (parseAcquireFwLease_agrees a).sameRequest Req.acquireFwLease.inj rfl rfl
  | releaseFwLease =>
      exact (parseReleaseFwLease_agrees a).sameRequest Req.releaseFwLease.inj rfl rfl
  | applyDevfsRules =>
      exact (parseApplyDevfsRules_agrees a).sameRequest Req.applyDevfsRules.inj rfl rfl
  | mountTmpfs => exact (parseMountTmpfs_agrees a).sameRequest Req.mountTmpfs.inj rfl rfl

/-- A path that reads `name` hides the name of the jail from the scanner. -/
theorem path_hides_name :
    ∃ a : Assignment .createJail,
      jsonBody a.members = "\x7b\"path\":\"name\",\"name\":\"web\"\x7d" ∧
        (parseCreateJail (jsonBody a.members)).toOption = none ∧
        (PrivOpsNvPure.parseCreateJail (fieldMap a.members)).toOption =
          some { name := "web", path := "name" } ∧
        ¬SameRequest .createJail a.members := by
  refine ⟨⟨[("path", .text "name"), ("name", .text "web")], by decide, by decide⟩,
    by decide, by decide, by decide, ?_⟩
  unfold SameRequest
  decide

end Crate.PrivOpsWirePure
