import Crate.PrivOps.Client

/-!
# Client and daemon agree

What a builder writes, the daemon reads back: the field map of a request is
routed to its verb and parsed to the same request.
-/

namespace Crate.PrivOpsClient

open Crate.Foundation
open Crate.PrivOpsPure
open Crate.PrivOpsNvPure

/-! ## Numbers -/

theorem longToString_eq (n : Int64) : longToString n = integerText n.toInt := by
  unfold longToString integerText
  by_cases hzero : n = 0
  · subst hzero
    rfl
  · have hne : n.toInt ≠ 0 := fun heq => hzero (Int64.toInt_inj.mp heq)
    have hsign : n < 0 ↔ n.toInt < 0 := by simp [Int64.lt_iff_toInt_lt]
    simp only [hzero, hsign, if_false]
    split
    · rename_i hneg
      have hnat := toNat_neg_of_neg hneg
      rw [digitLoop_eq (Nat.le_refl _) (by omega), List.append_nil]
      congr 2
      omega
    · have hnat := toNat_of_nonneg (n := n) (by omega)
      rw [digitLoop_eq (Nat.le_refl _) (by omega), List.append_nil]
      congr 1
      omega

@[simp] theorem longValue_longToString (key : Str) (n : Int64) :
    longValue key (longToString n) = .ok n := by
  have hlow := n.le_toInt
  have hhigh := n.toInt_lt
  rw [longToString_eq, longValue_integerText, Except.ok.injEq, ← Int64.toInt_inj,
    strtol_integerText]
  omega

@[simp] theorem longValue_decimal (key : Str) (n : Nat) :
    longValue key (decimal n) = .ok (strtol (decimal n)) := by
  rw [← integerText_natCast]
  exact longValue_integerText key n

@[simp] theorem narrowUnsigned_strtol_decimal (key : Str) (u : UInt32) :
    narrowUnsigned key (strtol (decimal u.toNat)) = .ok u := by
  have hlt := u.toNat_lt
  rw [narrowUnsigned_eq_ok_iff, ← integerText_natCast, strtol_integerText]
  omega

@[simp] theorem boolValue_boolText (key : Str) (b : Bool) :
    boolValue key (boolText b) = .ok b := by
  cases b <;> simp [boolValue, boolText]

@[simp] theorem unsignedToString_eq (u : UInt32) : unsignedToString u = decimal u.toNat :=
  digitString_eq_decimal u.toNat

/-! ## Reading one field -/

section Read

variable {m : FieldMap} {key other : Str}

theorem requireString_of_find {value : Str} (h : m.find? key = some value) :
    requireString m key = .ok value := by
  rw [requireString, requiredField, h]

theorem requireUnsigned_of_find {u : UInt32} (h : m.find? key = some (decimal u.toNat)) :
    requireUnsigned m key = .ok u := by
  have hlong : requireLong m key = .ok (strtol (decimal u.toNat)) := by
    rw [requireLong, requiredField, h]
    exact longValue_decimal key u.toNat
  rw [requireUnsigned, hlong]
  exact narrowUnsigned_strtol_decimal key u

theorem optionalBool_of_find {flag : Bool}
    (h : m.find? key = if flag then some ("true" : Str) else none) :
    optionalBool m key false = .ok flag := by
  cases flag <;> simp_all [optionalBool, optionalField, boolValue]

@[simp] theorem find?_setFlag_self (flag : Bool) :
    (setFlag flag key m).find? key = if flag then some ("true" : Str) else m.find? key := by
  cases flag <;> simp [setFlag]

@[simp] theorem find?_setFlag_ne (flag : Bool) (h : key ≠ other) :
    (setFlag flag key m).find? other = m.find? other := by
  cases flag with
  | false => rfl
  | true => exact OrdMap.find?_insert_ne h m _

theorem optionalString_of_find {value : Str}
    (h : m.find? key = if value.isEmpty then none else some value) :
    optionalString m key [] = .ok value := by
  cases value <;> simp_all [optionalString, optionalField]

@[simp] theorem find?_setText_self (value : Str) :
    (setText value key m).find? key = if value.isEmpty then m.find? key else some value := by
  cases value <;> simp [setText]

@[simp] theorem find?_setText_ne (value : Str) (h : key ≠ other) :
    (setText value key m).find? other = m.find? other := by
  cases value with
  | nil => rfl
  | cons c rest => exact OrdMap.find?_insert_ne h m _

theorem extractVerb_of_find {v : Verb} (h : m.find? "verb" = some (verbName v)) :
    extractVerb m = v := by
  rw [extractVerb, h]
  exact parseVerb_verbName v

end Read

/-! ## Numbered fields -/

theorem ne_numbered {key : Str} (h : key.getLast?.any isDecimalDigit = false) (stem : Str)
    (j : Nat) : stem ++ decimal j ≠ key := by
  rintro rfl
  have hlast : (stem ++ decimal j).getLast? = some ((decimal j).getLast (decimal_ne_nil j)) := by
    rw [List.getLast?_append_of_ne_nil _ (decimal_ne_nil j),
      List.getLast?_eq_some_getLast (decimal_ne_nil j)]
  have hdigit := isDecimalDigit_of_mem_decimal (List.getLast_mem (decimal_ne_nil j))
  rw [hlast, Option.any_some, hdigit] at h
  contradiction

@[simp] theorem find?_insertIndexed_ne {key : Str} (h : key.getLast?.any isDecimalDigit = false)
    (stem : Str) (i : Nat) (l : List Str) (m : FieldMap) :
    (insertIndexed stem i l m).find? key = m.find? key := by
  induction l generalizing i m with
  | nil => rfl
  | cons item rest ih =>
      rw [insertIndexed, ih, OrdMap.find?_insert_ne (ne_numbered h stem i)]

theorem find?_insertIndexed_before {stem : Str} (l : List Str) {i j : Nat} (h : j < i)
    (m : FieldMap) :
    (insertIndexed stem i l m).find? (stem ++ decimal j) = m.find? (stem ++ decimal j) := by
  induction l generalizing i m with
  | nil => rfl
  | cons item rest ih =>
      have hne : stem ++ decimal i ≠ stem ++ decimal j := by
        intro heq
        have := decimal_injective (List.append_cancel_left heq)
        omega
      rw [insertIndexed, ih (by omega), OrdMap.find?_insert, if_neg hne]

theorem readIndexed_insertIndexed (stem : Str) (l : List Str) (i : Nat) (m : FieldMap) :
    readIndexed (requireString (insertIndexed stem i l m)) stem i l.length = .ok l := by
  induction l generalizing i m with
  | nil => rfl
  | cons item rest ih =>
      have hfirst : requireString (insertIndexed stem (i + 1) rest
          (m.insert (stem ++ decimal i) item)) (stem ++ decimal i) = .ok item := by
        apply requireString_of_find
        rw [find?_insertIndexed_before rest (Nat.lt_succ_self i), OrdMap.find?_insert_self]
      rw [insertIndexed, List.length_cons, readIndexed, hfirst]
      simp only [bind, Except.bind, ih, pure, Except.pure]

/-- The daemon reads a numbered list back, whatever it makes of it. -/
theorem readNumbered_of_find {m : FieldMap} {stem : Str} {l : List Str} {max : Nat} {α : Type}
    (hargc : m.find? "argc" = some (decimal l.length))
    (hitems : readIndexed (requireString m) stem 0 l.length = .ok l) (hpos : 1 ≤ l.length)
    (hmax : l.length ≤ max) (hlen : max < 2 ^ 32) (g : List Str → α) :
    (do
      let argc ← requireUnsigned m "argc"
      checkArgc argc max
      let items ← readIndexed (requireString m) stem 0 argc.toNat
      return g items) = .ok (g l) := by
  have hnat : (UInt32.ofNat l.length).toNat = l.length := by
    rw [UInt32.toNat_ofNat', Nat.mod_eq_of_lt (by omega)]
  have hread : requireUnsigned m "argc" = .ok (UInt32.ofNat l.length) := by
    apply requireUnsigned_of_find
    rw [hargc, hnat]
  have hne : UInt32.ofNat l.length ≠ 0 := by
    intro hzero
    rw [hzero] at hnat
    simp only [UInt32.reduceToNat] at hnat
    omega
  have hcheck : checkArgc (UInt32.ofNat l.length) max = .ok () := by
    simp only [checkArgc, check_seq_eq_ok, reject_eq_ok, hnat]
    exact ⟨hne, by omega⟩
  simp only [hread, hcheck, hnat, hitems, ok_bind, pure_eq_ok]

/-! ## Every request -/

/-- The list verbs carry at least one element and at most what the daemon accepts. -/
def WithinLimits : Req → Prop
  | .execInJail r => 1 ≤ r.argv.length ∧ r.argv.length ≤ kExecInJailMaxArgs
  | .applyDevfsRules r => 1 ≤ r.rules.length ∧ r.rules.length ≤ kApplyDevfsRulesMaxRules
  | _ => True

/-! ## The options of `mount_tmpfs` -/

/-- The value an option was given last, empty when it was never given. -/
def paramValue (params : List (Str × Str)) (key : Str) : Str :=
  ((params.reverse.find? (fun kv => kv.1 = key)).map Prod.snd).getD []

theorem find?_foldl_params (params : List (Str × Str)) (key : Str) (m : FieldMap) :
    (params.foldl (fun m kv => if isTmpfsKey kv.1 then m.insert kv.1 kv.2 else m) m).find? key =
      if isTmpfsKey key then
        ((params.reverse.find? (fun kv => kv.1 = key)).map Prod.snd).or (m.find? key)
      else m.find? key := by
  induction params generalizing m with
  | nil => simp
  | cons kv rest ih =>
      rw [List.foldl_cons, ih, List.reverse_cons, List.find?_append]
      by_cases heq : kv.1 = key
      · subst heq
        cases rest.reverse.find? (fun other => other.1 = kv.1) <;>
          by_cases hkey : isTmpfsKey kv.1 <;> simp [hkey]
      · have hkept : (if isTmpfsKey kv.1 then m.insert kv.1 kv.2 else m).find? key =
            m.find? key := by
          split
          · exact OrdMap.find?_insert_ne heq m kv.2
          · rfl
        rw [hkept]
        simp [heq]

theorem optionalString_buildMountTmpfs (target : Str) (params : List (Str × Str)) {key : Str}
    (h : isTmpfsKey key = true) :
    optionalString (buildMountTmpfs target params) key [] = .ok (paramValue params key) := by
  have hbase : (OrdMap.ofList [(("verb" : Str), ("mount_tmpfs" : Str)), ("target", target)]).find?
      key = none := by
    rw [OrdMap.find?_ofList_cons_ne, OrdMap.find?_ofList_cons_ne]
    · rfl
    · rintro rfl
      exact absurd h (by decide)
    · rintro rfl
      exact absurd h (by decide)
  rw [optionalString, optionalField, buildMountTmpfs, find?_foldl_params, if_pos h, hbase,
    Option.or_none, paramValue]
  cases (params.reverse.find? (fun kv => kv.1 = key)).map Prod.snd <;> rfl

theorem find?_buildMountTmpfs (target : Str) (params : List (Str × Str)) {key : Str}
    (h : isTmpfsKey key = false) :
    (buildMountTmpfs target params).find? key =
      (OrdMap.ofList [(("verb" : Str), ("mount_tmpfs" : Str)), ("target", target)]).find? key := by
  rw [buildMountTmpfs, find?_foldl_params, h, if_neg Bool.false_ne_true]

theorem parseMountTmpfs_build (target : Str) (params : List (Str × Str)) :
    parseMountTmpfs (buildMountTmpfs target params) =
      .ok { target, size := paramValue params "size", uid := paramValue params "uid",
            gid := paramValue params "gid", mode := paramValue params "mode" } := by
  have htarget : requireString (buildMountTmpfs target params) "target" = .ok target := by
    apply requireString_of_find
    rw [find?_buildMountTmpfs target params (by decide)]
    simp (disch := decide) only [OrdMap.find?_ofList_cons_self, OrdMap.find?_ofList_cons_ne]
  simp only [parseMountTmpfs, htarget, ok_bind]
  rw [optionalString_buildMountTmpfs target params (by decide),
    optionalString_buildMountTmpfs target params (by decide),
    optionalString_buildMountTmpfs target params (by decide),
    optionalString_buildMountTmpfs target params (by decide)]
  rfl

/-! ## The verbs with flags -/

attribute [local simp] build

theorem parseSetIfaceInetAddr_build (r : SetIfaceInetAddrReq) :
    parseSetIfaceInetAddr (build (.setIfaceInetAddr r)) = .ok r := by
  have hname : requireString (build (.setIfaceInetAddr r)) "ifname" = .ok r.ifname := by
    apply requireString_of_find
    simp (disch := decide) [buildSetIfaceInetAddr]
  have hflag : optionalBool (build (.setIfaceInetAddr r)) "inet6" false = .ok r.inet6 := by
    apply optionalBool_of_find
    simp (disch := decide) [buildSetIfaceInetAddr]
  have haddr : requireString (build (.setIfaceInetAddr r)) "addr" = .ok r.addr := by
    apply requireString_of_find
    simp (disch := decide) [buildSetIfaceInetAddr]
  have hlen : requireUnsigned (build (.setIfaceInetAddr r)) "prefix_len" = .ok r.prefixLen := by
    apply requireUnsigned_of_find
    simp (disch := decide) [buildSetIfaceInetAddr]
  simp only [parseSetIfaceInetAddr, hname, hflag, haddr, hlen, ok_bind, pure_eq_ok]

theorem parseQueryJailRctl_build (r : QueryJailRctlReq) :
    parseQueryJailRctl (build (.queryJailRctl r)) = .ok r := by
  have hjid : requireUnsigned (build (.queryJailRctl r)) "jid" = .ok r.jid := by
    apply requireUnsigned_of_find
    simp (disch := decide) [buildQueryJailRctl]
  have hflag : optionalBool (build (.queryJailRctl r)) "limits" false = .ok r.limits := by
    apply optionalBool_of_find
    simp (disch := decide) [buildQueryJailRctl]
  simp only [parseQueryJailRctl, hjid, hflag, ok_bind, pure_eq_ok]

theorem parseAcquireFwLease_build (r : AcquireFwLeaseReq) :
    parseAcquireFwLease (build (.acquireFwLease r)) = .ok r := by
  have hjid : requireUnsigned (build (.acquireFwLease r)) "jid" = .ok r.jid := by
    apply requireUnsigned_of_find
    simp (disch := decide) [buildAcquireFwLease]
  have hslot : optionalBool (build (.acquireFwLease r)) "slot" false = .ok r.slot := by
    apply optionalBool_of_find
    simp (disch := decide) [buildAcquireFwLease]
  have hfwd4 : optionalBool (build (.acquireFwLease r)) "fwd4" false = .ok r.fwd4 := by
    apply optionalBool_of_find
    simp (disch := decide) [buildAcquireFwLease]
  have hfwd6 : optionalBool (build (.acquireFwLease r)) "fwd6" false = .ok r.fwd6 := by
    apply optionalBool_of_find
    simp (disch := decide) [buildAcquireFwLease]
  simp only [parseAcquireFwLease, hjid, hslot, hfwd4, hfwd6, ok_bind, pure_eq_ok]

/-! ## The list verbs -/

theorem parseExecInJail_build (r : ExecInJailReq) (h : WithinLimits (.execInJail r)) :
    parseExecInJail (build (.execInJail r)) = .ok r := by
  have hjid : requireUnsigned (build (.execInJail r)) "jid" = .ok r.jid := by
    apply requireUnsigned_of_find
    simp (disch := decide) [buildExecInJail]
  have huser : optionalString (build (.execInJail r)) "user" [] = .ok r.user := by
    apply optionalString_of_find
    simp (disch := decide) [buildExecInJail]
  have hterm : optionalString (build (.execInJail r)) "term" [] = .ok r.term := by
    apply optionalString_of_find
    simp (disch := decide) [buildExecInJail]
  have hargc : (build (.execInJail r)).find? "argc" = some (decimal r.argv.length) := by
    simp (disch := decide) [buildExecInJail]
  simp only [parseExecInJail, hjid, huser, hterm, ok_bind]
  exact readNumbered_of_find hargc (readIndexed_insertIndexed _ _ _ _) h.1 h.2 (by decide) _

theorem parseApplyDevfsRules_build (r : ApplyDevfsRulesReq)
    (h : WithinLimits (.applyDevfsRules r)) :
    parseApplyDevfsRules (build (.applyDevfsRules r)) = .ok r := by
  have hpath : requireString (build (.applyDevfsRules r)) "mount_path" = .ok r.mountPath := by
    apply requireString_of_find
    simp (disch := decide) [buildApplyDevfsRules]
  have hruleset : requireUnsigned (build (.applyDevfsRules r)) "ruleset" = .ok r.ruleset := by
    apply requireUnsigned_of_find
    simp (disch := decide) [buildApplyDevfsRules]
  have hargc : (build (.applyDevfsRules r)).find? "argc" = some (decimal r.rules.length) := by
    simp (disch := decide) [buildApplyDevfsRules]
  simp only [parseApplyDevfsRules, hpath, hruleset, ok_bind]
  exact readNumbered_of_find hargc (readIndexed_insertIndexed _ _ _ _) h.1 h.2 (by decide) _

/-! ## Every verb -/

theorem find?_verb_build (r : Req) : (build r).find? "verb" = some (verbName r.verb) := by
  cases r with
  | setIfaceInetAddr r =>
      rw [build, buildSetIfaceInetAddr, find?_setFlag_ne _ (by decide)]
      exact OrdMap.find?_ofList_cons_self _ _ _
  | queryJailRctl r =>
      rw [build, buildQueryJailRctl, find?_setFlag_ne _ (by decide)]
      exact OrdMap.find?_ofList_cons_self _ _ _
  | execInJail r =>
      rw [build, buildExecInJail, find?_insertIndexed_ne (by decide),
        find?_setText_ne _ (by decide), find?_setText_ne _ (by decide)]
      exact OrdMap.find?_ofList_cons_self _ _ _
  | acquireFwLease r =>
      rw [build, buildAcquireFwLease, find?_setFlag_ne _ (by decide),
        find?_setFlag_ne _ (by decide), find?_setFlag_ne _ (by decide)]
      exact OrdMap.find?_ofList_cons_self _ _ _
  | applyDevfsRules r =>
      rw [build, buildApplyDevfsRules, find?_insertIndexed_ne (by decide)]
      exact OrdMap.find?_ofList_cons_self _ _ _
  | mountTmpfs r => exact find?_buildMountTmpfs r.target _ (by decide)
  | _ => exact OrdMap.find?_ofList_cons_self _ _ _

section Parse

attribute [local simp] requireString requiredField requireLong optionalString optionalField
  optionalBool requireUnsigned Req.verb parse build Except.map

theorem parse_build (r : Req) (h : WithinLimits r) : parse r.verb (build r) = some (.ok r) := by
  cases r with
  | createJail r => simp (disch := decide) [parseCreateJail, buildCreateJail]
  | destroyJail r => simp (disch := decide) [parseDestroyJail, buildDestroyJail]
  | mountNullfs r => simp (disch := decide) [parseMountNullfs, buildMountNullfs]
  | unmountNullfs r => simp (disch := decide) [parseUnmountNullfs, buildUnmountNullfs]
  | setRctl r => simp (disch := decide) [parseSetRctl, buildSetRctl]
  | clearRctl r => simp (disch := decide) [parseClearRctl, buildClearRctl]
  | attachZfs r => simp (disch := decide) [parseAttachZfs, buildAttachZfs]
  | detachZfs r => simp (disch := decide) [parseDetachZfs, buildDetachZfs]
  | configureIface r => simp (disch := decide) [parseConfigureIface, buildConfigureIface]
  | teardownIface r => simp (disch := decide) [parseTeardownIface, buildTeardownIface]
  | addPfRule r => simp (disch := decide) [parseAddPfRule, buildAddPfRule]
  | removePfRule r => simp (disch := decide) [parseRemovePfRule, buildRemovePfRule]
  | addIpfwRule r => simp (disch := decide) [parseAddIpfwRule, buildAddIpfwRule]
  | removeIpfwRule r => simp (disch := decide) [parseRemoveIpfwRule, buildRemoveIpfwRule]
  | setIfaceUp r => simp (disch := decide) [parseSetIfaceUp, buildSetIfaceUp]
  | disableIfaceOffload r =>
      simp (disch := decide) [parseDisableIfaceOffload, buildDisableIfaceOffload]
  | bridgeAddMember r => simp (disch := decide) [parseBridgeAddMember, buildBridgeAddMember]
  | bridgeDelMember r => simp (disch := decide) [parseBridgeDelMember, buildBridgeDelMember]
  | setIfaceInetAddr r => exact congrArg (some ∘ Except.map _) (parseSetIfaceInetAddr_build r)
  | createEpair r => rfl
  | ensureUserRoot r => rfl
  | setLoginclassRctl r => simp (disch := decide) [parseSetLoginclassRctl, buildSetLoginclassRctl]
  | clearLoginclassRctl r =>
      simp (disch := decide) [parseClearLoginclassRctl, buildClearLoginclassRctl]
  | reclaimIfaceFromVnet r =>
      simp (disch := decide) [parseReclaimIfaceFromVnet, buildReclaimIfaceFromVnet]
  | flushPfAnchor r => simp (disch := decide) [parseFlushPfAnchor, buildFlushPfAnchor]
  | queryJailRctl r => exact congrArg (some ∘ Except.map _) (parseQueryJailRctl_build r)
  | configureIpfwNat r => simp (disch := decide) [parseConfigureIpfwNat, buildConfigureIpfwNat]
  | setJailCpuset r => simp (disch := decide) [parseSetJailCpuset, buildSetJailCpuset]
  | applyDevfsRuleset r => simp (disch := decide) [parseApplyDevfsRuleset, buildApplyDevfsRuleset]
  | addDevfsUnhideRule r =>
      simp (disch := decide) [parseAddDevfsUnhideRule, buildAddDevfsUnhideRule]
  | signalJail r => simp (disch := decide) [parseSignalJail, buildSignalJail]
  | execInJail r => exact congrArg (some ∘ Except.map _) (parseExecInJail_build r h)
  | setIfaceMac r => simp (disch := decide) [parseSetIfaceMac, buildSetIfaceMac]
  | deleteIpfwNat r => simp (disch := decide) [parseDeleteIpfwNat, buildDeleteIpfwNat]
  | createBridge r => simp (disch := decide) [parseCreateBridge, buildCreateBridge]
  | acquireFwLease r => exact congrArg (some ∘ Except.map _) (parseAcquireFwLease_build r)
  | releaseFwLease r => simp (disch := decide) [parseReleaseFwLease, buildReleaseFwLease]
  | applyDevfsRules r => exact congrArg (some ∘ Except.map _) (parseApplyDevfsRules_build r h)
  | mountTmpfs r => exact congrArg (some ∘ Except.map _) (parseMountTmpfs_build r.target _)

end Parse

/--
What a builder writes is routed to its verb and read back as the request it was
built from; of the options of `mount_tmpfs`, the last value given counts.
-/
theorem client_daemon_agree :
    (∀ r, WithinLimits r →
      extractVerb (build r) = r.verb ∧ parse r.verb (build r) = some (.ok r)) ∧
    (∀ target params,
      extractVerb (buildMountTmpfs target params) = .mountTmpfs ∧
        parseMountTmpfs (buildMountTmpfs target params) =
          .ok { target, size := paramValue params "size", uid := paramValue params "uid",
                gid := paramValue params "gid", mode := paramValue params "mode" }) := by
  constructor
  · intro r h
    exact ⟨extractVerb_of_find (find?_verb_build r), parse_build r h⟩
  · intro target params
    refine ⟨extractVerb_of_find ?_, parseMountTmpfs_build target params⟩
    exact find?_buildMountTmpfs target params (by decide)

theorem exec_request_agrees :
    WithinLimits (.execInJail { jid := 7, user := [], argv := ["/bin/ls", "-l"], term := [] }) ∧
      extractVerb (buildExecInJail 7 [] ["/bin/ls", "-l"] []) = .execInJail ∧
      parse .execInJail (buildExecInJail 7 [] ["/bin/ls", "-l"] []) =
        some (.ok (.execInJail
          { jid := 7, user := [], argv := ["/bin/ls", "-l"], term := [] })) := by
  refine ⟨⟨by decide, by decide⟩, ?_⟩
  exact client_daemon_agree.1
    (.execInJail { jid := 7, user := [], argv := ["/bin/ls", "-l"], term := [] })
    ⟨by decide, by decide⟩

end Crate.PrivOpsClient
