import Crate.Foundation.Agreement
import Crate.PrivOps.FlatObject

/-!
# Two transports, one request

A verb's fields and how each parser treats them, the assignments of values to
these fields, and the comparison of the request that arrives as a JSON object
with the one that arrives as a field map.
-/

namespace Crate.PrivOpsWirePure

open Crate.Foundation
open Crate.PrivOpsPure
open Crate.PrivOpsNvPure (requireString requireLong requireUnsigned optionalString optionalBool
  requiredField optionalField longValue longValue_integerText narrowUnsigned
  narrowUnsigned_eq_ok_iff boolValue readIndexed checkArgc)

/-! ## The fields of a verb -/

inductive Kind where
  | text
  | long
  | unsigned
  | flag
  deriving DecidableEq, Repr

/-- How the wire parser treats a field; the error of a lenient one is ignored. -/
inductive Need where
  | required
  | optional
  | lenient
  deriving DecidableEq, Repr

structure Field where
  need : Need
  key : Str
  kind : Kind
  deriving DecidableEq, Repr

/-- The fixed fields, and the stem and the largest number of the numbered ones. -/
structure Shape where
  fields : List Field
  items : Option (Str × Nat) := none
  deriving DecidableEq, Repr

def required (key : Str) (kind : Kind) : Field := { need := .required, key, kind }

def optional (key : Str) (kind : Kind) : Field := { need := .optional, key, kind }

def lenient (key : Str) (kind : Kind) : Field := { need := .lenient, key, kind }

def shape : Verb → Shape
  | .unknown => { fields := [] }
  | .createJail =>
      { fields := [required "name" .text, required "path" .text, optional "hostname" .text,
          optional "vnet" .flag, optional "parameters" .text] }
  | .destroyJail => { fields := [required "name" .text, optional "force" .flag] }
  | .mountNullfs =>
      { fields := [required "source" .text, required "target" .text, optional "read_only" .flag] }
  | .unmountNullfs => { fields := [required "target" .text, optional "force" .flag] }
  | .setRctl => { fields := [required "jid" .long, required "key" .text, required "value" .text] }
  | .clearRctl => { fields := [required "jid" .long, required "key" .text] }
  | .attachZfs => { fields := [required "jid" .long, required "dataset" .text] }
  | .detachZfs => { fields := [required "jid" .long, required "dataset" .text] }
  | .configureIface =>
      { fields := [required "jid" .long, required "ifname" .text, optional "bridge" .text,
          optional "ipv4_cidr" .text, optional "ipv6_cidr" .text, optional "mac_addr" .text] }
  | .teardownIface => { fields := [required "ifname" .text] }
  | .addPfRule => { fields := [required "anchor" .text, required "rule" .text] }
  | .removePfRule => { fields := [required "anchor" .text, required "rule" .text] }
  | .addIpfwRule =>
      { fields := [required "set" .unsigned, required "number" .unsigned, required "action" .text,
          required "body" .text] }
  | .removeIpfwRule => { fields := [required "set" .unsigned, required "number" .unsigned] }
  | .setIfaceUp => { fields := [required "ifname" .text] }
  | .disableIfaceOffload => { fields := [required "ifname" .text] }
  | .bridgeAddMember => { fields := [required "bridge" .text, required "member" .text] }
  | .bridgeDelMember => { fields := [required "bridge" .text, required "member" .text] }
  | .setIfaceInetAddr =>
      { fields := [required "ifname" .text, lenient "inet6" .flag, required "addr" .text,
          required "prefix_len" .unsigned] }
  | .createEpair => { fields := [] }
  | .ensureUserRoot => { fields := [] }
  | .setLoginclassRctl =>
      { fields := [required "loginclass" .text, required "key" .text, required "value" .text] }
  | .clearLoginclassRctl => { fields := [required "loginclass" .text, required "key" .text] }
  | .reclaimIfaceFromVnet => { fields := [required "ifname" .text, required "jail_name" .text] }
  | .flushPfAnchor => { fields := [required "anchor" .text] }
  | .queryJailRctl => { fields := [required "jid" .unsigned, lenient "limits" .flag] }
  | .configureIpfwNat => { fields := [required "number" .unsigned, required "config" .text] }
  | .setJailCpuset => { fields := [required "jid" .unsigned, required "cpuset" .text] }
  | .applyDevfsRuleset => { fields := [required "mount_path" .text, required "ruleset" .unsigned] }
  | .addDevfsUnhideRule =>
      { fields := [required "mount_path" .text, required "path_pattern" .text] }
  | .signalJail => { fields := [required "jid" .unsigned, required "signal" .text] }
  | .execInJail =>
      { fields := [required "jid" .unsigned, lenient "user" .text, lenient "term" .text,
          required "argc" .unsigned]
        items := some ("argv", kExecInJailMaxArgs) }
  | .setIfaceMac => { fields := [required "ifname" .text, required "mac" .text] }
  | .deleteIpfwNat => { fields := [required "number" .unsigned] }
  | .createBridge => { fields := [required "name" .text] }
  | .acquireFwLease =>
      { fields := [required "jid" .unsigned, lenient "slot" .flag, lenient "fwd4" .flag,
          lenient "fwd6" .flag] }
  | .releaseFwLease => { fields := [required "jid" .unsigned] }
  | .applyDevfsRules =>
      { fields := [required "mount_path" .text, required "ruleset" .unsigned,
          required "argc" .unsigned]
        items := some ("rule", kApplyDevfsRulesMaxRules) }
  | .mountTmpfs =>
      { fields := [required "target" .text, lenient "size" .text, lenient "uid" .text,
          lenient "gid" .text, lenient "mode" .text] }

/-- `key` is `stem` followed by a canonical numeral. -/
def isNumbered (stem key : Str) : Bool :=
  key = stem ++ decimal (decimalValue (key.drop stem.length))

def kindOf (v : Verb) (key : Str) : Option Kind :=
  match (shape v).fields.find? (fun f => f.key = key) with
  | some f => some f.kind
  | none =>
      match (shape v).items with
      | some (stem, _) => if isNumbered stem key then some .text else none
      | none => none

def Value.fits : Value → Kind → Bool
  | .text _, .text => true
  | .integer _, .long => true
  | .integer _, .unsigned => true
  | .flag _, .flag => true
  | _, _ => false

/-- Values for some of the fields of a verb, in any order. -/
structure Assignment (v : Verb) where
  members : Members
  distinct : (members.map Prod.fst).Nodup
  typed : ∀ member ∈ members, (kindOf v member.1).any member.2.fits = true

/-! ## When the requests are the same -/

def Value.IsUnsigned : Value → Prop
  | .integer z => 0 ≤ z ∧ z < 2 ^ 32
  | _ => False

def Value.IsDefault (v : Value) : Prop := v = .text [] ∨ v = .flag false

def Field.Supplied (ms : Members) (f : Field) : Prop :=
  f.need = .required →
    ∃ value, ms.lookup f.key = some value ∧ (f.kind = .unsigned → value.IsUnsigned)

/-- No earlier value collides with the name, unless ignoring the field changes nothing. -/
def Field.Readable (ms : Members) (f : Field) : Prop :=
  poisoned ms f.key = true →
    f.need = .lenient ∧ ∀ value, ms.lookup f.key = some value → value.IsDefault

def argcOf (ms : Members) : Nat :=
  match ms.lookup ("argc" : Str) with
  | some (.integer z) => z.toNat
  | _ => 0

def ItemsSupplied (ms : Members) : Option (Str × Nat) → Prop
  | none => True
  | some (stem, max) =>
      (1 ≤ argcOf ms ∧ argcOf ms ≤ max) ∧
        ∀ i < argcOf ms, ∃ value, ms.lookup (stem ++ decimal i) = some value

def ItemsReadable (ms : Members) : Option (Str × Nat) → Prop
  | none => True
  | some (stem, _) => ∀ i < argcOf ms, poisoned ms (stem ++ decimal i) = false

/-- The request has everything its verb needs. -/
def Complete (ms : Members) (s : Shape) : Prop :=
  (∀ f ∈ s.fields, f.Supplied ms) ∧ ItemsSupplied ms s.items

/-- The scanner is not misled about any field. -/
def Clean (ms : Members) (s : Shape) : Prop :=
  (∀ f ∈ s.fields, f.Readable ms) ∧ ItemsReadable ms s.items

/-- Both parsers fail, or both succeed with the same request. -/
def SameRequest (v : Verb) (ms : Members) : Prop :=
  (parse v (jsonBody ms)).map Except.toOption =
    (PrivOpsNvPure.parse v (fieldMap ms)).map Except.toOption

/-! ## Names -/

theorem isFieldName_of_mem_shape (v : Verb) : ∀ f ∈ (shape v).fields, IsFieldName f.key := by
  cases v <;> decide

theorem isFieldName_stem {v : Verb} {item : Str × Nat} (h : (shape v).items = some item) :
    IsFieldName item.1 := by
  cases v <;> cases h <;> decide

theorem isFieldName_numbered {stem : Str} (hstem : IsFieldName stem) (i : Nat) :
    IsFieldName (stem ++ decimal i) := by
  refine ⟨by simp, List.all_eq_true.mpr ?_⟩
  intro c hc
  rcases List.mem_append.mp hc with hc | hc
  · exact hstem.isNameChar c hc
  · simp [isNameChar, isAlnum, isDecimalDigit_of_mem_decimal hc]

theorem isFieldName_of_kindOf {v : Verb} {key : Str} {kind : Kind}
    (h : kindOf v key = some kind) : IsFieldName key := by
  unfold kindOf at h
  split at h
  · rename_i f hfind
    have hkey : f.key = key := by simpa using List.find?_some hfind
    rw [← hkey]
    exact isFieldName_of_mem_shape v f (List.mem_of_find?_eq_some hfind)
  · split at h
    · rename_i stem max hitems
      split at h
      · rename_i hnumbered
        rw [of_decide_eq_true hnumbered]
        exact isFieldName_numbered (isFieldName_stem hitems) _
      · contradiction
    · contradiction

theorem kindOf_numbered {v : Verb} {stem : Str} {max : Nat}
    (hitems : (shape v).items = some (stem, max)) (i : Nat) :
    kindOf v (stem ++ decimal i) = some .text := by
  have hnumbered : isNumbered stem (stem ++ decimal i) = true := by
    simp [isNumbered]
  have hnone : (shape v).fields.find? (fun f => f.key = stem ++ decimal i) = none := by
    have hlast : ∀ f ∈ (shape v).fields, f.key.getLast?.any isDecimalDigit = false := by
      cases v <;> cases hitems <;> decide
    rw [List.find?_eq_none]
    intro f hf
    simpa using (PrivOpsClient.ne_numbered (hlast f hf) stem i).symm
  rw [kindOf, hnone, hitems]
  simp [hnumbered]

namespace Assignment

variable {v : Verb} (a : Assignment v)

theorem isFieldName : ∀ member ∈ a.members, IsFieldName member.1 := by
  intro member hmember
  obtain ⟨kind, hkind, -⟩ := (Option.any_eq_true _ _).mp (a.typed member hmember)
  exact isFieldName_of_kindOf hkind

theorem fits_of_lookup {key : Str} {kind : Kind} (h : kindOf v key = some kind) {value : Value}
    (hlookup : a.members.lookup key = some value) : value.fits kind = true := by
  obtain ⟨before, after, hsplit, -⟩ := List.lookup_eq_some_iff.mp hlookup
  have htyped := a.typed (key, value) (by simp [hsplit])
  rwa [h] at htyped

theorem text_of_lookup {key : Str} (h : kindOf v key = some .text) (value : Value)
    (hlookup : a.members.lookup key = some value) : ∃ s, value = .text s := by
  have hfits := a.fits_of_lookup h hlookup
  cases value <;> simp_all [Value.fits]

theorem flag_of_lookup {key : Str} (h : kindOf v key = some .flag) (value : Value)
    (hlookup : a.members.lookup key = some value) : ∃ b, value = .flag b := by
  have hfits := a.fits_of_lookup h hlookup
  cases value <;> simp_all [Value.fits]

theorem integer_of_lookup {key : Str}
    (h : kindOf v key = some .long ∨ kindOf v key = some .unsigned) (value : Value)
    (hlookup : a.members.lookup key = some value) : ∃ z, value = .integer z := by
  rcases h with h | h
  · have hfits := a.fits_of_lookup h hlookup
    cases value <;> simp_all [Value.fits]
  · have hfits := a.fits_of_lookup h hlookup
    cases value <;> simp_all [Value.fits]

end Assignment

/-! ## Numbers -/

theorem exists_narrowUnsigned_integerText {key : Str} {z : Int} :
    (∃ u, narrowUnsigned key (strtol (integerText z)) = .ok u) ↔ 0 ≤ z ∧ z < 2 ^ 32 := by
  simp only [narrowUnsigned_eq_ok_iff, strtol_integerText]
  constructor
  · rintro ⟨u, hu⟩
    have := u.toNat_lt
    omega
  · rintro ⟨hlow, hhigh⟩
    refine ⟨UInt32.ofNat z.toNat, ?_⟩
    rw [UInt32.toNat_ofNat', Nat.mod_eq_of_lt (by omega)]
    omega

/-! ## Reading one field from both transports -/

theorem Field.readable_iff {ms : Members} {f : Field} (h : f.need ≠ .lenient) :
    f.Readable ms ↔ poisoned ms f.key = false := by
  simp [Field.Readable, h]

theorem Field.paired {ms : Members} {f : Field} (hneed : f.need ≠ .lenient) {α : Type}
    {first second : Except Str α} (hok : (∃ x, second = .ok x) ↔ f.Supplied ms)
    (hfirst : first.toOption = if poisoned ms f.key then none else second.toOption) :
    Paired (f.Supplied ms) (f.Readable ms) first second := by
  refine ⟨hok, ?_, ?_⟩
  · intro hclean
    rw [f.readable_iff hneed] at hclean
    simpa [hclean] using hfirst
  · intro hclean
    rw [f.readable_iff hneed, Bool.not_eq_false] at hclean
    simpa [hclean] using hfirst

namespace Assignment

variable {v : Verb} (a : Assignment v) {key : Str}

theorem requireText (h : kindOf v key = some .text) :
    Paired ((required key .text).Supplied a.members) ((required key .text).Readable a.members)
      (requireStringField (jsonBody a.members) key) (requireString (fieldMap a.members) key) := by
  apply Field.paired Need.noConfusion
  · rw [requireString, requiredField, find?_fieldMap]
    cases hlookup : a.members.lookup key <;> simp [Field.Supplied, required, hlookup]
  · rw [requireStringField, extractStringField_jsonBody (isFieldName_of_kindOf h) a.isFieldName
      (a.text_of_lookup h), toOption_requirePresent_extracted, requireString, requiredField,
      find?_fieldMap]
    cases a.members.lookup key <;> rfl

theorem requireLong (h : kindOf v key = some .long) :
    Paired ((required key .long).Supplied a.members) ((required key .long).Readable a.members)
      (requireLongField (jsonBody a.members) key) (requireLong (fieldMap a.members) key) := by
  have hint := a.integer_of_lookup (.inl h)
  apply Field.paired Need.noConfusion
  · rw [PrivOpsNvPure.requireLong, requiredField, find?_fieldMap]
    cases hlookup : a.members.lookup key with
    | none => simp [Field.Supplied, required, hlookup]
    | some value =>
        obtain ⟨z, rfl⟩ := hint value hlookup
        simp [Field.Supplied, required, hlookup, Value.plain, longValue_integerText]
  · rw [requireLongField, extractLongField_jsonBody (isFieldName_of_kindOf h) a.isFieldName hint,
      toOption_requirePresent_extracted, PrivOpsNvPure.requireLong, requiredField, find?_fieldMap]
    cases hlookup : a.members.lookup key with
    | none => rfl
    | some value =>
        obtain ⟨z, rfl⟩ := hint value hlookup
        simp [Value.plain, longValue_integerText, Except.toOption, required]

theorem optionalText (h : kindOf v key = some .text) :
    Paired ((optional key .text).Supplied a.members) ((optional key .text).Readable a.members)
      (orDefault (extractStringField (jsonBody a.members) key []))
      (optionalString (fieldMap a.members) key []) := by
  apply Field.paired Need.noConfusion
  · rw [optionalString, optionalField, find?_fieldMap]
    cases a.members.lookup key <;> simp [Field.Supplied, optional]
  · rw [extractStringField_jsonBody (isFieldName_of_kindOf h) a.isFieldName
      (a.text_of_lookup h), toOption_orDefault_extracted, optionalString, optionalField,
      find?_fieldMap]
    cases a.members.lookup key <;> rfl

theorem optionalFlag (h : kindOf v key = some .flag) (default : Bool) :
    Paired ((optional key .flag).Supplied a.members) ((optional key .flag).Readable a.members)
      (orDefault (extractBoolField (jsonBody a.members) key default))
      (optionalBool (fieldMap a.members) key default) := by
  have hflag := a.flag_of_lookup h
  apply Field.paired Need.noConfusion
  · rw [optionalBool, optionalField, find?_fieldMap]
    cases hlookup : a.members.lookup key with
    | none => simp [Field.Supplied, optional]
    | some value =>
        obtain ⟨b, rfl⟩ := hflag value hlookup
        simp [Field.Supplied, optional, Value.plain]
  · rw [extractBoolField_jsonBody (isFieldName_of_kindOf h) a.isFieldName hflag,
      toOption_orDefault_extracted, optionalBool, optionalField, find?_fieldMap]
    cases hlookup : a.members.lookup key with
    | none => rfl
    | some value =>
        obtain ⟨b, rfl⟩ := hflag value hlookup
        simp [Value.plain, Except.toOption, optional]

theorem requireUnsigned (h : kindOf v key = some .unsigned) :
    Paired ((required key .unsigned).Supplied a.members)
      ((required key .unsigned).Readable a.members)
      (requireUnsignedField (jsonBody a.members) key)
      (requireUnsigned (fieldMap a.members) key) := by
  have hint := a.integer_of_lookup (.inr h)
  have hlong := extractLongField_jsonBody (isFieldName_of_kindOf h) a.isFieldName hint 0
  apply Field.paired Need.noConfusion
  · rw [PrivOpsNvPure.requireUnsigned, PrivOpsNvPure.requireLong, requiredField, find?_fieldMap]
    cases hlookup : a.members.lookup key with
    | none => simp [Field.Supplied, required, hlookup, bind, Except.bind]
    | some value =>
        obtain ⟨z, rfl⟩ := hint value hlookup
        simp only [Field.Supplied, required, hlookup, Value.plain, longValue_integerText, ok_bind,
          exists_narrowUnsigned_integerText, Option.map_some]
        simp [Value.IsUnsigned]
  · rw [requireUnsignedField, extractUnsignedField, hlong, extracted,
      PrivOpsNvPure.requireUnsigned, PrivOpsNvPure.requireLong, requiredField, find?_fieldMap]
    cases hpoison : poisoned a.members key with
    | true => simp [hpoison, required, requirePresent, Except.toOption]
    | false =>
        cases hlookup : a.members.lookup key with
        | none =>
            simp only [required, hpoison]
            rfl
        | some value =>
            obtain ⟨z, rfl⟩ := hint value hlookup
            simp only [required, hpoison, Value.plain, longValue_integerText, ok_bind,
              Option.map_some]
            cases hnarrow : narrowUnsigned key (strtol (integerText z)) with
            | error e => simp [hnarrow, requirePresent, Except.toOption]
            | ok u => simp [hnarrow, requirePresent, Except.toOption]

theorem lenientText (key : Str) (h : kindOf v key = some .text) :
    ∃ x, optionalString (fieldMap a.members) key [] = .ok x ∧
      ((lenient key .text).Readable a.members ↔
        (extractStringField (jsonBody a.members) key []).2 = x) := by
  refine ⟨(a.members.lookup key).elim [] Value.plain, ?_, ?_⟩
  · rw [optionalString, optionalField, find?_fieldMap]
    cases a.members.lookup key <;> rfl
  · rw [extractStringField_jsonBody (isFieldName_of_kindOf h) a.isFieldName
      (a.text_of_lookup h), snd_extracted]
    cases hpoison : poisoned a.members key with
    | false => simp [Field.Readable, lenient, hpoison]
    | true =>
        cases hlookup : a.members.lookup key with
        | none => simp [Field.Readable, lenient, hlookup]
        | some value =>
            obtain ⟨s, rfl⟩ := a.text_of_lookup h value hlookup
            simp [Field.Readable, lenient, hpoison, hlookup, Value.IsDefault, Value.plain, eq_comm]

theorem lenientFlag (key : Str) (h : kindOf v key = some .flag) :
    ∃ x, optionalBool (fieldMap a.members) key false = .ok x ∧
      ((lenient key .flag).Readable a.members ↔
        (extractBoolField (jsonBody a.members) key false).2 = x) := by
  have hflag := a.flag_of_lookup h
  refine ⟨(a.members.lookup key).elim false (fun v => v = .flag true), ?_, ?_⟩
  · rw [optionalBool, optionalField, find?_fieldMap]
    cases hlookup : a.members.lookup key with
    | none => rfl
    | some value =>
        obtain ⟨b, rfl⟩ := hflag value hlookup
        simp [Value.plain]
  · rw [extractBoolField_jsonBody (isFieldName_of_kindOf h) a.isFieldName hflag, snd_extracted]
    cases hpoison : poisoned a.members key with
    | false => simp [Field.Readable, lenient, hpoison]
    | true =>
        cases hlookup : a.members.lookup key with
        | none => simp [Field.Readable, lenient, hlookup]
        | some value =>
            obtain ⟨b, rfl⟩ := hflag value hlookup
            cases b <;> simp [Field.Readable, lenient, hpoison, hlookup, Value.IsDefault]

end Assignment

/-! ## Numbered fields -/

theorem exists_checkArgc_eq_ok {argc : UInt32} {max : Nat} :
    (∃ x, checkArgc argc max = .ok x) ↔ 1 ≤ argc.toNat ∧ argc.toNat ≤ max := by
  have hzero : argc = 0 ↔ argc.toNat = 0 := by
    rw [← UInt32.toNat_inj]
    rfl
  have hcheck : checkArgc argc max = .ok () ↔ argc.toNat ≠ 0 ∧ ¬argc.toNat > max := by
    simp only [checkArgc, check_seq_eq_ok, reject_eq_ok, hzero, ne_eq]
  constructor
  · rintro ⟨_, hok⟩
    have := hcheck.mp hok
    omega
  · intro hrange
    exact ⟨(), hcheck.mpr (by omega)⟩

namespace Assignment

variable {v : Verb} (a : Assignment v) {stem : Str} {max : Nat}

theorem readIndexed_paired (hitems : (shape v).items = some (stem, max)) (left i : Nat) :
    Paired (∀ j < i + left, i ≤ j → ∃ value, a.members.lookup (stem ++ decimal j) = some value)
      (∀ j < i + left, i ≤ j → poisoned a.members (stem ++ decimal j) = false)
      (readIndexed (requireStringField (jsonBody a.members)) stem i left)
      (readIndexed (requireString (fieldMap a.members)) stem i left) := by
  induction left generalizing i with
  | zero =>
      refine (Paired.ok []).congr ?_ ?_
      · simp only [true_iff]
        intro j hlt hle
        omega
      · simp only [true_iff]
        intro j hlt hle
        omega
  | succ left ih =>
      have hsplit : ∀ P : Nat → Prop, (P i ∧ ∀ j < i + 1 + left, i + 1 ≤ j → P j) ↔
          ∀ j < i + (left + 1), i ≤ j → P j := by
        intro P
        constructor
        · rintro ⟨hi, hrest⟩ j hlt hle
          rcases Nat.eq_or_lt_of_le hle with rfl | hlt'
          · exact hi
          · exact hrest j (by omega) hlt'
        · intro h
          exact ⟨h i (by omega) (Nat.le_refl i), fun j hlt hle => h j (by omega) (by omega)⟩
      refine (Paired.bind (a.requireText (kindOf_numbered hitems i)) fun item =>
        Paired.bind (ih (i + 1)) fun rest => .ok (item :: rest)).congr ?_ ?_
      · rw [← hsplit]
        simp [Field.Supplied, required]
      · rw [← hsplit, Field.readable_iff Need.noConfusion]
        simp [required]

theorem toNat_argc (h : kindOf v "argc" = some .unsigned) {argc : UInt32}
    (hread : PrivOpsNvPure.requireUnsigned (fieldMap a.members) "argc" = .ok argc) :
    argc.toNat = argcOf a.members := by
  rw [PrivOpsNvPure.requireUnsigned, PrivOpsNvPure.requireLong, requiredField,
    find?_fieldMap] at hread
  unfold argcOf
  cases hlookup : a.members.lookup ("argc" : Str) with
  | none =>
      rw [hlookup] at hread
      contradiction
  | some value =>
      obtain ⟨z, rfl⟩ := a.integer_of_lookup (.inr h) value hlookup
      rw [hlookup] at hread
      simp only [Option.map_some, Value.plain, longValue_integerText, ok_bind,
        narrowUnsigned_eq_ok_iff, strtol_integerText] at hread
      have := argc.toNat_lt
      simp only
      omega

end Assignment

end Crate.PrivOpsWirePure
