import Crate.Snmp.AgentX

/-!
# GetNext requests

The resolvers and `dispatchOnce` of `snmpd/mib.cpp` with the search ranges of
`snmpd/mib_pure.cpp`.  A search range has a start, which may itself be asked
for, and an end.  The agent keeps only the start of each range, and what a
payload holds in front of the place where decoding stops is answered as if it
were the whole request.
-/

namespace Crate.MibPure

/-! ## Search ranges -/

structure SearchRange where
  start : Oid
  stop : Oid
  /-- The start itself may be the answer. -/
  incl : Bool
  deriving DecidableEq, Repr

def decodeSearchRange (buf : Bytes) (offset : Nat) (bigEndian : Bool) :
    Option (Nat × SearchRange) := do
  let first ← decodeOid buf offset bigEndian
  let second ← decodeOid buf (offset + first.bytes) bigEndian
  return (first.bytes + second.bytes, ⟨first.oid, second.oid, first.incl⟩)

/--
The loop of `decodeGetRequest`: the ranges up to the end of the buffer or to
the first that does not decode, and whether the end was reached.  A range takes
at least eight bytes, so the fuel of `decodeRanges` is never used up.
-/
def rangesLoop (buf : Bytes) (bigEndian : Bool) : Nat → Nat → List SearchRange × Bool
  | 0, _ => ([], true)
  | fuel + 1, pos =>
      if pos < buf.length then
        match decodeSearchRange buf pos bigEndian with
        | none => ([], false)
        | some (n, range) =>
            let rest := rangesLoop buf bigEndian fuel (pos + n)
            (range :: rest.1, rest.2)
      else ([], true)

def decodeRanges (buf : Bytes) (pos : Nat) (bigEndian : Bool) : List SearchRange × Bool :=
  rangesLoop buf bigEndian (buf.length - pos) pos

/-- The position behind the context string that `NON_DEFAULT_CONTEXT` announces. -/
def skipContext (buf : Bytes) (flags : UInt8) : Option Nat :=
  if flags &&& 0x08 ≠ 0 then
    let n := (decodeOctetString buf 0 (flags &&& 0x10 ≠ 0)).1
    if n ≤ 0 then none else some n.toNat
  else some 0

/-- The ranges as far as `decodeGetRequest` decodes them, and whether it reached the end. -/
def payloadRanges (buf : Bytes) (flags : UInt8) : List SearchRange × Bool :=
  match skipContext buf flags with
  | none => ([], false)
  | some pos => decodeRanges buf pos (flags &&& 0x10 ≠ 0)

/-- What `decodeGetRequest` leaves in `out`: the start of every range it decoded. -/
def decodeGetRequest (buf : Bytes) (flags : UInt8) : List Oid :=
  (payloadRanges buf flags).1.map (·.start)

/-! ## VarBinds -/

inductive VarBind where
  | integer (oid : Oid) (value : UInt32)
  | octetString (oid : Oid) (s : Bytes)
  | noSuchObject (oid : Oid)
  | noSuchInstance (oid : Oid)
  | endOfMibView (oid : Oid)
  deriving DecidableEq, Repr

/-- `encodeVarBindHeader` of a type tag below 256. -/
def varBindHeader (type : UInt8) (oid : Oid) : Bytes := [0, type, 0, 0] ++ encodeOid oid false

def encodeVarBind (buf : Bytes) : VarBind → Bytes
  | .integer oid value => buf ++ varBindHeader 2 oid ++ encodeUint32 value
  | .octetString oid s => encodeOctetString (buf ++ varBindHeader 4 oid) s
  | .noSuchObject oid => buf ++ varBindHeader 128 oid
  | .noSuchInstance oid => buf ++ varBindHeader 129 oid
  | .endOfMibView oid => buf ++ varBindHeader 130 oid

/-! ## The resolvers -/

/-- -1, 0 or 1, by the first sub-identifier that differs and then by the length. -/
def compareOid : Oid → Oid → Int
  | [], [] => 0
  | [], _ :: _ => -1
  | _ :: _, [] => 1
  | x :: a, y :: b => if x < y then -1 else if x > y then 1 else compareOid a b

structure MibData where
  totalCount : UInt32 := 0
  runningCount : UInt32 := 0
  version : Bytes := []
  hostname : Bytes := []
  deriving DecidableEq, Repr

/-- `encodeScalarValue`: the value is found by the eighth and ninth sub-identifiers. -/
def scalarValue (mib : MibData) (oid : Oid) : VarBind :=
  if oid.length = 10 ∧ oid[7]? = some 1 then
    if oid[8]? = some 1 then .integer oid mib.totalCount
    else if oid[8]? = some 2 then .integer oid mib.runningCount
    else if oid[8]? = some 3 then .octetString oid mib.version
    else if oid[8]? = some 4 then .octetString oid mib.hostname
    else .noSuchObject oid
  else .noSuchObject oid

def resolveGet (table : List Oid) (mib : MibData) (oid : Oid) : VarBind :=
  match table.find? (· = oid) with
  | some found => scalarValue mib found
  | none => .noSuchInstance oid

def resolveGetNext (table : List Oid) (mib : MibData) (oid : Oid) : VarBind :=
  match table.find? (fun entry => compareOid entry oid > 0) with
  | some next => scalarValue mib next
  | none => .endOfMibView oid

/-! ## One PDU -/

structure Header where
  version : UInt8 := 1
  type : UInt8 := 0
  flags : UInt8 := 0
  sessionId : UInt32 := 0
  transactionId : UInt32 := 0
  packetId : UInt32 := 0
  deriving DecidableEq, Repr

def PDU_GET : UInt8 := 6

def PDU_GETNEXT : UInt8 := 7

def PDU_RESPONSE : UInt8 := 18

def ERR_NO_ERROR : UInt16 := 0

structure Response where
  errorStatus : UInt16
  varBinds : List VarBind
  deriving DecidableEq, Repr

/-- `encodeResponseHeader` with an uptime and an error index of 0, then the VarBinds. -/
def Response.payload (r : Response) : Bytes :=
  r.varBinds.foldl encodeVarBind
    ([0, 0, 0, 0, (r.errorStatus >>> 8).toUInt8, r.errorStatus.toUInt8, 0, 0])

/-- `encodeHeader`, then the payload. -/
def Response.pdu (r : Response) (h : Header) : Bytes :=
  [1, PDU_RESPONSE, 0x10, 0] ++ encodeUint32 h.sessionId ++ encodeUint32 h.transactionId ++
    encodeUint32 h.packetId ++ encodeUint32 (UInt32.ofNat r.payload.length) ++ r.payload

/-- `dispatchOnce` behind the reading of header and payload; a response is not answered. -/
def dispatch (table : List Oid) (mib : MibData) (h : Header) (payload : Bytes) :
    Option Response :=
  if h.type = PDU_RESPONSE then none
  else some {
    errorStatus := ERR_NO_ERROR
    varBinds :=
      if h.type = PDU_GET then (decodeGetRequest payload h.flags).map (resolveGet table mib)
      else if h.type = PDU_GETNEXT then
        (decodeGetRequest payload h.flags).map (resolveGetNext table mib)
      else [] }

/-! ## The loop over the ranges -/

theorem eight_le_of_decodeSearchRange {buf : Bytes} {pos n : Nat} {bigEndian : Bool}
    {range : SearchRange} (h : decodeSearchRange buf pos bigEndian = some (n, range)) : 8 ≤ n := by
  have hfour : ∀ offset d, decodeOid buf offset bigEndian = some d → 4 ≤ d.bytes := by
    intro offset d hd
    unfold decodeOid at hd
    split at hd
    · split at hd
      · contradiction
      · cases hd
        simp
    · contradiction
  simp only [decodeSearchRange, Option.bind_eq_bind, Option.bind_eq_some_iff] at h
  obtain ⟨first, hfirst, second, hsecond, hpair⟩ := h
  cases hpair
  have := hfour _ _ hfirst
  have := hfour _ _ hsecond
  omega

theorem rangesLoop_succ {buf : Bytes} {bigEndian : Bool} {fuel pos : Nat}
    (h : buf.length ≤ pos + fuel) :
    rangesLoop buf bigEndian (fuel + 1) pos = rangesLoop buf bigEndian fuel pos := by
  induction fuel generalizing pos with
  | zero =>
      have hend : ¬pos < buf.length := not_lt.mpr h
      simp only [rangesLoop, if_neg hend]
  | succ fuel ih =>
      rw [rangesLoop, rangesLoop]
      split
      · split
        · rfl
        · rename_i n range hdecode
          have := eight_le_of_decodeSearchRange hdecode
          dsimp only
          rw [ih (by omega)]
      · rfl

theorem rangesLoop_of_le {buf : Bytes} {bigEndian : Bool} {fuel more pos : Nat}
    (h : buf.length ≤ pos + fuel) :
    rangesLoop buf bigEndian (fuel + more) pos = rangesLoop buf bigEndian fuel pos := by
  induction more with
  | zero => rfl
  | succ more ih => rw [← Nat.add_assoc, rangesLoop_succ (by omega), ih]

/-- The loop as the source has it. -/
theorem decodeRanges_eq (buf : Bytes) (pos : Nat) (bigEndian : Bool) :
    decodeRanges buf pos bigEndian =
      if pos < buf.length then
        match decodeSearchRange buf pos bigEndian with
        | none => ([], false)
        | some (n, range) =>
            (range :: (decodeRanges buf (pos + n) bigEndian).1,
              (decodeRanges buf (pos + n) bigEndian).2)
      else ([], true) := by
  by_cases hpos : pos < buf.length
  · obtain ⟨fuel, hfuel⟩ : ∃ fuel, buf.length - pos = fuel + 1 := ⟨buf.length - pos - 1, by omega⟩
    rw [decodeRanges, hfuel, rangesLoop, if_pos hpos, if_pos hpos]
    split
    · rfl
    · rename_i n range hdecode
      have := eight_le_of_decodeSearchRange hdecode
      obtain ⟨more, hmore⟩ : ∃ more, fuel = buf.length - (pos + n) + more :=
        ⟨fuel - (buf.length - (pos + n)), by omega⟩
      rw [decodeRanges, hmore, rangesLoop_of_le (by omega)]
  · rw [if_neg hpos, decodeRanges, Nat.sub_eq_zero_of_le (by omega)]
    rfl

/-! ## The order of object identifiers -/

/-- Identifiers are compared by their sub-identifiers in turn, a prefix first. -/
def key (oid : Oid) : List ℕ := oid.map UInt32.toNat

theorem key_injective : Function.Injective key :=
  List.map_injective_iff.mpr fun _ _ h => UInt32.toNat_inj.mp h

/-- The identifiers a range asks for. -/
structure InRange (r : SearchRange) (oid : Oid) : Prop where
  behindStart : key r.start < key oid ∨ (r.incl = true ∧ oid = r.start)
  beforeStop : r.stop ≠ [] → key oid < key r.stop

/-- The ranges for which the identifier behind the start is the one asked for. -/
structure Served (table : List Oid) (r : SearchRange) : Prop where
  startNotAsked : ¬(r.incl = true ∧ r.start ∈ table ∧ (r.stop ≠ [] → key r.start < key r.stop))
  notPastStop : r.stop ≠ [] → (∃ oid ∈ table, key r.start < key oid) →
    ∃ oid ∈ table, key r.start < key oid ∧ key oid < key r.stop

def VarBind.oid : VarBind → Oid
  | .integer oid _ | .octetString oid _ | .noSuchObject oid | .noSuchInstance oid
  | .endOfMibView oid => oid

@[simp] theorem scalarValue_oid (mib : MibData) (oid : Oid) : (scalarValue mib oid).oid = oid := by
  unfold scalarValue
  split_ifs <;> rfl

section Resolve

variable {table : List Oid} {mib : MibData} {r : SearchRange}

end Resolve

end Crate.MibPure
