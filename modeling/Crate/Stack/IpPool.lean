import Crate.Foundation.FreeScan
import Crate.Foundation.OrdMap
import Crate.Stack.Networks

/-!
# The addresses of a stack network

`allocateIpPool` of `lib/stack.cpp` gives each container that needs one an address
out of a pool.  The pool is the inside of the subnet or the range of the network,
and a cursor of 32 bits moves up in it past the addresses that are in use.
-/

namespace Crate.Stack

open Crate.Foundation
open Crate.StackPure

/-! ## The pool -/

/-- What the allocator reads of an entry of the stack. -/
structure StackEntry where
  name : Str
  crateFile : Str := []
  deriving DecidableEq, Repr

/-- `poolStart` and `poolEnd`. -/
structure Pool where
  start : UInt32
  last : UInt32
  deriving DecidableEq, Repr

/-- All addresses of the subnet but its first two and its last. -/
def subnetPool (baseAddr : UInt32) (prefixLen : Nat) : Pool :=
  let hosts : UInt32 := (1 <<< UInt32.ofNat (32 - prefixLen)) - 1
  ⟨(baseAddr &&& ~~~hosts) + 2, (baseAddr ||| hosts) - 1⟩

/-- The pool of a network; a range without a dash is no range. -/
def poolOf (network : StackNetwork) (baseAddr : UInt32) (prefixLen : Nat) : Except Str Pool :=
  match network.ipRange.dropWhile (· ≠ '-') with
  | [] => .ok (subnetPool baseAddr prefixLen)
  | _ :: behind =>
      match inetPton4 (network.ipRange.takeWhile (· ≠ '-')), inetPton4 behind with
      | some s, some e =>
          if s > e then
            err ("networks/" ++ network.name ++ "/ip_range '" ++ network.ipRange ++
              "' is reversed")
          else .ok ⟨s, e⟩
      | _, _ =>
          err ("networks/" ++ network.name ++ "/ip_range '" ++ network.ipRange ++
            "' must be a.b.c.d-a.b.c.d")

/-- The addresses that are in use before the scan: those that are written without more. -/
def usedIps (network : StackNetwork) (existingIps : OrdMap Str Str) : List UInt32 :=
  let gateway := if network.gateway.isEmpty then [] else (inetPton4 network.gateway).toList
  gateway ++ existingIps.entries.filterMap (fun kv => inetPton4 kv.2)

/--
`while (nextIp <= poolEnd && usedIps.count(nextIp)) nextIp++`; `none` when it
does not end.  Its rounds pass over different used addresses until then.
-/
def skipUsed (used : List UInt32) (poolEnd nextIp : UInt32) : Option UInt32 :=
  ((List.range (used.length + 1)).find? (fun i =>
    !(nextIp + UInt32.ofNat i ≤ poolEnd && used.contains (nextIp + UInt32.ofNat i)))).map
      (fun i => nextIp + UInt32.ofNat i)

def needsAddress (eligible : Str → Bool) (result : OrdMap Str Str) (e : StackEntry) : Bool :=
  (result.find? e.name).isNone && e.crateFile.isEmpty && eligible e.name

def exhausted (network container : Str) : Str :=
  "IP pool exhausted for network '" ++ network ++ "': cannot allocate IP for container '" ++
    container ++ "'"

/-- The loop over the entries; `none` when it does not end. -/
def allocateLoop (network : Str) (poolEnd : UInt32) (eligible : Str → Bool) :
    List StackEntry → OrdMap Str Str → List UInt32 → UInt32 → Option (Except Str (OrdMap Str Str))
  | [], result, _, _ => some (.ok result)
  | e :: entries, result, used, nextIp =>
      if needsAddress eligible result e then
        match skipUsed used poolEnd nextIp with
        | none => none
        | some ip =>
            if ip > poolEnd then some (err (exhausted network e.name))
            else
              allocateLoop network poolEnd eligible entries (result.insert e.name (ipToString ip))
                (ip :: used) (ip + 1)
      else allocateLoop network poolEnd eligible entries result used nextIp

def allocateIpPool (network : StackNetwork) (entries : List StackEntry)
    (existingIps : OrdMap Str Str) (eligible : Str → Bool) :
    Option (Except Str (OrdMap Str Str)) :=
  if network.subnet.isEmpty then some (.ok existingIps)
  else
    match parseCidr network.subnet with
    | none =>
        some (err ("invalid CIDR subnet '" ++ network.subnet ++ "' in network '" ++
          network.name ++ "'"))
    | some (baseAddr, prefixLen) =>
        if prefixLen < 8 ∨ prefixLen > 30 then
          some (err ("invalid prefix length " ++ decimal prefixLen ++ " in network '" ++
            network.name ++ "': must be between 8 and 30"))
        else
          match poolOf network baseAddr prefixLen with
          | .error e => some (.error e)
          | .ok pool =>
              allocateLoop network.name pool.last eligible entries existingIps
                (usedIps network existingIps) pool.start

/-! ## Positions of the cursor -/

namespace Pool

/-- How many addresses the cursor meets before it leaves the pool or meets one again. -/
def size (p : Pool) : Nat :=
  if p.last.toNat = 2 ^ 32 - 1 then 2 ^ 32 else p.last.toNat + 1 - p.start.toNat

def addr (p : Pool) (i : Nat) : UInt32 := p.start + UInt32.ofNat i

variable {p : Pool} {i j : Nat} {x : UInt32}

theorem addr_zero (p : Pool) : p.addr 0 = p.start := UInt32.add_zero p.start

theorem addr_add (p : Pool) (i j : Nat) : p.addr i + UInt32.ofNat j = p.addr (i + j) := by
  rw [addr, addr, UInt32.ofNat_add, UInt32.add_assoc]

theorem addr_succ (p : Pool) (i : Nat) : p.addr i + 1 = p.addr (i + 1) := p.addr_add i 1

theorem toNat_addr (p : Pool) (i : Nat) : (p.addr i).toNat = (p.start.toNat + i) % 2 ^ 32 := by
  rw [addr, UInt32.toNat_add, UInt32.toNat_ofNat', Nat.add_mod_mod]

theorem size_le (p : Pool) : p.size ≤ 2 ^ 32 := by
  have := p.last.toNat_lt
  unfold size
  split <;> omega

theorem addr_inj (hi : i < p.size) (hj : j < p.size) (h : p.addr i = p.addr j) : i = j := by
  have hsize := p.size_le
  have hnat := congrArg UInt32.toNat h
  rw [toNat_addr, toNat_addr] at hnat
  omega

theorem addr_le_last (hi : i < p.size) : p.addr i ≤ p.last := by
  have hlt := (p.addr i).toNat_lt
  have hlast := p.last.toNat_lt
  have hnat := p.toNat_addr i
  rw [UInt32.le_iff_toNat_le]
  unfold size at hi
  split at hi <;> omega

theorem last_lt_addr_size (h : p.last.toNat ≠ 2 ^ 32 - 1) : p.last < p.addr p.size := by
  have hlast := p.last.toNat_lt
  have hstart := p.start.toNat_lt
  rw [UInt32.lt_iff_toNat_lt, toNat_addr, size, if_neg h]
  omega

/-- A pool that ends where the addresses end has a position for every address. -/
theorem exists_addr (h : p.last.toNat = 2 ^ 32 - 1) (x : UInt32) :
    ∃ i, i < p.size ∧ p.addr i = x := by
  refine ⟨(x - p.start).toNat, ?_, ?_⟩
  · rw [size, if_pos h]
    exact UInt32.toNat_lt _
  · rw [addr, UInt32.ofNat_toNat]
    rw [UInt32.add_comm, UInt32.sub_add_cancel]

theorem exists_addr_of_mem (hstart : p.start ≤ x) (hlast : x ≤ p.last) :
    ∃ i, i < p.size ∧ p.addr i = x := by
  have hx := x.toNat_lt
  rw [UInt32.le_iff_toNat_le] at hstart hlast
  refine ⟨x.toNat - p.start.toNat, ?_, ?_⟩
  · unfold size
    split <;> omega
  · rw [← UInt32.toNat_inj, toNat_addr]
    omega

/-- The positions whose address is not reserved. -/
def isFree (p : Pool) (reserved : List UInt32) (i : Nat) : Bool := !reserved.contains (p.addr i)

def freePositions (p : Pool) (reserved : List UInt32) (c : Nat) : List Nat :=
  freeFrom (p.isFree reserved) p.size c

end Pool

/-! ## The scan -/

section Scan

variable {used : List UInt32} {poolEnd next : UInt32}

/-- The loop goes on for as many rounds as it meets used addresses of the pool. -/
theorem skipUsed_eq_some {n : Nat}
    (hbefore : ∀ j < n, next + UInt32.ofNat j ≤ poolEnd ∧ next + UInt32.ofNat j ∈ used)
    (hstop : poolEnd < next + UInt32.ofNat n ∨ next + UInt32.ofNat n ∉ used) :
    skipUsed used poolEnd next = some (next + UInt32.ofNat n) := by
  -- A cursor that had gone around would have met the same stop before.
  have hlt : n < 2 ^ 32 := by
    by_contra hge
    have hsame : next + UInt32.ofNat (n - 2 ^ 32) = next + UInt32.ofNat n := by
      rw [← UInt32.toNat_inj, UInt32.toNat_add, UInt32.toNat_add, UInt32.toNat_ofNat',
        UInt32.toNat_ofNat']
      omega
    obtain ⟨hle, hmem⟩ := hbefore (n - 2 ^ 32) (by omega)
    rw [hsame] at hle hmem
    rcases hstop with hpast | hfree
    · exact absurd hle (UInt32.not_le.mpr hpast)
    · exact hfree hmem
  have hnodup : ((List.range n).map (fun j => next + UInt32.ofNat j)).Nodup := by
    refine List.nodup_range.map_on (fun i hi j hj h => ?_)
    rw [List.mem_range] at hi hj
    have hnat := congrArg UInt32.toNat h
    rw [UInt32.toNat_add, UInt32.toNat_add, UInt32.toNat_ofNat', UInt32.toNat_ofNat'] at hnat
    omega
  have hsub : (List.range n).map (fun j => next + UInt32.ofNat j) ⊆ used := by
    intro x hx
    obtain ⟨j, hj, rfl⟩ := List.mem_map.mp hx
    exact (hbefore j (List.mem_range.mp hj)).2
  have hlength := (hnodup.subperm hsub).length_le
  rw [List.length_map, List.length_range] at hlength
  have hfind : (List.range (used.length + 1)).find? (fun i =>
      !(next + UInt32.ofNat i ≤ poolEnd && used.contains (next + UInt32.ofNat i))) = some n := by
    rw [List.find?_range_eq_some]
    refine ⟨?_, List.mem_range.mpr (by omega), fun j hj => ?_⟩
    · rcases hstop with hpast | hfree
      · simp [UInt32.not_le.mpr hpast]
      · simp [hfree]
    · simp [(hbefore j hj).1, (hbefore j hj).2]
  rw [skipUsed, hfind]
  rfl

theorem skipUsed_eq_none (h : ∀ x, x ≤ poolEnd ∧ x ∈ used) : skipUsed used poolEnd next = none := by
  have hnone : (List.range (used.length + 1)).find? (fun i =>
      !(next + UInt32.ofNat i ≤ poolEnd && used.contains (next + UInt32.ofNat i))) = none := by
    rw [List.find?_range_eq_none]
    intro i hi
    simp [(h (next + UInt32.ofNat i)).1, (h (next + UInt32.ofNat i)).2]
  rw [skipUsed, hnone]
  rfl

end Scan

/-- What is in use with the cursor at a position: the addresses before it and the reserved ones. -/
structure Passed (p : Pool) (reserved used : List UInt32) (c : Nat) : Prop where
  le_size : c ≤ p.size
  mem_used : ∀ i < p.size, p.addr i ∈ used ↔ i < c ∨ p.addr i ∈ reserved

namespace Passed

variable {p : Pool} {reserved used : List UInt32} {c i : Nat} {rest : List Nat}

theorem start (p : Pool) (reserved : List UInt32) : Passed p reserved reserved 0 :=
  ⟨Nat.zero_le _, fun i _ => by simp⟩

theorem mem_freePositions :
    i ∈ p.freePositions reserved c ↔ c ≤ i ∧ i < p.size ∧ p.addr i ∉ reserved := by
  rw [Pool.freePositions, mem_freeFrom, Pool.isFree, Bool.not_eq_true', List.contains_eq_mem,
    decide_eq_false_iff_not]

theorem used_of_not_free (h : Passed p reserved used c) (hi : i < p.size)
    (hnot : i ∉ p.freePositions reserved c) : p.addr i ≤ p.last ∧ p.addr i ∈ used := by
  refine ⟨Pool.addr_le_last hi, (h.mem_used i hi).mpr ?_⟩
  by_contra hneither
  obtain ⟨hge, hfree⟩ := not_or.mp hneither
  exact hnot (mem_freePositions.mpr ⟨not_lt.mp hge, hi, hfree⟩)

theorem first_free (hfree : p.freePositions reserved c = i :: rest) :
    c ≤ i ∧ i < p.size ∧ p.addr i ∉ reserved ∧ rest = p.freePositions reserved (i + 1) ∧
      ∀ j < i, j ∉ p.freePositions reserved c := by
  obtain ⟨hle, hlt, hreserved⟩ := mem_freePositions.mp (hfree ▸ List.mem_cons_self)
  obtain ⟨hbefore, hrest⟩ := freeFrom_eq_cons hfree
  refine ⟨hle, hlt, hreserved, hrest, fun j hj hmem => ?_⟩
  obtain ⟨hcj, -, hfreej⟩ := mem_freeFrom.mp hmem
  have hin : j ∈ freeFrom (p.isFree reserved) i c := mem_freeFrom.mpr ⟨hcj, hj, hfreej⟩
  rw [hbefore] at hin
  exact absurd hin List.not_mem_nil

theorem skip_cons (h : Passed p reserved used c) (hfree : p.freePositions reserved c = i :: rest) :
    skipUsed used p.last (p.addr c) = some (p.addr i) := by
  obtain ⟨hle, hlt, hreserved, -, hbefore⟩ := first_free hfree
  obtain ⟨n, rfl⟩ := Nat.exists_eq_add_of_le hle
  rw [← p.addr_add c n]
  refine skipUsed_eq_some (fun j hj => ?_) (.inr ?_)
  · rw [p.addr_add]
    exact h.used_of_not_free (by omega) (hbefore (c + j) (by omega))
  · rw [p.addr_add, h.mem_used (c + n) hlt]
    rintro (hpassed | hin)
    · omega
    · exact hreserved hin

theorem give (h : Passed p reserved used c) (hfree : p.freePositions reserved c = i :: rest) :
    Passed p reserved (p.addr i :: used) (i + 1) := by
  obtain ⟨hle, hlt, -, -, hbefore⟩ := first_free hfree
  refine ⟨hlt, fun j hj => ?_⟩
  rw [List.mem_cons]
  constructor
  · rintro (hsame | hused)
    · exact .inl (by rw [Pool.addr_inj hj hlt hsame]; omega)
    · rcases (h.mem_used j hj).mp hused with hpassed | hin
      · exact .inl (by omega)
      · exact .inr hin
  · rintro (hpassed | hin)
    · rcases Nat.lt_or_ge j i with hji | hge
      · exact .inr (h.used_of_not_free hj (hbefore j hji)).2
      · exact .inl (by rw [show j = i by omega])
    · exact .inr ((h.mem_used j hj).mpr (.inr hin))

/-- Without a free address the cursor leaves the pool. -/
theorem skip_nil (h : Passed p reserved used c) (hfree : p.freePositions reserved c = [])
    (hlast : p.last.toNat ≠ 2 ^ 32 - 1) :
    skipUsed used p.last (p.addr c) = some (p.addr p.size) := by
  obtain ⟨n, hn⟩ := Nat.exists_eq_add_of_le h.le_size
  rw [hn, ← p.addr_add c n]
  refine skipUsed_eq_some (fun j hj => ?_) (.inl ?_)
  · rw [p.addr_add]
    exact h.used_of_not_free (by omega) (by simp [hfree])
  · rw [p.addr_add, ← hn]
    exact Pool.last_lt_addr_size hlast

/-- When the pool ends where the addresses end, it goes around for ever. -/
theorem skip_nil_of_max (h : Passed p reserved used c) (hfree : p.freePositions reserved c = [])
    (hlast : p.last.toNat = 2 ^ 32 - 1) : skipUsed used p.last (p.addr c) = none := by
  apply skipUsed_eq_none
  intro x
  obtain ⟨i, hi, rfl⟩ := Pool.exists_addr hlast x
  exact h.used_of_not_free hi (by simp [hfree])

end Passed

/-! ## A run of the loop -/

/-- The members with the addresses at their positions. -/
def assign (p : Pool) (result : OrdMap Str Str) (given : List (Str × Nat)) : OrdMap Str Str :=
  given.foldl (fun result g => result.insert g.1 (ipToString (p.addr g.2))) result

/-- The names of the members that get an address. -/
def askers (eligible : Str → Bool) (existing : OrdMap Str Str) (entries : List StackEntry) :
    List Str :=
  (entries.filter (needsAddress eligible existing)).map StackEntry.name

section Assigned

variable {p : Pool} {result : OrdMap Str Str} {given : List (Str × Nat)} {name : Str} {i : Nat}

theorem find?_assign_of_not_mem (h : name ∉ given.map Prod.fst) :
    (assign p result given).find? name = result.find? name := by
  induction given generalizing result with
  | nil => rfl
  | cons g given ih =>
      obtain ⟨hne, htail⟩ := List.ne_and_not_mem_of_not_mem_cons h
      rw [assign, List.foldl_cons, ← assign, ih htail, OrdMap.find?_insert_ne (Ne.symm hne)]

theorem find?_assign_of_mem (hnodup : (given.map Prod.fst).Nodup) (h : (name, i) ∈ given) :
    (assign p result given).find? name = some (ipToString (p.addr i)) := by
  induction given generalizing result with
  | nil => exact absurd h List.not_mem_nil
  | cons g given ih =>
      obtain ⟨hfirst, htail⟩ := List.nodup_cons.mp hnodup
      rcases List.mem_cons.mp h with rfl | hrest
      · rw [assign, List.foldl_cons, ← assign, find?_assign_of_not_mem hfirst,
          OrdMap.find?_insert_self]
      · rw [assign, List.foldl_cons, ← assign, ih htail hrest]

end Assigned

section Loop

variable {network : Str} {eligible : Str → Bool} {p : Pool} {reserved used : List UInt32}
variable {e : StackEntry} {entries : List StackEntry} {result : OrdMap Str Str} {c i : Nat}
variable {rest : List Nat}

theorem askers_cons_of_needs (h : needsAddress eligible result e = true) :
    askers eligible result (e :: entries) = e.name :: askers eligible result entries := by
  rw [askers, List.filter_cons_of_pos h, List.map_cons, ← askers]

theorem askers_cons_of_not (h : ¬needsAddress eligible result e = true) :
    askers eligible result (e :: entries) = askers eligible result entries := by
  rw [askers, List.filter_cons_of_neg h, ← askers]

theorem askers_insert {name value : Str} (h : name ∉ entries.map StackEntry.name) :
    askers eligible (result.insert name value) entries = askers eligible result entries := by
  unfold askers
  congr 1
  apply List.filter_congr
  intro e he
  have hne : name ≠ e.name := fun hsame => h (hsame ▸ List.mem_map_of_mem he)
  rw [needsAddress, needsAddress, OrdMap.find?_insert_ne hne]

theorem allocateLoop_give (hneeds : needsAddress eligible result e = true)
    (h : Passed p reserved used c) (hfree : p.freePositions reserved c = i :: rest) :
    allocateLoop network p.last eligible (e :: entries) result used (p.addr c) =
      allocateLoop network p.last eligible entries (result.insert e.name (ipToString (p.addr i)))
        (p.addr i :: used) (p.addr (i + 1)) := by
  have hle := Pool.addr_le_last (Passed.first_free hfree).2.1
  rw [allocateLoop, if_pos hneeds, h.skip_cons hfree]
  dsimp only
  rw [if_neg (UInt32.not_lt.mpr hle), p.addr_succ]

theorem allocateLoop_skip (hneeds : ¬needsAddress eligible result e = true) (next : UInt32) :
    allocateLoop network p.last eligible (e :: entries) result used next =
      allocateLoop network p.last eligible entries result used next := by
  rw [allocateLoop, if_neg hneeds]

/-- With enough free addresses the members get them in their order. -/
theorem allocateLoop_ok (hnames : (entries.map StackEntry.name).Nodup)
    (h : Passed p reserved used c)
    (henough : (askers eligible result entries).length ≤ (p.freePositions reserved c).length) :
    allocateLoop network p.last eligible entries result used (p.addr c) =
      some (.ok (assign p result
        ((askers eligible result entries).zip (p.freePositions reserved c)))) := by
  induction entries generalizing result used c with
  | nil => rfl
  | cons e entries ih =>
      obtain ⟨hnew, hnames⟩ := List.nodup_cons.mp hnames
      by_cases hneeds : needsAddress eligible result e = true
      · rw [askers_cons_of_needs hneeds] at henough ⊢
        cases hfree : p.freePositions reserved c with
        | nil => simp [hfree] at henough
        | cons i rest =>
            obtain ⟨-, -, -, hrest, -⟩ := Passed.first_free hfree
            rw [hfree, List.length_cons, List.length_cons, hrest] at henough
            rw [allocateLoop_give hneeds h hfree, hrest, List.zip_cons_cons, assign,
              List.foldl_cons, ← assign, ih hnames (h.give hfree), askers_insert hnew]
            rw [askers_insert hnew]
            omega
      · rw [askers_cons_of_not hneeds] at henough ⊢
        rw [allocateLoop_skip hneeds, ih hnames h henough]

/-- With too few, the first member behind those that get one is named. -/
theorem allocateLoop_exhausted (network : Str)
    (hnames : (entries.map StackEntry.name).Nodup) (h : Passed p reserved used c)
    (hlast : p.last.toNat ≠ 2 ^ 32 - 1)
    (hfew : (p.freePositions reserved c).length < (askers eligible result entries).length) :
    ∃ before e after, entries = before ++ e :: after ∧
      (askers eligible result before).length = (p.freePositions reserved c).length ∧
      allocateLoop network p.last eligible entries result used (p.addr c) =
        some (err (exhausted network e.name)) := by
  induction entries generalizing result used c with
  | nil => simp [askers] at hfew
  | cons e entries ih =>
      obtain ⟨hnew, hnames⟩ := List.nodup_cons.mp hnames
      by_cases hneeds : needsAddress eligible result e = true
      · cases hfree : p.freePositions reserved c with
        | nil =>
            refine ⟨[], e, entries, rfl, rfl, ?_⟩
            rw [allocateLoop, if_pos hneeds, h.skip_nil hfree hlast]
            dsimp only
            rw [if_pos (Pool.last_lt_addr_size hlast)]
        | cons i rest =>
            obtain ⟨-, -, -, hrest, -⟩ := Passed.first_free hfree
            rw [askers_cons_of_needs hneeds, hfree, List.length_cons, List.length_cons, hrest]
              at hfew
            have hothers : (p.freePositions reserved (i + 1)).length <
                (askers eligible (result.insert e.name (ipToString (p.addr i)))
                  entries).length := by
              rw [askers_insert hnew]
              omega
            obtain ⟨before, last, after, hsplit, hlength, hloop⟩ :=
              ih hnames (h.give hfree) hothers
            have hbefore : e.name ∉ before.map StackEntry.name := by
              intro hin
              exact hnew (by rw [hsplit, List.map_append]; exact List.mem_append_left _ hin)
            refine ⟨e :: before, last, after, by rw [hsplit]; rfl, ?_, ?_⟩
            · rw [askers_cons_of_needs hneeds, List.length_cons, List.length_cons, hrest,
                ← hlength, askers_insert hbefore]
            · rw [allocateLoop_give hneeds h hfree, hloop]
      · rw [askers_cons_of_not hneeds] at hfew
        obtain ⟨before, last, after, hsplit, hlength, hloop⟩ := ih hnames h hfew
        refine ⟨e :: before, last, after, by rw [hsplit]; rfl, ?_, ?_⟩
        · rw [askers_cons_of_not hneeds, hlength]
        · rw [allocateLoop_skip hneeds, hloop]

theorem allocateLoop_endless (hnames : (entries.map StackEntry.name).Nodup)
    (h : Passed p reserved used c) (hlast : p.last.toNat = 2 ^ 32 - 1)
    (hfew : (p.freePositions reserved c).length < (askers eligible result entries).length) :
    allocateLoop network p.last eligible entries result used (p.addr c) = none := by
  induction entries generalizing result used c with
  | nil => simp [askers] at hfew
  | cons e entries ih =>
      obtain ⟨hnew, hnames⟩ := List.nodup_cons.mp hnames
      by_cases hneeds : needsAddress eligible result e = true
      · cases hfree : p.freePositions reserved c with
        | nil => rw [allocateLoop, if_pos hneeds, h.skip_nil_of_max hfree hlast]
        | cons i rest =>
            obtain ⟨-, -, -, hrest, -⟩ := Passed.first_free hfree
            rw [askers_cons_of_needs hneeds, hfree, List.length_cons, List.length_cons, hrest]
              at hfew
            rw [allocateLoop_give hneeds h hfree]
            exact ih hnames (h.give hfree) (by rw [askers_insert hnew]; omega)
      · rw [askers_cons_of_not hneeds] at hfew
        rw [allocateLoop_skip hneeds, ih hnames h hfew]

end Loop

/-! ## The function -/

section Runs

variable {network : StackNetwork} {entries : List StackEntry} {existing : OrdMap Str Str}
variable {eligible : Str → Bool} {baseAddr : UInt32} {prefixLen : Nat} {p : Pool}

/-- A network whose subnet the allocator takes. -/
structure HasSubnet (network : StackNetwork) (baseAddr : UInt32) (prefixLen : Nat) : Prop where
  cidr : parseCidr network.subnet = some (baseAddr, prefixLen)
  min_le : 8 ≤ prefixLen
  le_max : prefixLen ≤ 30

theorem HasSubnet.allocateIpPool_eq (h : HasSubnet network baseAddr prefixLen)
    (entries : List StackEntry) (existing : OrdMap Str Str) (eligible : Str → Bool) :
    allocateIpPool network entries existing eligible =
      match poolOf network baseAddr prefixLen with
      | .error e => some (.error e)
      | .ok pool =>
          allocateLoop network.name pool.last eligible entries existing
            (usedIps network existing) pool.start := by
  have hsubnet : ¬network.subnet.isEmpty = true := by
    intro hempty
    have hnone : parseCidr [] = none := rfl
    rw [List.isEmpty_iff] at hempty
    rw [← hempty, h.cidr] at hnone
    contradiction
  have hprefix : ¬(prefixLen < 8 ∨ prefixLen > 30) := by
    have := h.min_le
    have := h.le_max
    omega
  rw [allocateIpPool, if_neg hsubnet, h.cidr]
  dsimp only
  rw [if_neg hprefix]

theorem HasSubnet.allocateIpPool_loop (h : HasSubnet network baseAddr prefixLen)
    (hpool : poolOf network baseAddr prefixLen = .ok p)
    (entries : List StackEntry) (existing : OrdMap Str Str) (eligible : Str → Bool) :
    allocateIpPool network entries existing eligible =
      allocateLoop network.name p.last eligible entries existing (usedIps network existing)
        (p.addr 0) := by
  rw [h.allocateIpPool_eq, hpool, p.addr_zero]

/-- The members that get an address, with the positions of the addresses they get. -/
def given (p : Pool) (network : StackNetwork) (entries : List StackEntry)
    (existing : OrdMap Str Str) (eligible : Str → Bool) : List (Str × Nat) :=
  (askers eligible existing entries).zip (p.freePositions (usedIps network existing) 0)

theorem HasSubnet.run_ok (h : HasSubnet network baseAddr prefixLen)
    (hpool : poolOf network baseAddr prefixLen = .ok p)
    (hnames : (entries.map StackEntry.name).Nodup)
    (henough : (askers eligible existing entries).length ≤
      (p.freePositions (usedIps network existing) 0).length) :
    allocateIpPool network entries existing eligible =
      some (.ok (assign p existing (given p network entries existing eligible))) := by
  rw [h.allocateIpPool_loop hpool]
  exact allocateLoop_ok hnames (Passed.start p _) henough

theorem HasSubnet.eq_of_run_ok (h : HasSubnet network baseAddr prefixLen)
    (hpool : poolOf network baseAddr prefixLen = .ok p)
    (hnames : (entries.map StackEntry.name).Nodup) {result : OrdMap Str Str}
    (hrun : allocateIpPool network entries existing eligible = some (.ok result)) :
    (askers eligible existing entries).length ≤
        (p.freePositions (usedIps network existing) 0).length ∧
      result = assign p existing (given p network entries existing eligible) := by
  by_cases henough : (askers eligible existing entries).length ≤
      (p.freePositions (usedIps network existing) 0).length
  · rw [h.run_ok hpool hnames henough] at hrun
    exact ⟨henough, (Except.ok.inj (Option.some.inj hrun)).symm⟩
  · exfalso
    rw [h.allocateIpPool_loop hpool] at hrun
    by_cases hlast : p.last.toNat = 2 ^ 32 - 1
    · rw [allocateLoop_endless hnames (Passed.start p _) hlast (by omega)] at hrun
      contradiction
    · obtain ⟨_, e, _, -, -, hloop⟩ :=
        allocateLoop_exhausted network.name hnames (Passed.start p _) hlast
          (not_le.mp henough)
      rw [hloop] at hrun
      cases Option.some.inj hrun

/-- An error of a known pool names the first member that gets nothing. -/
theorem HasSubnet.split_of_run_error (h : HasSubnet network baseAddr prefixLen)
    (hpool : poolOf network baseAddr prefixLen = .ok p)
    (hnames : (entries.map StackEntry.name).Nodup) {msg : Str}
    (hrun : allocateIpPool network entries existing eligible = some (.error msg)) :
    ∃ before e after, entries = before ++ e :: after ∧
      (askers eligible existing before).length =
        (p.freePositions (usedIps network existing) 0).length ∧
      err (exhausted network.name e.name) = (.error msg : Except Str (OrdMap Str Str)) := by
  by_cases henough : (askers eligible existing entries).length ≤
      (p.freePositions (usedIps network existing) 0).length
  · rw [h.run_ok hpool hnames henough] at hrun
    cases Option.some.inj hrun
  · rw [h.allocateIpPool_loop hpool] at hrun
    by_cases hlast : p.last.toNat = 2 ^ 32 - 1
    · rw [allocateLoop_endless hnames (Passed.start p _) hlast (by omega)] at hrun
      contradiction
    · obtain ⟨before, e, after, hsplit, hlength, hloop⟩ :=
        allocateLoop_exhausted network.name hnames (Passed.start p _) hlast
          (not_le.mp henough)
      rw [hloop] at hrun
      exact ⟨before, e, after, hsplit, hlength, Option.some.inj hrun⟩

end Runs

end Crate.Stack
