import Crate.Foundation.Check
import Crate.Foundation.Dependency
import Crate.Foundation.OrdMap

/-!
# The start order of a stack

`StackPure::topoSort` is Kahn's algorithm on the positions of the entries, with
counters that count a dependency as often as it is listed.  It succeeds exactly
on the stacks whose names are distinct, whose dependencies are all entries and
depend on each other in no circle, and then gives the entries in an order in
which each one comes after those it depends on.
-/

namespace Crate.StackPure

open Crate.Foundation

structure StackEntry where
  name : Str
  depends : List Str
  deriving DecidableEq, Repr

/-! ## The code -/

/-- The dependencies still open for each position, and who waits for it. -/
structure Graph where
  inDeg : Nat → Int
  adj : Nat → List Nat

def Graph.empty : Graph := ⟨fun _ => 0, fun _ => []⟩

def Graph.addEdge (i : Nat) (g : Graph) (di : Nat) : Graph where
  inDeg := Function.update g.inDeg i (g.inDeg i + 1)
  adj := Function.update g.adj di (g.adj di ++ [i])

structure Work where
  inDeg : Nat → Int
  queue : List Nat
  sorted : List Nat

def relax (w : Work) (next : Nat) : Work :=
  let inDeg := Function.update w.inDeg next (w.inDeg next - 1)
  { w with
    inDeg := inDeg
    queue := if inDeg next = 0 then w.queue ++ [next] else w.queue }

/-- The body of the loop: `cur` was taken from the queue and `rest` is left. -/
def visit (adj : Nat → List Nat) (w : Work) (cur : Nat) (rest : List Nat) : Work :=
  (adj cur).foldl relax { w with queue := rest, sorted := w.sorted ++ [cur] }

/-- `while (!q.empty())`, for at most `fuel` rounds; `inv_drain` shows that the entries suffice. -/
def drain (adj : Nat → List Nat) : Nat → Work → Work
  | 0, w => w
  | fuel + 1, w =>
      match w.queue with
      | [] => w
      | cur :: rest => drain adj fuel (visit adj w cur rest)

section Generic

variable {T : Type} (name : T → Str) (depends : T → List Str)

def indexNames : Nat → List T → OrdMap Str Nat → Except Str (OrdMap Str Nat)
  | _, [], nameIdx => .ok nameIdx
  | i, e :: rest, nameIdx =>
      if (nameIdx.find? (name e)).isSome then
        raise "stack" ("duplicate container name '" ++ name e ++ "' in stack file")
      else indexNames (i + 1) rest (nameIdx.insert (name e) i)

def checkDepends (nameIdx : OrdMap Str Nat) (e : T) : List Str → Check
  | [] => .ok ()
  | d :: rest =>
      if (nameIdx.find? d).isNone then
        raise "stack" ("container '" ++ name e ++ "' depends on unknown container '" ++ d ++ "'")
      else checkDepends nameIdx e rest

def checkAllDepends (nameIdx : OrdMap Str Nat) : List T → Check
  | [] => .ok ()
  | e :: rest => do
      checkDepends name nameIdx e (depends e)
      checkAllDepends nameIdx rest

/-- `nameIdx[d]`, which is 0 for a name that is not there. -/
def indexOf (nameIdx : OrdMap Str Nat) (d : Str) : Nat := (nameIdx.find? d).getD 0

def buildGraph (nameIdx : OrdMap Str Nat) : Nat → List T → Graph → Graph
  | _, [], g => g
  | i, e :: rest, g =>
      buildGraph nameIdx (i + 1) rest (((depends e).map (indexOf nameIdx)).foldl (Graph.addEdge i) g)

def topoSort (entries : List T) : Except Str (List T) := do
  let nameIdx ← indexNames name 0 entries .empty
  checkAllDepends name depends nameIdx entries
  let n := entries.length
  let g := buildGraph depends nameIdx 0 entries .empty
  let start : Work :=
    { inDeg := g.inDeg
      queue := (List.range n).filter (fun i => g.inDeg i = 0)
      sorted := [] }
  let done := drain g.adj n start
  if done.sorted.length ≠ n then raise "stack" "circular dependency detected in stack file"
  else .ok (done.sorted.filterMap (entries[·]?))

end Generic

/-! ## One round -/

variable {w : Work} {n : Nat} {pred : Nat → List Nat} {adj : Nat → List Nat}

/-- What a list of decrements does: who falls to zero on the way is queued, once. -/
theorem foldl_relax (nexts : List Nat) (w : Work)
    (h : ∀ i ∈ nexts, (nexts.count i : Int) ≤ w.inDeg i) :
    (∀ i, (nexts.foldl relax w).inDeg i = w.inDeg i - nexts.count i) ∧
      (nexts.foldl relax w).sorted = w.sorted ∧
      ∃ pushed, (nexts.foldl relax w).queue = w.queue ++ pushed ∧ pushed.Nodup ∧
        ∀ i, i ∈ pushed ↔ i ∈ nexts ∧ w.inDeg i = nexts.count i := by
  induction nexts generalizing w with
  | nil => exact ⟨by simp, rfl, [], by simp⟩
  | cons a rest ih =>
      have hself : (relax w a).inDeg a = w.inDeg a - 1 := by simp [relax]
      have hother : ∀ i, i ≠ a → (relax w a).inDeg i = w.inDeg i := by
        intro i hne
        simp [relax, hne]
      have ha := h a (by simp)
      rw [List.count_cons_self] at ha
      obtain ⟨hdeg, hsorted, pushed, hqueue, hnodup, hmem⟩ := ih (relax w a) (by
        intro i hi
        by_cases hia : i = a
        · subst hia
          rw [hself]
          omega
        · rw [hother i hia]
          have := h i (List.mem_cons_of_mem a hi)
          rwa [List.count_cons_of_ne (Ne.symm hia)] at this)
      refine ⟨?_, hsorted, ?_⟩
      · intro i
        rw [List.foldl_cons, hdeg]
        by_cases hia : i = a
        · subst hia
          rw [hself, List.count_cons_self]
          omega
        · rw [hother i hia, List.count_cons_of_ne (Ne.symm hia)]
      · refine ⟨(if (relax w a).inDeg a = 0 then [a] else []) ++ pushed, ?_, ?_, ?_⟩
        · rw [List.foldl_cons, hqueue, ← List.append_assoc]
          congr 1
          simp only [relax, Function.update_self]
          split <;> simp
        · split
          · rename_i hzero
            refine List.nodup_cons.mpr ⟨fun hin => ?_, hnodup⟩
            -- a second decrement would have passed zero
            have hrest := (hmem a).mp hin
            have hcount := List.count_pos_iff.mpr hrest.1
            omega
          · exact hnodup
        · intro i
          rw [List.mem_append, hmem]
          by_cases hia : i = a
          · subst hia
            rw [hself, List.count_cons_self]
            by_cases hin : i ∈ rest
            · have hcount := List.count_pos_iff.mpr hin
              have hopen : w.inDeg i - 1 ≠ 0 := by omega
              simp only [hin, hopen, if_false, List.not_mem_nil, false_or, true_and,
                List.mem_cons, true_or]
              omega
            · have hcount := List.count_eq_zero.mpr hin
              simp only [hin, hcount, false_and, or_false, List.mem_cons, true_and]
              split <;> simp <;> omega
          · rw [hother i hia, List.count_cons_of_ne (Ne.symm hia)]
            have hskip : i ∉ if (relax w a).inDeg a = 0 then [a] else [] := by
              split <;> simp [hia]
            simp [hskip, hia]

/-! ## The rounds -/

/-- `adj` lists a position as often as `pred` lists what it waits for. -/
structure Waits (n : Nat) (pred adj : Nat → List Nat) : Prop where
  lt : ∀ i j, i ∈ adj j → i < n
  count : ∀ i j, i < n → (adj j).count i = (pred i).count j

structure Inv (n : Nat) (pred : Nat → List Nat) (w : Work) : Prop where
  nodup : (w.sorted ++ w.queue).Nodup
  degree : ∀ i, i < n → w.inDeg i = (pred i).countP (· ∉ w.sorted)
  ready : ∀ i, i ∈ w.sorted ++ w.queue ↔ i < n ∧ w.inDeg i = 0
  order : InOrder (fun i j => j ∈ pred i) w.sorted

theorem countP_not_mem_concat {l sorted : List Nat} {cur : Nat} (h : cur ∉ sorted) :
    (l.countP (· ∉ sorted ++ [cur]) : Int) = l.countP (· ∉ sorted) - l.count cur := by
  induction l with
  | nil => simp
  | cons a rest ih =>
      by_cases hcur : a = cur
      · subst hcur
        rw [List.count_cons_self, List.countP_cons_of_neg (by simp),
          List.countP_cons_of_pos (by simpa using h), ih]
        omega
      · have hsame : decide (a ∉ sorted ++ [cur]) = decide (a ∉ sorted) := by simp [hcur]
        rw [List.count_cons_of_ne hcur, List.countP_cons, List.countP_cons, hsame]
        push_cast
        rw [ih]
        omega

theorem mem_sorted_of_degree_zero (h : Inv n pred w) {i j : Nat} (hi : i < n)
    (hzero : w.inDeg i = 0) (hj : j ∈ pred i) : j ∈ w.sorted := by
  have hcount := h.degree i hi
  rw [hzero] at hcount
  have hnone : (pred i).countP (· ∉ w.sorted) = 0 := by omega
  simpa using List.countP_eq_zero.mp hnone j hj

theorem Inv.visit (hwaits : Waits n pred adj) (h : Inv n pred w) {cur : Nat} {rest : List Nat}
    (hqueue : w.queue = cur :: rest) : Inv n pred (visit adj w cur rest) := by
  have hcur := (h.ready cur).mp (by simp [hqueue])
  have hold : w.sorted ++ [cur] ++ rest = w.sorted ++ w.queue := by simp [hqueue]
  have hfresh : cur ∉ w.sorted := by
    intro hin
    have hnodup := h.nodup
    rw [hqueue] at hnodup
    exact (List.nodup_append.mp hnodup).2.2 cur hin cur (by simp) rfl
  have hopen : ∀ i, i < n →
      w.inDeg i - (adj cur).count i = (pred i).countP (· ∉ w.sorted ++ [cur]) := by
    intro i hi
    rw [h.degree i hi, hwaits.count i cur hi, countP_not_mem_concat hfresh]
  obtain ⟨hdeg, hsorted, pushed, hpushed, hpushedNodup, hmem⟩ :=
    foldl_relax (adj cur) { w with queue := rest, sorted := w.sorted ++ [cur] } (by
      intro i hi
      have := hopen i (hwaits.lt i cur hi)
      dsimp only
      omega)
  simp only at hdeg hsorted hpushed hmem
  have hdegree : ∀ i, i < n → (StackPure.visit adj w cur rest).inDeg i =
      (pred i).countP (· ∉ w.sorted ++ [cur]) := fun i hi => (hdeg i).trans (hopen i hi)
  refine ⟨?_, ?_, ?_, ?_⟩
  · rw [StackPure.visit, hsorted, hpushed, ← List.append_assoc, hold, List.nodup_append]
    refine ⟨h.nodup, hpushedNodup, ?_⟩
    rintro i hi j hj rfl
    have hzero := ((h.ready i).mp hi).2
    obtain ⟨hin, hcount⟩ := (hmem i).mp hj
    have := List.count_pos_iff.mpr hin
    omega
  · intro i hi
    rw [hdegree i hi]
    simp only [StackPure.visit, hsorted]
  · intro i
    rw [StackPure.visit, hsorted, hpushed, ← List.append_assoc, hold, List.mem_append, h.ready,
      hmem]
    constructor
    · rintro (⟨hi, hzero⟩ | ⟨hin, hcount⟩)
      · refine ⟨hi, ?_⟩
        have hpos := hopen i hi
        rw [hdeg]
        omega
      · refine ⟨hwaits.lt i cur hin, ?_⟩
        rw [hdeg]
        omega
    · rintro ⟨hi, hzero⟩
      rw [hdeg] at hzero
      by_cases hin : i ∈ adj cur
      · exact .inr ⟨hin, by omega⟩
      · rw [List.count_eq_zero.mpr hin] at hzero
        exact .inl ⟨hi, by omega⟩
  · rw [StackPure.visit, hsorted]
    exact h.order.concat fun j hj => mem_sorted_of_degree_zero h hcur.1 hcur.2 hj

theorem length_sorted_le (h : Inv n pred w) : (w.sorted ++ w.queue).length ≤ n := by
  have hsub : (w.sorted ++ w.queue) ⊆ List.range n := by
    intro i hi
    exact List.mem_range.mpr ((h.ready i).mp hi).1
  simpa using (h.nodup.subperm hsub).length_le

theorem foldl_relax_sorted (nexts : List Nat) (w : Work) :
    (nexts.foldl relax w).sorted = w.sorted := by
  induction nexts generalizing w with
  | nil => rfl
  | cons a rest ih => exact ih (relax w a)

/-- Every round sorts one more position, so the rounds end with an empty queue. -/
theorem inv_drain (hwaits : Waits n pred adj) (fuel : Nat) (h : Inv n pred w)
    (hfuel : n ≤ fuel + w.sorted.length) :
    Inv n pred (drain adj fuel w) ∧ (drain adj fuel w).queue = [] := by
  induction fuel generalizing w with
  | zero =>
      refine ⟨h, List.eq_nil_of_length_eq_zero ?_⟩
      have hlength := length_sorted_le h
      rw [List.length_append] at hlength
      dsimp only [drain]
      omega
  | succ fuel ih =>
      cases hqueue : w.queue with
      | nil => simpa only [drain, hqueue, and_true] using h
      | cons cur rest =>
          simp only [drain, hqueue]
          refine ih (h.visit hwaits hqueue) ?_
          have hsorted : (visit adj w cur rest).sorted = w.sorted ++ [cur] :=
            foldl_relax_sorted _ _
          rw [hsorted, List.length_append, List.length_singleton]
          omega

/-- What is left over when the queue is empty are the positions behind a circle. -/
theorem sorted_all_iff (h : Inv n pred w) (hqueue : w.queue = [])
    (hlt : ∀ i j, j ∈ pred i → i < n ∧ j < n) :
    w.sorted.length = n ↔ Acyclic (fun i j => j ∈ pred i) := by
  have hready : ∀ i, i ∈ w.sorted ↔ i < n ∧ w.inDeg i = 0 := by
    intro i
    rw [← h.ready, hqueue, List.append_nil]
  have hnodup : w.sorted.Nodup := by simpa [hqueue] using h.nodup
  have hsub : w.sorted ⊆ List.range n := fun i hi => List.mem_range.mpr ((hready i).mp hi).1
  have hsubperm := hnodup.subperm hsub
  constructor
  · intro hlength
    have hperm := hsubperm.perm_of_length_le (by simp [hlength])
    refine h.order.acyclic hnodup fun i j hij => ?_
    exact hperm.mem_iff.mpr (List.mem_range.mpr (hlt i j hij).1)
  · intro hacyclic
    have hall : List.range n ⊆ w.sorted := by
      intro i hi
      by_contra hopen
      have hfinite : {i | i < n ∧ i ∉ w.sorted}.Finite :=
        (Set.finite_lt_nat n).subset fun i hi => hi.1
      obtain ⟨a, ⟨ha, hnot⟩, hfree⟩ :=
        hacyclic.exists_free hfinite ⟨i, List.mem_range.mp hi, hopen⟩
      have hnone : (pred a).countP (· ∉ w.sorted) = 0 := by
        refine List.countP_eq_zero.mpr fun j hj hjn => ?_
        exact hfree j ⟨(hlt a j hj).2, by simpa using hjn⟩ hj
      exact hnot ((hready a).mpr ⟨ha, by rw [h.degree a ha, hnone]; rfl⟩)
    have hge := (List.nodup_range.subperm hall).length_le
    have hle := hsubperm.length_le
    rw [List.length_range] at hge hle
    omega

/-! ## The graph of a list of entries -/

section Generic

variable {T : Type} {name : T → Str} {depends : T → List Str} {entries : List T}
  {nameIdx : OrdMap Str Nat}

/-- The positions that position `i` waits for, as often as they are listed. -/
def waitsFor (depends : T → List Str) (nameIdx : OrdMap Str Nat) (entries : List T) (i : Nat) :
    List Nat :=
  ((entries[i]?.map depends).getD []).map (indexOf nameIdx)

theorem foldl_addEdge (i : Nat) (dis : List Nat) (g : Graph) :
    (∀ k, (dis.foldl (Graph.addEdge i) g).inDeg k =
        g.inDeg k + if k = i then dis.length else 0) ∧
      ∀ j k, ((dis.foldl (Graph.addEdge i) g).adj j).count k =
        (g.adj j).count k + if k = i then dis.count j else 0 := by
  induction dis generalizing g with
  | nil => simp
  | cons d rest ih =>
      obtain ⟨hdeg, hadj⟩ := ih (g.addEdge i d)
      refine ⟨fun k => ?_, fun j k => ?_⟩
      · rw [List.foldl_cons, hdeg]
        by_cases hk : k = i
        · subst hk
          simp [Graph.addEdge]
          omega
        · simp [Graph.addEdge, hk]
      · rw [List.foldl_cons, hadj]
        by_cases hj : j = d
        · subst hj
          by_cases hk : k = i
          · subst hk
            simp [Graph.addEdge]
            omega
          · simp [Graph.addEdge, hk, Ne.symm hk]
        · simp [Graph.addEdge, hj, Ne.symm hj]

theorem buildGraph_spec (nameIdx : OrdMap Str Nat) (i : Nat) (rest : List T) (g : Graph) :
    (∀ k, (buildGraph depends nameIdx i rest g).inDeg k =
        g.inDeg k + if i ≤ k then (waitsFor depends nameIdx rest (k - i)).length else 0) ∧
      ∀ j k, ((buildGraph depends nameIdx i rest g).adj j).count k =
        (g.adj j).count k +
          if i ≤ k then (waitsFor depends nameIdx rest (k - i)).count j else 0 := by
  induction rest generalizing i g with
  | nil => simp [buildGraph, waitsFor]
  | cons e rest ih =>
      obtain ⟨hdeg, hadj⟩ :=
        ih (i + 1) (((depends e).map (indexOf nameIdx)).foldl (Graph.addEdge i) g)
      obtain ⟨hdegOne, hadjOne⟩ := foldl_addEdge i ((depends e).map (indexOf nameIdx)) g
      have hself : waitsFor depends nameIdx (e :: rest) 0 = (depends e).map (indexOf nameIdx) := by
        simp [waitsFor]
      have hbehind : ∀ k, i + 1 ≤ k → waitsFor depends nameIdx (e :: rest) (k - i) =
          waitsFor depends nameIdx rest (k - (i + 1)) := by
        intro k hk
        obtain ⟨m, rfl⟩ := Nat.exists_eq_add_of_le hk
        have hone : i + 1 + m - i = m + 1 := by omega
        simp [waitsFor, hone]
      refine ⟨fun k => ?_, fun j k => ?_⟩
      · rw [buildGraph, hdeg, hdegOne]
        rcases Nat.lt_trichotomy k i with hk | rfl | hk
        · simp [Nat.not_le.mpr hk, hk.ne, show ¬i + 1 ≤ k by omega]
        · simp [hself]
        · simp [hk.le, hk.ne', show i + 1 ≤ k by omega, hbehind k hk]
      · rw [buildGraph, hadj, hadjOne]
        rcases Nat.lt_trichotomy k i with hk | rfl | hk
        · simp [Nat.not_le.mpr hk, hk.ne, show ¬i + 1 ≤ k by omega]
        · simp [hself]
        · simp [hk.le, hk.ne', show i + 1 ≤ k by omega, hbehind k hk]

theorem waits_buildGraph :
    Waits entries.length (waitsFor depends nameIdx entries)
      (buildGraph depends nameIdx 0 entries .empty).adj := by
  have hcount : ∀ i j, ((buildGraph depends nameIdx 0 entries .empty).adj j).count i =
      (waitsFor depends nameIdx entries i).count j := by
    intro i j
    simpa [Graph.empty] using (buildGraph_spec nameIdx 0 entries .empty).2 j i
  refine ⟨fun i j hi => ?_, fun i j _ => hcount i j⟩
  have hpos := List.count_pos_iff.mpr hi
  rw [hcount, List.count_pos_iff] at hpos
  by_contra hge
  simp [waitsFor, List.getElem?_eq_none (not_lt.mp hge)] at hpos

theorem inv_start (depends : T → List Str) (nameIdx : OrdMap Str Nat) (entries : List T) :
    let g := buildGraph depends nameIdx 0 entries .empty
    Inv entries.length (waitsFor depends nameIdx entries)
      { inDeg := g.inDeg
        queue := (List.range entries.length).filter (fun i => g.inDeg i = 0)
        sorted := [] } := by
  refine ⟨List.nodup_range.filter _, fun i _ => ?_, fun i => by simp, inOrder_nil⟩
  simpa [Graph.empty] using (buildGraph_spec nameIdx 0 entries .empty).1 i

/-! ## The names -/

theorem indexNames_isOk_iff (name : T → Str) (i : Nat) (rest : List T) (m : OrdMap Str Nat) :
    (∃ m', indexNames name i rest m = .ok m') ↔
      (rest.map name).Nodup ∧ ∀ e ∈ rest, m.find? (name e) = none := by
  induction rest generalizing i m with
  | nil => simp [indexNames]
  | cons e rest ih =>
      cases hseen : m.find? (name e) with
      | some k => simp [indexNames, hseen, raise]
      | none =>
          simp only [indexNames, hseen, Option.isSome_none, Bool.false_eq_true, if_false, ih,
            List.map_cons, List.nodup_cons, List.mem_map, List.mem_cons, forall_eq_or_imp,
            OrdMap.find?_insert, true_and]
          grind

theorem find?_indexNames {i : Nat} {rest : List T} {m m' : OrdMap Str Nat}
    (h : indexNames name i rest m = .ok m') (d : Str) :
    m'.find? d = if d ∈ rest.map name then some (i + (rest.map name).idxOf d) else m.find? d := by
  induction rest generalizing i m with
  | nil =>
      cases h
      simp
  | cons e rest ih =>
      rw [indexNames] at h
      split at h
      · cases h
      · rename_i hfresh
        have hnew := (indexNames_isOk_iff _ _ _ _).mp ⟨m', h⟩
        rw [ih h, OrdMap.find?_insert]
        by_cases hd : name e = d
        · subst hd
          have hnot : name e ∉ rest.map name := by
            intro hin
            obtain ⟨e', he', hname⟩ := List.mem_map.mp hin
            have := hnew.2 e' he'
            simp [hname] at this
          simp [hnot]
        · have hpos : (name e :: rest.map name).idxOf d = (rest.map name).idxOf d + 1 :=
            List.idxOf_cons_ne _ hd
          simp only [List.map_cons, List.mem_cons, Ne.symm hd, false_or, hpos, hd, if_false]
          split
          · congr 1
            omega
          · rfl

theorem checkDepends_eq_ok {e : T} {l : List Str} :
    checkDepends name nameIdx e l = .ok () ↔ ∀ d ∈ l, (nameIdx.find? d).isSome := by
  induction l with
  | nil => simp [checkDepends]
  | cons d rest ih =>
      cases hd : nameIdx.find? d <;> simp [checkDepends, hd, ih, raise]

theorem checkAllDepends_eq_ok {l : List T} :
    checkAllDepends name depends nameIdx l = .ok () ↔
      ∀ e ∈ l, ∀ d ∈ depends e, (nameIdx.find? d).isSome := by
  induction l with
  | nil => simp [checkAllDepends]
  | cons e rest ih => simp [checkAllDepends, checkDepends_eq_ok, ih]

/-! ## Positions and names -/

def DependsOn (name : T → Str) (depends : T → List Str) (entries : List T) (a b : Str) : Prop :=
  ∃ e ∈ entries, name e = a ∧ b ∈ depends e

structure Sortable (name : T → Str) (depends : T → List Str) (entries : List T) : Prop where
  nodup : (entries.map name).Nodup
  known : ∀ e ∈ entries, ∀ d ∈ depends e, d ∈ entries.map name
  acyclic : Acyclic (DependsOn name depends entries)

/-- What the first two loops establish. -/
structure Indexed (name : T → Str) (depends : T → List Str) (entries : List T)
    (nameIdx : OrdMap Str Nat) : Prop where
  position : ∀ i e, entries[i]? = some e → indexOf nameIdx (name e) = i
  known : ∀ e ∈ entries, ∀ d ∈ depends e, d ∈ entries.map name

theorem indexed_of_checks (hnames : indexNames name 0 entries .empty = .ok nameIdx)
    (hdeps : checkAllDepends name depends nameIdx entries = .ok ()) :
    (entries.map name).Nodup ∧ Indexed name depends entries nameIdx := by
  have hnodup := ((indexNames_isOk_iff _ _ _ _).mp ⟨nameIdx, hnames⟩).1
  refine ⟨hnodup, fun i e he => ?_, fun e he d hd => ?_⟩
  · obtain ⟨hi, rfl⟩ := List.getElem?_eq_some_iff.mp he
    have hin : name entries[i] ∈ entries.map name := List.mem_map_of_mem (List.getElem_mem hi)
    have hidx : (entries.map name).idxOf (name entries[i]) = i := by
      have := hnodup.idxOf_getElem i (by simpa using hi)
      simpa using this
    simp [indexOf, find?_indexNames hnames, hin, hidx]
  · have := checkAllDepends_eq_ok.mp hdeps e he d hd
    rw [find?_indexNames hnames] at this
    by_contra hnot
    simp [hnot] at this

/-- The positions that wait for each other are those of the names that depend on each other. -/
theorem mem_waitsFor_iff (h : Indexed name depends entries nameIdx) {i j : Nat} :
    j ∈ waitsFor depends nameIdx entries i ↔
      ∃ e e', entries[i]? = some e ∧ entries[j]? = some e' ∧ name e' ∈ depends e := by
  constructor
  · intro hj
    cases he : entries[i]? with
    | none => simp [waitsFor, he] at hj
    | some e =>
        simp only [waitsFor, he, Option.map_some, Option.getD_some, List.mem_map] at hj
        obtain ⟨d, hd, rfl⟩ := hj
        obtain ⟨e', he', rfl⟩ := List.mem_map.mp (h.known e (List.mem_of_getElem? he) d hd)
        obtain ⟨k, hk⟩ := List.mem_iff_getElem?.mp he'
        exact ⟨e, e', rfl, by rwa [h.position k e' hk], hd⟩
  · rintro ⟨e, e', he, he', hd⟩
    simp only [waitsFor, he, Option.map_some, Option.getD_some, List.mem_map]
    exact ⟨name e', hd, h.position j e' he'⟩

theorem acyclic_waitsFor_iff (h : Indexed name depends entries nameIdx) :
    Acyclic (fun i j => j ∈ waitsFor depends nameIdx entries i) ↔
      Acyclic (DependsOn name depends entries) := by
  constructor
  · intro hacyclic
    refine hacyclic.of_map (indexOf nameIdx) ?_
    rintro a b ⟨e, he, rfl, hb⟩
    obtain ⟨e', he', rfl⟩ := List.mem_map.mp (h.known e he b hb)
    obtain ⟨i, hi⟩ := List.mem_iff_getElem?.mp he
    obtain ⟨j, hj⟩ := List.mem_iff_getElem?.mp he'
    rw [h.position i e hi, h.position j e' hj]
    exact (mem_waitsFor_iff h).mpr ⟨e, e', hi, hj, hb⟩
  · intro hacyclic
    refine hacyclic.of_map (fun i => (entries[i]?.map name).getD []) ?_
    intro i j hij
    obtain ⟨e, e', he, he', hd⟩ := (mem_waitsFor_iff h).mp hij
    exact ⟨e, List.mem_of_getElem? he, by simp [he], by simpa [he'] using hd⟩

theorem filterMap_range_getElem? (l : List T) :
    (List.range l.length).filterMap (l[·]?) = l := by
  induction l with
  | nil => rfl
  | cons a rest ih =>
      rw [List.length_cons, List.range_succ_eq_map]
      simpa [List.filterMap_map, Function.comp_def] using ih

/-! ## The sort -/

theorem topoSort_of_indexed (hnames : indexNames name 0 entries .empty = .ok nameIdx)
    (hdeps : checkAllDepends name depends nameIdx entries = .ok ()) :
    (∃ sorted, topoSort name depends entries = .ok sorted ∧ sorted.Perm entries ∧
        InOrder (fun e e' => e' ∈ entries ∧ name e' ∈ depends e) sorted ∧
        Sortable name depends entries) ∨
      ((∃ message, topoSort name depends entries = .error message) ∧
        ¬Sortable name depends entries) := by
  obtain ⟨hnodup, hindexed⟩ := indexed_of_checks hnames hdeps
  obtain ⟨hinv, hqueue⟩ := inv_drain waits_buildGraph entries.length
    (inv_start depends nameIdx entries) (by simp)
  have hall := sorted_all_iff hinv hqueue (by
    intro i j hij
    obtain ⟨e, e', he, he', -⟩ := (mem_waitsFor_iff hindexed).mp hij
    exact ⟨(List.getElem?_eq_some_iff.mp he).1, (List.getElem?_eq_some_iff.mp he').1⟩)
  rw [acyclic_waitsFor_iff hindexed] at hall
  simp only [topoSort, hnames, hdeps, ok_bind]
  generalize drain _ _ _ = done at hinv hqueue hall ⊢
  by_cases hlength : done.sorted.length = entries.length
  · left
    refine ⟨_, if_neg (not_not.mpr hlength), ?_, ?_, hnodup, hindexed.known, hall.mp hlength⟩
    · have hsub : done.sorted ⊆ List.range entries.length := fun i hi =>
        List.mem_range.mpr ((hinv.ready i).mp (List.mem_append_left _ hi)).1
      have hperm : done.sorted.Perm (List.range entries.length) :=
        ((List.nodup_append.mp hinv.nodup).1.subperm hsub).perm_of_length_le (by simp [hlength])
      simpa [filterMap_range_getElem?] using hperm.filterMap (entries[·]?)
    · refine hinv.order.filterMap ?_
      rintro i e e' he ⟨he', hd⟩
      obtain ⟨j, hj⟩ := List.mem_iff_getElem?.mp he'
      exact ⟨j, hj, (mem_waitsFor_iff hindexed).mpr ⟨e, e', he, hj, hd⟩⟩
  · right
    exact ⟨⟨_, if_pos hlength⟩, fun hsortable => hlength (hall.mpr hsortable.acyclic)⟩

theorem topoSort_correct (name : T → Str) (depends : T → List Str) (entries : List T) :
    (Sortable name depends entries →
      ∃ sorted, topoSort name depends entries = .ok sorted ∧ sorted.Perm entries ∧
        InOrder (fun e e' => e' ∈ entries ∧ name e' ∈ depends e) sorted) ∧
      (¬Sortable name depends entries →
        ∃ message, topoSort name depends entries = .error message) := by
  cases hnames : indexNames name 0 entries .empty with
  | error message =>
      have hrejected : ¬Sortable name depends entries := by
        intro hsortable
        obtain ⟨m, hm⟩ := (indexNames_isOk_iff name 0 entries .empty).mpr
          ⟨hsortable.nodup, fun _ _ => rfl⟩
        rw [hnames] at hm
        cases hm
      exact ⟨fun hsortable => absurd hsortable hrejected,
        fun _ => ⟨message, by simp only [topoSort, hnames]; rfl⟩⟩
  | ok nameIdx =>
      cases hdeps : checkAllDepends name depends nameIdx entries with
      | error message =>
          have hrejected : ¬Sortable name depends entries := by
            intro hsortable
            have hok : checkAllDepends name depends nameIdx entries = .ok () := by
              refine checkAllDepends_eq_ok.mpr fun e he d hd => ?_
              rw [find?_indexNames hnames, if_pos (hsortable.known e he d hd)]
              rfl
            rw [hdeps] at hok
            cases hok
          exact ⟨fun hsortable => absurd hsortable hrejected,
            fun _ => ⟨message, by simp only [topoSort, hnames, hdeps, ok_bind]; rfl⟩⟩
      | ok _ =>
          rcases topoSort_of_indexed hnames hdeps with
            ⟨sorted, hsort, hperm, horder, hsortable⟩ | ⟨hthrow, hnot⟩
          · exact ⟨fun _ => ⟨sorted, hsort, hperm, horder⟩, fun hnot => absurd hsortable hnot⟩
          · exact ⟨fun hsortable => absurd hsortable hnot, fun _ => hthrow⟩

end Generic

example : topoSort StackEntry.name StackEntry.depends
    [⟨"web", ["db", "db"]⟩, ⟨"db", []⟩] = .ok [⟨"db", []⟩, ⟨"web", ["db", "db"]⟩] := by decide

end Crate.StackPure
