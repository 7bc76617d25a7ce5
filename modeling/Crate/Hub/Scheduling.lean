import Crate.Foundation.CNumber
import Crate.Foundation.Sort

/-!
# Placement recommendations of the hub

`hub/scheduling_pure.cpp`.  The least loaded reachable node is recommended,
except that a container stays where it is while its node has at most ten
percent more containers than the least loaded one.  Ten percent of a small
number is nothing in integer arithmetic, so between nodes with few containers a
container can be sent back and forth.
-/

namespace Crate.SchedulingPure

open Crate.Foundation

structure NodeView where
  name : Str
  host : Str := []
  reachable : Bool := false
  containerCount : UInt32 := 0
  deriving DecidableEq, Repr

structure Recommendation where
  targetName : Str := []
  targetHost : Str := []
  targetCount : UInt32 := 0
  runnerUpCount : UInt32 := 0
  confidence : Int := 0
  rationale : Str := []
  deriving DecidableEq, Repr

def kAntiFlapPercent : UInt32 := 10

/-- The comparator of the sort. -/
def lessLoaded (a b : NodeView) : Bool :=
  if a.containerCount ≠ b.containerCount then a.containerCount < b.containerCount
  else a.name < b.name

def tolerance (best : UInt32) : UInt32 := best + best * kAntiFlapPercent / 100

def countText (n : UInt32) : Str := decimal n.toNat

def keepOn (best cur : NodeView) : Recommendation where
  targetName := cur.name
  targetHost := cur.host
  targetCount := cur.containerCount
  runnerUpCount := best.containerCount
  confidence := 100
  rationale := "keep on '" ++ cur.name ++ "' (count " ++ countText cur.containerCount ++
    " within " ++ countText kAntiFlapPercent ++ "% of least-loaded '" ++ best.name ++
    "' count " ++ countText best.containerCount ++ ")"

def spreadConfidence (best runnerUp : UInt32) : Int :=
  if runnerUp = 0 then 50
  else if runnerUp ≤ best then 0
  else min 100 (((runnerUp.toNat : Int) - best.toNat) * 100 / runnerUp.toNat)

def placeOn (best : NodeView) (others : List NodeView) : Recommendation where
  targetName := best.name
  targetHost := best.host
  targetCount := best.containerCount
  runnerUpCount := (others.head?.map (·.containerCount)).getD best.containerCount
  confidence :=
    match others with
    | [] => 100
    | runnerUp :: _ => spreadConfidence best.containerCount runnerUp.containerCount
  rationale := "place on '" ++ best.name ++ "' (count " ++ countText best.containerCount ++
    (match others with
    | [] => ", sole reachable node"
    | runnerUp :: _ => " vs runner-up '" ++ runnerUp.name ++ "' count " ++
        countText runnerUp.containerCount) ++ ")"

def pickLeastLoaded (impl : StdSort) (nodes : List NodeView) (currentNodeHint : Str) :
    Recommendation :=
  match impl.sort lessLoaded (nodes.filter (·.reachable)) with
  | [] => { rationale := "no reachable nodes" }
  | best :: others =>
      -- an empty hint is no hint
      let cur := if currentNodeHint.isEmpty then none
        else (best :: others).find? (fun n => n.name = currentNodeHint)
      match cur with
      | none => placeOn best others
      | some cur =>
          if cur.containerCount ≤ tolerance best.containerCount then keepOn best cur
          else placeOn best others

/-- A node after a container has moved from `source` to `target`. -/
def moved (source target : Str) (n : NodeView) : NodeView :=
  if n.name = source then { n with containerCount := n.containerCount - 1 }
  else if n.name = target then { n with containerCount := n.containerCount + 1 }
  else n

/-- The nodes after a recommendation has been carried out. -/
def migrate (nodes : List NodeView) (source target : Str) : List NodeView :=
  nodes.map (moved source target)

/-! ## The node that is picked -/

def loadKey (n : NodeView) : Nat ×ₗ Str := toLex (n.containerCount.toNat, n.name)

theorem lessLoaded_eq : lessLoaded = fun a b => decide (loadKey a < loadKey b) := by
  funext a b
  rw [lessLoaded, Bool.eq_iff_iff, decide_eq_true_eq, loadKey, loadKey, Prod.Lex.toLex_lt_toLex]
  by_cases h : a.containerCount = b.containerCount
  · simp [h]
  · simp [h, UInt32.toNat_inj, UInt32.lt_iff_toNat_lt]

theorem strictWeak_lessLoaded : StrictWeak lessLoaded := by
  rw [lessLoaded_eq]
  exact StrictWeak.of_key loadKey

variable {impl : StdSort} {nodes : List NodeView} {hint : Str}

/-- A reachable node with the fewest containers, the first by name among several. -/
structure LeastLoaded (nodes : List NodeView) (best : NodeView) : Prop where
  mem : best ∈ nodes
  reachable : best.reachable = true
  least : ∀ n ∈ nodes, n.reachable = true → loadKey best ≤ loadKey n

theorem LeastLoaded.name_eq {best best' : NodeView} (h : LeastLoaded nodes best)
    (h' : LeastLoaded nodes best') : best.name = best'.name := by
  have hkey := le_antisymm (h.least best' h'.mem h'.reachable) (h'.least best h.mem h.reachable)
  exact congrArg (fun k => (ofLex k).2) hkey

theorem leastLoaded_of_sort {best : NodeView} {others : List NodeView}
    (h : impl.sort lessLoaded (nodes.filter (·.reachable)) = best :: others) :
    LeastLoaded nodes best := by
  have hmem : ∀ n, n ∈ best :: others ↔ n ∈ nodes ∧ n.reachable = true := by
    intro n
    rw [← h, impl.mem_sort strictWeak_lessLoaded, List.mem_filter]
  obtain ⟨hbest, hreach⟩ := (hmem best).mp (by simp)
  refine ⟨hbest, hreach, fun n hn hnreach => ?_⟩
  have hsorted := impl.sorted strictWeak_lessLoaded (nodes.filter (·.reachable))
  rw [h, List.pairwise_cons, lessLoaded_eq] at hsorted
  rcases List.mem_cons.mp ((hmem n).mpr ⟨hn, hnreach⟩) with rfl | hothers
  · exact le_rfl
  · simpa using hsorted.1 n hothers

/-- The hint names a reachable node close enough to the least loaded one to keep its container. -/
def StaysOn (nodes : List NodeView) (best : NodeView) (hint : Str) : Prop :=
  hint ≠ [] ∧ ∃ cur ∈ nodes, cur.reachable = true ∧ cur.name = hint ∧
    cur.containerCount ≤ tolerance best.containerCount

theorem eq_of_name_eq (hnodup : (nodes.map (·.name)).Nodup) {n m : NodeView} (hn : n ∈ nodes)
    (hm : m ∈ nodes) (h : n.name = m.name) : n = m :=
  List.inj_on_of_nodup_map hnodup hn hm h

/-- With distinct names: the target is the hint where it may stay, the least loaded node else. -/
theorem pickLeastLoaded_targetName (hnodup : (nodes.map (·.name)).Nodup)
    (hreach : ∃ n ∈ nodes, n.reachable = true) :
    ∃ best, LeastLoaded nodes best ∧
      (StaysOn nodes best hint → (pickLeastLoaded impl nodes hint).targetName = hint) ∧
      (¬StaysOn nodes best hint → (pickLeastLoaded impl nodes hint).targetName = best.name) := by
  have hmem : ∀ n, n ∈ impl.sort lessLoaded (nodes.filter (·.reachable)) ↔
      n ∈ nodes ∧ n.reachable = true := by
    intro n
    rw [impl.mem_sort strictWeak_lessLoaded, List.mem_filter]
  cases hsort : impl.sort lessLoaded (nodes.filter (·.reachable)) with
  | nil =>
      obtain ⟨n, hn⟩ := hreach
      rw [← hmem, hsort] at hn
      contradiction
  | cons best others =>
      rw [hsort] at hmem
      refine ⟨best, leastLoaded_of_sort hsort, ?_, ?_⟩
      · rintro ⟨hne, cur, hcur, hcurreach, hname, hwithin⟩
        obtain ⟨found, hfound⟩ : ∃ n, (best :: others).find? (fun n => n.name = hint) = some n :=
          Option.isSome_iff_exists.mp
            (List.find?_isSome.mpr ⟨cur, (hmem cur).mpr ⟨hcur, hcurreach⟩, by simp [hname]⟩)
        have hfoundname : found.name = hint := by simpa using List.find?_some hfound
        have hsame : found = cur :=
          eq_of_name_eq hnodup ((hmem found).mp (List.mem_of_find?_eq_some hfound)).1 hcur
            (hfoundname.trans hname.symm)
        simp [pickLeastLoaded, hsort, hne, hfound, hsame, hwithin, keepOn, hname]
      · intro hgo
        by_cases hne : hint = []
        · simp [pickLeastLoaded, hsort, hne, placeOn]
        · cases hfind : (best :: others).find? (fun n => n.name = hint) with
          | none => simp [pickLeastLoaded, hsort, hne, hfind, placeOn]
          | some cur =>
              obtain ⟨hcur, hcurreach⟩ := (hmem cur).mp (List.mem_of_find?_eq_some hfind)
              have hfar : ¬cur.containerCount ≤ tolerance best.containerCount := by
                intro hwithin
                exact hgo ⟨hne, cur, hcur, hcurreach, by simpa using List.find?_some hfind, hwithin⟩
              simp [pickLeastLoaded, hsort, hne, hfind, hfar, placeOn]

/-! ## After the move -/

variable {source target : Str}

/-- After the move the target is the least loaded node, or within the tolerance of it. -/
def Settled (nodes : List NodeView) (source target : Str) : Prop :=
  ∃ best, LeastLoaded (migrate nodes source target) best ∧
    (best.name = target ∨ StaysOn (migrate nodes source target) best target)

@[simp] theorem moved_name (n : NodeView) : (moved source target n).name = n.name := by
  unfold moved
  split
  · rfl
  · split <;> rfl

@[simp] theorem moved_reachable (n : NodeView) :
    (moved source target n).reachable = n.reachable := by
  unfold moved
  split
  · rfl
  · split <;> rfl

theorem names_migrate : (migrate nodes source target).map (·.name) = nodes.map (·.name) := by
  rw [migrate, List.map_map]
  exact List.map_congr_left fun n _ => moved_name n

theorem exists_reachable_migrate (h : ∃ n ∈ nodes, n.reachable = true) :
    ∃ n ∈ migrate nodes source target, n.reachable = true := by
  obtain ⟨n, hn, hreach⟩ := h
  exact ⟨_, List.mem_map_of_mem hn, (moved_reachable n).trans hreach⟩

theorem stays_iff_settled (hnodup : (nodes.map (·.name)).Nodup)
    (hreach : ∃ n ∈ nodes, n.reachable = true) :
    (pickLeastLoaded impl (migrate nodes source target) target).targetName = target ↔
      Settled nodes source target := by
  rw [← @names_migrate nodes source target] at hnodup
  obtain ⟨best, hbest, hstay, hgo⟩ :=
    @pickLeastLoaded_targetName impl _ target hnodup (exists_reachable_migrate hreach)
  constructor
  · intro h
    by_cases hon : StaysOn (migrate nodes source target) best target
    · exact ⟨best, hbest, .inr hon⟩
    · exact ⟨best, hbest, .inl ((hgo hon).symm.trans h)⟩
  · rintro ⟨best', hbest', h⟩
    have hsame : best' = best :=
      eq_of_name_eq hnodup hbest'.mem hbest.mem (hbest'.name_eq hbest)
    subst hsame
    by_cases hon : StaysOn (migrate nodes source target) best' target
    · exact hstay hon
    · rw [hgo hon]
      exact h.resolve_right hon

/-! ## In numbers -/

/-- The containers of a node other than the target after the move. -/
def countAfter (source : Str) (n : NodeView) : Nat :=
  if n.name = source then n.containerCount.toNat - 1 else n.containerCount.toNat

/-- Up to this count ten times the count fits 32 bits. -/
def unwrapped : Nat := 429496729

theorem toNat_tolerance {n : UInt32} (h : n.toNat ≤ unwrapped) :
    (tolerance n).toNat = n.toNat + n.toNat / 10 := by
  have hmul : (n * kAntiFlapPercent).toNat = n.toNat * 10 := by
    rw [UInt32.toNat_mul]
    simp only [kAntiFlapPercent, unwrapped, UInt32.reduceToNat] at h ⊢
    omega
  rw [tolerance, UInt32.toNat_add, UInt32.toNat_div, hmul]
  simp only [unwrapped, UInt32.reduceToNat] at h ⊢
  omega

theorem toNat_moved_target {n : NodeView} (hname : n.name = target) (hne : target ≠ source)
    (hcount : n.containerCount.toNat < unwrapped) :
    (moved source target n).containerCount.toNat = n.containerCount.toNat + 1 := by
  have hsource : n.name ≠ source := hname ▸ hne
  rw [moved, if_neg hsource, if_pos hname, UInt32.toNat_add]
  simp only [unwrapped, UInt32.reduceToNat] at hcount ⊢
  omega

theorem toNat_moved_of_ne {n : NodeView} (hname : n.name ≠ target)
    (hpos : n.name = source → 0 < n.containerCount.toNat) :
    (moved source target n).containerCount.toNat = countAfter source n := by
  unfold moved countAfter
  split
  · rename_i hsource
    have hle : (1 : UInt32) ≤ n.containerCount := by
      rw [UInt32.le_iff_toNat_le]
      exact hpos hsource
    rw [UInt32.toNat_sub_of_le _ _ hle]
    rfl
  · simp

section Numbers

variable {r s : NodeView} (hnodup : (nodes.map (·.name)).Nodup) (hr : LeastLoaded nodes r)
  (hs : s ∈ nodes) (hlt : r.containerCount.toNat < s.containerCount.toNat)
  (hbound : r.containerCount.toNat < unwrapped)

theorem count_le_of_loadKey_le {n m : NodeView} (h : loadKey n ≤ loadKey m) :
    n.containerCount.toNat ≤ m.containerCount.toNat := by
  rcases Prod.Lex.toLex_le_toLex.mp h with hlt | heq
  · exact hlt.le
  · exact heq.1.le

include hr hnodup hs hlt

theorem ne_of_count_lt : r.name ≠ s.name := by
  intro h
  have heq := eq_of_name_eq hnodup hr.mem hs h
  subst heq
  omega

/-- No other node has fewer containers after the move than the target had before. -/
theorem count_le_countAfter {n : NodeView} (hn : n ∈ nodes) (hreach : n.reachable = true) :
    r.containerCount.toNat ≤ countAfter s.name n := by
  have hle := count_le_of_loadKey_le (hr.least n hn hreach)
  unfold countAfter
  split
  · rename_i hname
    have := eq_of_name_eq hnodup hn hs hname
    subst this
    omega
  · exact hle

include hbound

theorem toNat_moved_cases (n : NodeView) (hn : n ∈ nodes) :
    n = r ∧ (moved s.name r.name n).containerCount.toNat = r.containerCount.toNat + 1 ∨
      n.name ≠ r.name ∧
        (moved s.name r.name n).containerCount.toNat = countAfter s.name n := by
  by_cases hname : n.name = r.name
  · have heq := eq_of_name_eq hnodup hn hr.mem hname
    subst heq
    exact .inl ⟨rfl, toNat_moved_target rfl (ne_of_count_lt hnodup hr hs hlt) hbound⟩
  · refine .inr ⟨hname, toNat_moved_of_ne hname fun hsource => ?_⟩
    have heq := eq_of_name_eq hnodup hn hs hsource
    subst heq
    omega

/-- The target keeps its new container where ten percent is one, or where it has fewest before. -/
theorem settled_iff (htarget : r.name ≠ []) :
    Settled nodes s.name r.name ↔
      10 ≤ r.containerCount.toNat ∨
        ∀ n ∈ nodes, n.reachable = true → n.name ≠ r.name →
          r.containerCount.toNat < countAfter s.name n := by
  have hcases := toNat_moved_cases hnodup hr hs hlt hbound
  have hself : (moved s.name r.name r).containerCount.toNat = r.containerCount.toNat + 1 := by
    rcases hcases r hr.mem with ⟨-, h⟩ | ⟨h, -⟩
    · exact h
    · exact absurd rfl h
  have hrange : ∀ best, LeastLoaded (migrate nodes s.name r.name) best →
      r.containerCount.toNat ≤ best.containerCount.toNat ∧
        best.containerCount.toNat ≤ r.containerCount.toNat + 1 := by
    intro best hbest
    have hle := count_le_of_loadKey_le (hbest.least _ (List.mem_map_of_mem hr.mem)
      ((moved_reachable r).trans hr.reachable))
    obtain ⟨n, hn, rfl⟩ := List.mem_map.mp hbest.mem
    have hreach : n.reachable = true := (moved_reachable n).symm.trans hbest.reachable
    have hafter := count_le_countAfter hnodup hr hs hlt hn hreach
    rcases hcases n hn with ⟨-, hcount⟩ | ⟨-, hcount⟩ <;> omega
  constructor
  · rintro ⟨best, hbest, hstay⟩
    by_contra hnot
    simp only [not_or, not_forall, not_le, not_lt, exists_prop] at hnot
    obtain ⟨hsmall, n, hn, hreach, hname, hafter⟩ := hnot
    have hle := count_le_of_loadKey_le (hbest.least _ (List.mem_map_of_mem hn)
      ((moved_reachable n).trans hreach))
    have hcount : (moved s.name r.name n).containerCount.toNat = countAfter s.name n := by
      rcases hcases n hn with ⟨rfl, -⟩ | ⟨-, h⟩
      · exact absurd rfl hname
      · exact h
    have hbestcount : best.containerCount.toNat = r.containerCount.toNat := by
      have := (hrange best hbest).1
      omega
    rcases hstay with hsame | ⟨-, cur, hcur, -, hcurname, hwithin⟩
    · obtain ⟨m, hm, rfl⟩ := List.mem_map.mp hbest.mem
      rw [moved_name] at hsame
      rcases hcases m hm with ⟨-, h⟩ | ⟨h, -⟩
      · omega
      · exact h hsame
    · obtain ⟨m, hm, rfl⟩ := List.mem_map.mp hcur
      rw [moved_name] at hcurname
      have hmr := eq_of_name_eq hnodup hm hr.mem hcurname
      rw [hmr, UInt32.le_iff_toNat_le, hself, toNat_tolerance (by omega), hbestcount] at hwithin
      omega
  · intro h
    have hreach : ∃ n ∈ nodes, n.reachable = true := ⟨r, hr.mem, hr.reachable⟩
    have hnodup' := hnodup
    rw [← @names_migrate nodes s.name r.name] at hnodup'
    obtain ⟨best, hbest, -⟩ := @pickLeastLoaded_targetName StdSort.insertionSort _ r.name hnodup'
      (exists_reachable_migrate hreach)
    obtain ⟨hlow, hhigh⟩ := hrange best hbest
    refine ⟨best, hbest, .inr ⟨htarget, moved s.name r.name r, List.mem_map_of_mem hr.mem,
      (moved_reachable r).trans hr.reachable, moved_name r, ?_⟩⟩
    rw [UInt32.le_iff_toNat_le, hself, toNat_tolerance (by omega)]
    rcases h with hten | hothers
    · omega
    · obtain ⟨n, hn, rfl⟩ := List.mem_map.mp hbest.mem
      have hnreach : n.reachable = true := (moved_reachable n).symm.trans hbest.reachable
      rcases hcases n hn with ⟨-, hcount⟩ | ⟨hname, hcount⟩
      · omega
      · have := hothers n hn hnreach hname
        omega

end Numbers

/-- A recommendation to leave a node means that the node has more containers than the target. -/
theorem count_lt_of_leaves {r s : NodeView} (hr : LeastLoaded nodes r) (hs : s ∈ nodes)
    (hreach : s.reachable = true) (hne : r.name ≠ s.name) (hgo : ¬StaysOn nodes r s.name)
    (hbound : r.containerCount.toNat < unwrapped) :
    r.containerCount.toNat < s.containerCount.toNat := by
  by_cases hname : s.name = []
  · rcases Prod.Lex.toLex_le_toLex.mp (hr.least s hs hreach) with hlt | ⟨-, hle⟩
    · exact hlt
    · rw [hname] at hle hne
      obtain ⟨c, rest, hcons⟩ := List.exists_cons_of_ne_nil hne
      rw [hcons] at hle
      exact absurd (List.nil_lt_cons c rest) (not_lt.mpr hle)
  · have hfar : ¬s.containerCount ≤ tolerance r.containerCount := by
      intro hwithin
      exact hgo ⟨hname, s, hs, hreach, rfl, hwithin⟩
    rw [UInt32.le_iff_toNat_le, toNat_tolerance hbound.le] at hfar
    omega

/--
A container that was moved as recommended stays exactly where the move settles
the load.  Below the counts whose tenfold wraps, that is: the target had ten
containers or more, or every other reachable node now has more than it had.
-/
theorem no_ping_pong_iff (impl : StdSort) (hnodup : (nodes.map (·.name)).Nodup) {s : NodeView}
    (hs : s ∈ nodes) (hreach : s.reachable = true) {target : Str}
    (htarget : (pickLeastLoaded impl nodes s.name).targetName = target) :
    ((target ≠ s.name →
        (pickLeastLoaded impl (migrate nodes s.name target) target).targetName = target) ↔
      (target ≠ s.name → Settled nodes s.name target)) ∧
    ∀ r ∈ nodes, r.name = target → target ≠ s.name → target ≠ [] →
      r.containerCount.toNat < unwrapped →
      (Settled nodes s.name target ↔
        10 ≤ r.containerCount.toNat ∨
          ∀ n ∈ nodes, n.reachable = true → n.name ≠ target →
            r.containerCount.toNat < countAfter s.name n) := by
  refine ⟨?_, ?_⟩
  · rw [stays_iff_settled hnodup ⟨s, hs, hreach⟩]
  · intro r hr hname hne hempty hbound
    obtain ⟨best, hbest, hstay, hgo⟩ :=
      @pickLeastLoaded_targetName impl nodes s.name hnodup ⟨s, hs, hreach⟩
    have hleave : ¬StaysOn nodes best s.name := fun hon => hne (htarget.symm.trans (hstay hon))
    have hsame : best = r :=
      eq_of_name_eq hnodup hbest.mem hr ((hgo hleave).symm.trans (htarget.trans hname.symm))
    subst hsame
    subst hname
    have hlt := count_lt_of_leaves hbest hs hreach hne hleave hbound
    exact settled_iff hnodup hbest hs hlt hbound hempty

/-- Two nodes that differ by one container. -/
def almostLevel : List NodeView :=
  [{ name := "alpha", reachable := true, containerCount := 1 },
    { name := "beta", reachable := true, containerCount := 0 }]

theorem container_sent_back :
    (almostLevel.map (·.name)).Nodup ∧
      (pickLeastLoaded .insertionSort almostLevel "alpha").targetName = "beta" ∧
      (pickLeastLoaded .insertionSort (migrate almostLevel "alpha" "beta") "beta").targetName =
        "alpha" := by
  refine ⟨by decide, by decide, by decide⟩

/-- Between larger nodes the same difference settles. -/
def busy : List NodeView :=
  [{ name := "alpha", reachable := true, containerCount := 20 },
    { name := "beta", reachable := true, containerCount := 12 }]

theorem busy_settles :
    (pickLeastLoaded .insertionSort busy "alpha").targetName = "beta" ∧
      (pickLeastLoaded .insertionSort (migrate busy "alpha" "beta") "beta").targetName = "beta" := by
  have hpick : (pickLeastLoaded .insertionSort busy "alpha").targetName = "beta" := by decide
  refine ⟨hpick, ?_⟩
  have hnodup : (busy.map (·.name)).Nodup := by decide
  have h := no_ping_pong_iff .insertionSort hnodup
    (s := { name := "alpha", reachable := true, containerCount := 20 }) (by decide) rfl hpick
  refine h.1.mpr (fun _ => ?_) (by decide)
  refine (h.2 { name := "beta", reachable := true, containerCount := 12 } (by decide) rfl
    (by decide) (by decide) (by decide)).mpr ?_
  left
  decide

end Crate.SchedulingPure
