import Crate.Registry.World

/-!
# Looking the owner of a path up

A path lookup answers from the entries as they are, without asking the probe:
it reports the owner of the entry with the longest covering path, and of the
lowest jid among equal paths.  This file compares that entry with the best one
among the jails that are live.
-/

namespace Crate.World

open Crate.Foundation
open Crate.JidOwnerRegistryPure (Entry EntryMap covers findOwnerLoop findOwnerByPath)

theorem covers_iff {p query : Str} :
    covers p query = true ↔ p ≠ [] ∧ AtOrBelow '/' query p := by
  simp [covers, atOrBelow_iff_take]

theorem eq_of_covers_of_length_eq {p p' query : Str} (h : covers p query = true)
    (h' : covers p' query = true) (hlen : p.length = p'.length) : p = p' := by
  have hp := (covers_iff.mp h).2.isPrefix
  have hp' := (covers_iff.mp h').2.isPrefix
  exact (List.prefix_of_prefix_length_le hp hp' hlen.le).eq_of_length hlen

/-! ## The search loop -/

/-- `a` is at least as good a match as `b`. -/
def Outranks (a b : Nat × Entry) : Prop :=
  b.2.path.length < a.2.path.length ∨ b.2.path.length = a.2.path.length ∧ a.1 ≤ b.1

/-- What the loop has found among the entries it has seen. -/
def BestSoFar (query : Str) (seen : List (Nat × Entry)) : Option (Nat × Entry) → Prop
  | none => ∀ kv ∈ seen, covers kv.2.path query = false
  | some best => best ∈ seen ∧ covers best.2.path query = true ∧
      ∀ kv ∈ seen, covers kv.2.path query = true → Outranks best kv

section Loop

variable {query : Str} {seen : List (Nat × Entry)} {kv : Nat × Entry}

private theorem bestSoFar_skip {best : Option (Nat × Entry)} (h : BestSoFar query seen best)
    (hkv : covers kv.2.path query = false) : BestSoFar query (seen ++ [kv]) best := by
  cases best with
  | none =>
      intro x hx
      rcases List.mem_append.mp hx with hx | hx
      · exact h x hx
      · rw [List.mem_singleton.mp hx]
        exact hkv
  | some best =>
      obtain ⟨hmem, hcov, hbest⟩ := h
      refine ⟨List.mem_append_left _ hmem, hcov, fun x hx hxcov => ?_⟩
      rcases List.mem_append.mp hx with hx | hx
      · exact hbest x hx hxcov
      · rw [List.mem_singleton.mp hx, hkv] at hxcov
        contradiction

private theorem bestSoFar_take (hkv : covers kv.2.path query = true)
    (hall : ∀ x ∈ seen, covers x.2.path query = true → Outranks kv x) :
    BestSoFar query (seen ++ [kv]) (some kv) := by
  refine ⟨by simp, hkv, fun x hx hxcov => ?_⟩
  rcases List.mem_append.mp hx with hx | hx
  · exact hall x hx hxcov
  · rw [List.mem_singleton.mp hx]
    exact .inr ⟨rfl, le_refl _⟩

theorem findOwnerLoop_bestSoFar (query : Str) (seen l : List (Nat × Entry))
    (best : Option (Nat × Entry)) (hsorted : (seen ++ l).Pairwise (fun a b => a.1 < b.1))
    (h : BestSoFar query seen best) :
    BestSoFar query (seen ++ l) (findOwnerLoop query l best) := by
  induction l generalizing seen best with
  | nil => simpa [findOwnerLoop] using h
  | cons kv rest ih =>
      have happ : seen ++ kv :: rest = (seen ++ [kv]) ++ rest := by simp
      rw [happ] at hsorted ⊢
      simp only [findOwnerLoop]
      by_cases hkv : covers kv.2.path query = true
      · simp only [hkv, Bool.not_true, Bool.false_eq_true, if_false]
        cases best with
        | none =>
            apply ih _ _ hsorted
            apply bestSoFar_take hkv
            intro x hx hxcov
            rw [h x hx] at hxcov
            contradiction
        | some best =>
            obtain ⟨hmem, hcov, hbest⟩ := h
            by_cases hlonger : kv.2.path.length > best.2.path.length
            · simp only [hlonger, if_true]
              apply ih _ _ hsorted
              apply bestSoFar_take hkv
              intro x hx hxcov
              have := hbest x hx hxcov
              left
              rcases this with hlt | ⟨heq, _⟩ <;> omega
            · simp only [hlonger, if_false]
              apply ih _ _ hsorted
              refine ⟨List.mem_append_left _ hmem, hcov, fun x hx hxcov => ?_⟩
              rcases List.mem_append.mp hx with hx | hx
              · exact hbest x hx hxcov
              · rw [List.mem_singleton.mp hx]
                have hseen := (List.pairwise_append.mp hsorted).1
                have hlt := (List.pairwise_append.mp hseen).2.2 best hmem kv (by simp)
                unfold Outranks
                omega
      · rw [Bool.not_eq_true] at hkv
        simp only [hkv, Bool.not_false, if_true]
        exact ih _ _ hsorted (bestSoFar_skip h hkv)

end Loop

/-! ## The entry a lookup answers from -/

/-- The entry with the longest covering path, and the lowest jid among equal paths. -/
structure BestCover (entries : EntryMap) (query : Str) (jid : Nat) (e : Entry) : Prop where
  entry : entries.find? jid = some e
  covers : covers e.path query = true
  best : ∀ j e', entries.find? j = some e' → JidOwnerRegistryPure.covers e'.path query = true →
    Outranks (jid, e) (j, e')

theorem exists_bestCover {entries : EntryMap} (query : Str) {j : Nat} {e' : Entry}
    (hentry : entries.find? j = some e') (hcov : covers e'.path query = true) :
    ∃ jid e, findOwnerByPath entries query = some (jid, e) ∧
      BestCover entries query jid e := by
  have hbest := findOwnerLoop_bestSoFar query [] entries.entries none entries.sorted
    (by simp [BestSoFar])
  rw [List.nil_append] at hbest
  cases hfound : findOwnerByPath entries query with
  | none =>
      rw [findOwnerByPath] at hfound
      rw [hfound] at hbest
      rw [hbest _ (OrdMap.find?_eq_some_iff.mp hentry)] at hcov
      contradiction
  | some found =>
      rw [findOwnerByPath] at hfound
      rw [hfound] at hbest
      obtain ⟨hmem, hcovers, hall⟩ := hbest
      refine ⟨found.1, found.2, rfl, OrdMap.find?_eq_some_iff.mpr hmem, hcovers, ?_⟩
      intro j e' hj hjcov
      exact hall _ (OrdMap.find?_eq_some_iff.mp hj) hjcov

def liveEntries (w : World) : EntryMap := w.reg.entries.filter w.probe

theorem find?_liveEntries {w : World} {jid : Nat} {e : Entry} :
    w.liveEntries.find? jid = some e ↔ w.LiveEntry jid e := by
  simp [liveEntries, OrdMap.mem_filter, LiveEntry, probe]

/-- A better match than the best live one is a leftover with a longer path or a lower jid. -/
theorem BestCover.live_or_leftover {w : World} {query : Str} {jid jid' : Nat} {e e' : Entry}
    (hlive : BestCover w.liveEntries query jid e)
    (hall : BestCover w.reg.entries query jid' e') :
    (jid' = jid ∧ e' = e) ∨
      (¬w.LiveEntry jid' e' ∧
        (e.path.length < e'.path.length ∨ e'.path = e.path ∧ jid' < jid)) := by
  have hentry := (find?_liveEntries.mp hlive.entry).1
  have hrank := hall.best jid e hentry hlive.covers
  by_cases hrun : w.LiveEntry jid' e'
  · left
    have hback := hlive.best jid' e' (find?_liveEntries.mpr hrun) hall.covers
    have hjid : jid' = jid := by
      unfold Outranks at hrank hback
      simp only at hrank hback
      omega
    subst hjid
    rw [hall.entry, Option.some.injEq] at hentry
    exact ⟨rfl, hentry⟩
  · right
    refine ⟨hrun, ?_⟩
    rcases hrank with hlt | ⟨hlen, hle⟩
    · exact .inl hlt
    · right
      refine ⟨eq_of_covers_of_length_eq hall.covers hlive.covers hlen.symm, ?_⟩
      refine lt_of_le_of_ne hle ?_
      rintro rfl
      rw [hall.entry, Option.some.injEq] at hentry
      exact hrun (hentry ▸ find?_liveEntries.mp hlive.entry)

/--
In every state of every run, if a registered live jail covers the path, the
lookup reports the owner of the best covering entry; that is the best live
jail, unless the leftover of a dead one covers the path with a longer path, or
with the same path and a lower jid.
-/
theorem lookupByPath_run (w₀ : World) (actions : List Action) {query : Str} {j : Nat}
    {e₀ : Entry} (hlive : (run step w₀ actions).LiveEntry j e₀)
    (hcov : covers e₀.path query = true) :
    ∃ jid e jid' e',
      BestCover (run step w₀ actions).liveEntries query jid e ∧
      BestCover (run step w₀ actions).reg.entries query jid' e' ∧
      (run step w₀ actions).reg.lookupByPath query = { known := true, uid := e'.uid } ∧
      ((jid' = jid ∧ e' = e) ∨
        (¬(run step w₀ actions).LiveEntry jid' e' ∧
          (e.path.length < e'.path.length ∨ e'.path = e.path ∧ jid' < jid))) := by
  obtain ⟨jid, e, _, hbestLive⟩ := exists_bestCover query (find?_liveEntries.mpr hlive) hcov
  obtain ⟨jid', e', hfound, hbest⟩ := exists_bestCover query hlive.1 hcov
  refine ⟨jid, e, jid', e', hbestLive, hbest, ?_, hbestLive.live_or_leftover hbest⟩
  simp [JidOwnerRegistry.lookupByPath, hfound]

/-- A jail inside the tree of another one, and a leftover above both. -/
def nestedActions : List Action :=
  [.appear 3 "old", .recordCreate 3 1002 "old" "/jails", .die 3, .appear 5 "web",
    .recordCreate 5 1000 "web" "/jails/web", .appear 9 "api",
    .recordCreate 9 1001 "api" "/jails/web/api"]

theorem nestedActions_live : (run step initial nestedActions).LiveEntry 5
    { uid := 1000, name := "web", path := "/jails/web" } := by
  unfold LiveEntry
  decide

theorem lookupByPath_nested :
    (run step initial nestedActions).reg.lookupByPath "/jails/web/api/etc" =
        { known := true, uid := 1001 } ∧
      ∃ jid e jid' e',
        BestCover (run step initial nestedActions).liveEntries "/jails/web/api/etc" jid e ∧
        BestCover (run step initial nestedActions).reg.entries "/jails/web/api/etc" jid' e' ∧
        (run step initial nestedActions).reg.lookupByPath "/jails/web/api/etc" =
          { known := true, uid := e'.uid } ∧
        ((jid' = jid ∧ e' = e) ∨
          (¬(run step initial nestedActions).LiveEntry jid' e' ∧
            (e.path.length < e'.path.length ∨ e'.path = e.path ∧ jid' < jid))) :=
  ⟨by decide, lookupByPath_run initial nestedActions nestedActions_live (by decide)⟩

def reuseActions : List Action :=
  [.appear 5 "web", .recordCreate 5 1000 "web" "/jails/web", .die 5, .appear 9 "api",
    .recordCreate 9 1001 "api" "/jails/web"]

theorem leftover_owns_reused_path :
    (run step initial reuseActions).LiveEntry 9
        { uid := 1001, name := "api", path := "/jails/web" } ∧
      BestCover (run step initial reuseActions).liveEntries "/jails/web/etc" 9
        { uid := 1001, name := "api", path := "/jails/web" } ∧
      (run step initial reuseActions).reg.lookupByPath "/jails/web/etc" =
        { known := true, uid := 1000 } := by
  have hlive : (run step initial reuseActions).LiveEntry 9
      { uid := 1001, name := "api", path := "/jails/web" } := by
    unfold LiveEntry
    decide
  refine ⟨hlive, ?_, by decide⟩
  have hfound : findOwnerByPath (run step initial reuseActions).liveEntries "/jails/web/etc" =
      some (9, { uid := 1001, name := "api", path := "/jails/web" }) := by
    decide
  obtain ⟨jid, e, hfound', hbest⟩ :=
    exists_bestCover "/jails/web/etc" (find?_liveEntries.mpr hlive)
      (by decide)
  rw [hfound, Option.some.injEq, Prod.mk.injEq] at hfound'
  obtain ⟨rfl, rfl⟩ := hfound'
  exact hbest

end Crate.World
