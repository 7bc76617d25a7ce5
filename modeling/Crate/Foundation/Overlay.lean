import Crate.Foundation.OrdMap

/-!
# Overlays

Laying one value over another, for the kinds of values a layered configuration
has: a later value that is set replaces an earlier one, lists are appended or
merged by a key, maps and maps of maps are written over each other.  Each of
these merges is associative and has a value that changes nothing when it is
laid over another.  Laying a value over that one gives it back only where it is
in a normal form, and the lemmas state which.
-/

namespace Crate.Foundation

/-- A merge of layers: grouping does not matter, and `unit` over a layer is the layer. -/
structure IsOverlay {α : Type} (merge : α → α → α) (unit : α) : Prop where
  right_unit : ∀ a, merge a unit = a
  assoc : ∀ a b c, merge (merge a b) c = merge a (merge b c)

theorem isOverlay_append {α : Type} : IsOverlay (fun a b : List α => a ++ b) [] :=
  ⟨List.append_nil, List.append_assoc⟩

theorem isOverlay_or : IsOverlay or false :=
  ⟨Bool.or_false, Bool.or_assoc⟩

theorem isOverlay_and : IsOverlay and true :=
  ⟨Bool.and_true, Bool.and_assoc⟩

theorem isOverlay_union {κ β : Type} [LinearOrder κ] :
    IsOverlay (fun a b : OrdMap κ β => a.union b) .empty :=
  ⟨OrdMap.union_empty, OrdMap.union_assoc⟩

/-! ## Values that may be set -/

section Override

variable {α : Type} (isSet : α → Bool)

/-- The overlay where it is set, and the base otherwise. -/
def overrideIf (base overlay : α) : α := if isSet overlay then overlay else base

theorem isOverlay_overrideIf {unit : α} (h : isSet unit = false) :
    IsOverlay (overrideIf isSet) unit where
  right_unit a := by simp [overrideIf, h]
  assoc a b c := by
    unfold overrideIf
    by_cases hc : isSet c = true
    · simp [hc]
    · simp [hc]

theorem overrideIf_left_unit_iff {unit a : α} :
    overrideIf isSet unit a = a ↔ isSet a = true ∨ unit = a := by
  unfold overrideIf
  split
  · simp_all
  · simp_all

/-- A value that is taken over with a flag: the flags are collected, grouping does not matter. -/
theorem flagged_assoc (a b c : α) (setB setC : Bool) :
    (if setC then c else if setB then b else a) =
      if setB || setC then (if setC then c else b) else a := by
  cases setB <;> cases setC <;> rfl

theorem flagged_left_unit_iff {unit a : α} {set : Bool} :
    (if set then a else unit) = a ↔ (set = false → a = unit) := by
  cases set
  · simp [eq_comm]
  · simp

end Override

/-! ## Lists with a key -/

section Keyed

variable {α κ : Type} [DecidableEq κ] (key : α → κ)

def replaceKey (v : α) (t : α) : α := if key t = key v then v else t

/-- Replace the elements of a key, or append an element of a new key. -/
def putKeyed (l : List α) (v : α) : List α :=
  if l.any (fun t => key t = key v) then l.map (replaceKey key v) else l ++ [v]

def mergeKeyed (base overlay : List α) : List α := overlay.foldl (putKeyed key) base

variable {key}

theorem key_replaceKey (v t : α) : key (replaceKey key v t) = key t := by
  unfold replaceKey
  split
  · rename_i h
    exact h.symm
  · rfl

theorem any_key_eq_true {l : List α} {v : α} :
    l.any (fun t => key t = key v) = true ↔ key v ∈ l.map key := by
  simp only [List.any_eq_true, decide_eq_true_eq, List.mem_map]

theorem map_replaceKey_of_not_mem {l : List α} {v : α} (h : key v ∉ l.map key) :
    l.map (replaceKey key v) = l := by
  have hkeep : ∀ t ∈ l, replaceKey key v t = id t := by
    intro t ht
    refine if_neg fun heq => h ?_
    rw [← heq]
    exact List.mem_map_of_mem ht
  rw [List.map_congr_left hkeep, List.map_id]

theorem map_replaceKey_idem (l : List α) (v : α) :
    (l.map (replaceKey key v)).map (replaceKey key v) = l.map (replaceKey key v) := by
  rw [List.map_map]
  refine List.map_congr_left fun t _ => ?_
  simp only [Function.comp, replaceKey]
  split <;> simp_all

theorem map_key_map_replaceKey (l : List α) (v : α) :
    (l.map (replaceKey key v)).map key = l.map key := by
  rw [List.map_map]
  exact List.map_congr_left fun t _ => key_replaceKey v t

theorem putKeyed_of_mem {l : List α} {v : α} (h : key v ∈ l.map key) :
    putKeyed key l v = l.map (replaceKey key v) := if_pos (any_key_eq_true.mpr h)

theorem putKeyed_of_not_mem {l : List α} {v : α} (h : key v ∉ l.map key) :
    putKeyed key l v = l ++ [v] := if_neg (mt any_key_eq_true.mp h)

theorem map_key_putKeyed (l : List α) (v : α) :
    (putKeyed key l v).map key = if key v ∈ l.map key then l.map key else l.map key ++ [key v] := by
  split
  · rename_i h
    rw [putKeyed_of_mem h, map_key_map_replaceKey]
  · rename_i h
    rw [putKeyed_of_not_mem h, List.map_append, List.map_singleton]

/-- Replacing before or after an element is put in is the same for an element of another key. -/
theorem map_replaceKey_putKeyed {x v : α} (hne : key x ≠ key v) (l : List α) :
    (putKeyed key l x).map (replaceKey key v) = putKeyed key (l.map (replaceKey key v)) x := by
  by_cases hx : key x ∈ l.map key
  · rw [putKeyed_of_mem hx, putKeyed_of_mem (by rwa [map_key_map_replaceKey]), List.map_map,
      List.map_map]
    refine List.map_congr_left fun t _ => ?_
    simp only [Function.comp, replaceKey]
    by_cases htx : key t = key x
    · simp [htx, hne]
    · by_cases htv : key t = key v
      · simp [htv, hne.symm]
      · simp [htx, htv]
  · rw [putKeyed_of_not_mem hx, putKeyed_of_not_mem (by rwa [map_key_map_replaceKey]),
      List.map_append, List.map_singleton]
    simp [replaceKey, hne]

theorem replaceKey_of_eq {x v : α} (h : key x = key v) : replaceKey key v x = v := if_pos h

theorem replaceKey_of_ne {x v : α} (h : key x ≠ key v) : replaceKey key v x = x := if_neg h

theorem map_replaceKey_putKeyed_of_eq {x v : α} (heq : key x = key v) (l : List α) :
    (putKeyed key l x).map (replaceKey key v) = putKeyed key l v := by
  by_cases hx : key x ∈ l.map key
  · rw [putKeyed_of_mem hx, putKeyed_of_mem (heq ▸ hx), List.map_map]
    refine List.map_congr_left fun t _ => ?_
    simp only [Function.comp, replaceKey, heq]
    split <;> simp_all
  · have hv : key v ∉ l.map key := heq ▸ hx
    rw [putKeyed_of_not_mem hx, putKeyed_of_not_mem hv, List.map_append,
      map_replaceKey_of_not_mem hv, List.map_singleton, replaceKey_of_eq heq]

theorem putKeyed_map_replaceKey (l : List α) (v : α) :
    putKeyed key (l.map (replaceKey key v)) v = putKeyed key l v := by
  by_cases hv : key v ∈ l.map key
  · rw [putKeyed_of_mem hv, putKeyed_of_mem (by rwa [map_key_map_replaceKey]),
      map_replaceKey_idem]
  · rw [map_replaceKey_of_not_mem hv]

theorem map_replaceKey_mergeKeyed (a b : List α) (v : α) :
    (mergeKeyed key a b).map (replaceKey key v) =
      mergeKeyed key (a.map (replaceKey key v)) (b.map (replaceKey key v)) := by
  induction b generalizing a with
  | nil => rfl
  | cons x b ih =>
      have hput : (putKeyed key a x).map (replaceKey key v) =
          putKeyed key (a.map (replaceKey key v)) (replaceKey key v x) := by
        by_cases heq : key x = key v
        · rw [replaceKey_of_eq heq, map_replaceKey_putKeyed_of_eq heq, putKeyed_map_replaceKey]
        · rw [replaceKey_of_ne heq, map_replaceKey_putKeyed heq]
      calc (mergeKeyed key a (x :: b)).map (replaceKey key v)
          = (mergeKeyed key (putKeyed key a x) b).map (replaceKey key v) := rfl
        _ = mergeKeyed key ((putKeyed key a x).map (replaceKey key v))
              (b.map (replaceKey key v)) := ih _
        _ = mergeKeyed key (a.map (replaceKey key v)) ((x :: b).map (replaceKey key v)) := by
              rw [hput]
              rfl

/-- An overlay that has the key of `v` leaves nothing of the base under this key. -/
theorem mergeKeyed_map_replaceKey {b : List α} {v : α} (h : key v ∈ b.map key) (a : List α) :
    mergeKeyed key a (b.map (replaceKey key v)) =
      (mergeKeyed key a b).map (replaceKey key v) := by
  induction b generalizing a with
  | nil => exact absurd h List.not_mem_nil
  | cons x b ih =>
      change mergeKeyed key (putKeyed key a (replaceKey key v x)) (b.map (replaceKey key v)) =
        (mergeKeyed key (putKeyed key a x) b).map (replaceKey key v)
      by_cases heq : key x = key v
      · rw [replaceKey_of_eq heq, map_replaceKey_mergeKeyed, map_replaceKey_putKeyed_of_eq heq]
      · rw [replaceKey_of_ne heq]
        refine ih ?_ _
        rw [List.map_cons, List.mem_cons] at h
        exact h.resolve_left (Ne.symm heq)

theorem mem_map_key_mergeKeyed (a b : List α) (k : κ) :
    k ∈ (mergeKeyed key a b).map key ↔ k ∈ a.map key ∨ k ∈ b.map key := by
  induction b generalizing a with
  | nil => simp [mergeKeyed]
  | cons x b ih =>
      change k ∈ (mergeKeyed key (putKeyed key a x) b).map key ↔ _
      rw [ih, map_key_putKeyed, List.map_cons, List.mem_cons]
      split
      · rename_i hx
        constructor
        · exact fun h => h.imp_right .inr
        · rintro (h | rfl | h)
          · exact .inl h
          · exact .inl hx
          · exact .inr h
      · rw [List.mem_append, List.mem_singleton, or_assoc]

theorem mergeKeyed_putKeyed (a b : List α) (v : α) :
    mergeKeyed key a (putKeyed key b v) = putKeyed key (mergeKeyed key a b) v := by
  by_cases hv : key v ∈ b.map key
  · rw [putKeyed_of_mem hv, mergeKeyed_map_replaceKey hv, putKeyed_of_mem]
    exact (mem_map_key_mergeKeyed a b _).mpr (.inr hv)
  · rw [putKeyed_of_not_mem hv]
    exact List.foldl_concat ..

theorem isOverlay_mergeKeyed : IsOverlay (mergeKeyed key) [] where
  right_unit _ := rfl
  assoc a b c := by
    induction c using List.reverseRecOn with
    | nil => rfl
    | append_singleton c v ih =>
        have hsnoc : ∀ l : List α, mergeKeyed key l (c ++ [v]) =
            putKeyed key (mergeKeyed key l c) v := fun l => List.foldl_concat ..
        rw [hsnoc, hsnoc, mergeKeyed_putKeyed, ih]

theorem nodup_mergeKeyed {base : List α} (h : (base.map key).Nodup) (overlay : List α) :
    ((mergeKeyed key base overlay).map key).Nodup := by
  induction overlay generalizing base with
  | nil => exact h
  | cons x overlay ih =>
      change ((mergeKeyed key (putKeyed key base x) overlay).map key).Nodup
      refine ih ?_
      rw [map_key_putKeyed]
      split
      · exact h
      · rename_i hx
        rw [← List.concat_eq_append]
        exact h.concat hx

theorem mergeKeyed_of_nodup {base overlay : List α} (h : ((base ++ overlay).map key).Nodup) :
    mergeKeyed key base overlay = base ++ overlay := by
  induction overlay generalizing base with
  | nil => exact (List.append_nil base).symm
  | cons x overlay ih =>
      have hx : key x ∉ base.map key := by
        rw [List.map_append, List.map_cons, List.nodup_append] at h
        intro hmem
        exact h.2.2 _ hmem _ List.mem_cons_self rfl
      change mergeKeyed key (putKeyed key base x) overlay = _
      rw [putKeyed_of_not_mem hx, ih (by simpa using h), List.append_assoc, List.singleton_append]

theorem mergeKeyed_left_unit_iff {a : List α} :
    mergeKeyed key [] a = a ↔ (a.map key).Nodup := by
  constructor
  · intro h
    rw [← h]
    exact nodup_mergeKeyed (by simp) a
  · intro h
    exact mergeKeyed_of_nodup (by simpa using h)

end Keyed

/-! ## Maps of maps -/

section Nested

variable {κ ι β : Type} [LinearOrder κ] [LinearOrder ι]

/-- `m[key][inner] = value`. -/
def setInner (m : OrdMap κ (OrdMap ι β)) (key : κ) (inner : ι) (value : β) :
    OrdMap κ (OrdMap ι β) :=
  m.insert key (((m.find? key).getD .empty).insert inner value)

def setInners (m : OrdMap κ (OrdMap ι β)) (key : κ) (l : List (ι × β)) : OrdMap κ (OrdMap ι β) :=
  l.foldl (fun m kv => setInner m key kv.1 kv.2) m

/-- Set the bindings of every inner map of the overlay. -/
def mergeNested (base overlay : OrdMap κ (OrdMap ι β)) : OrdMap κ (OrdMap ι β) :=
  overlay.entries.foldl (fun m outer => setInners m outer.1 outer.2.entries) base

/-- An inner map written over what a key had, where it has a binding at all. -/
def overInner (old new : Option (OrdMap ι β)) : Option (OrdMap ι β) :=
  match new with
  | none => old
  | some m => if m.entries.isEmpty then old else some ((old.getD .empty).union m)

theorem find?_setInners_ne {key k : κ} (h : key ≠ k) (l : List (ι × β))
    (m : OrdMap κ (OrdMap ι β)) : (setInners m key l).find? k = m.find? k := by
  induction l generalizing m with
  | nil => rfl
  | cons kv l ih =>
      rw [setInners, List.foldl_cons, ← setInners, ih, setInner, OrdMap.find?_insert_ne h]

theorem find?_setInners_self (key : κ) (l : List (ι × β)) (m : OrdMap κ (OrdMap ι β)) :
    (setInners m key l).find? key =
      if l.isEmpty then m.find? key
      else some (l.foldl (fun acc kv => acc.insert kv.1 kv.2) ((m.find? key).getD .empty)) := by
  induction l generalizing m with
  | nil => rfl
  | cons kv l ih =>
      rw [setInners, List.foldl_cons, ← setInners, ih]
      cases l with
      | nil => simp [setInner]
      | cons kv' l => simp [setInner]

theorem find?_mergeNested (base overlay : OrdMap κ (OrdMap ι β)) (k : κ) :
    (mergeNested base overlay).find? k = overInner (base.find? k) (overlay.find? k) := by
  -- Over the sorted sections: the section of `k` is written once, the others do not matter.
  have hlist : ∀ (l : List (κ × OrdMap ι β)), l.Pairwise (fun a b => a.1 < b.1) →
      ∀ m : OrdMap κ (OrdMap ι β),
        (l.foldl (fun m outer => setInners m outer.1 outer.2.entries) m).find? k =
          overInner (m.find? k) ((l.find? (fun outer => outer.1 = k)).map Prod.snd) := by
    intro l hsorted
    induction l with
    | nil => exact fun m => rfl
    | cons outer l ih =>
        intro m
        obtain ⟨hhead, htail⟩ := List.pairwise_cons.mp hsorted
        rw [List.foldl_cons, ih htail]
        by_cases hk : outer.1 = k
        · have hrest : l.find? (fun outer => outer.1 = k) = none := by
            rw [List.find?_eq_none]
            intro x hx
            simpa using ne_of_gt (hk ▸ hhead x hx)
          rw [hrest, List.find?_cons_of_pos (by simpa using hk), ← hk, find?_setInners_self]
          rfl
        · rw [find?_setInners_ne hk, List.find?_cons_of_neg (by simpa using hk)]
  exact hlist overlay.entries overlay.sorted base

theorem isEmpty_entries_iff {m : OrdMap ι β} : m.entries.isEmpty = true ↔ m = .empty := by
  rw [List.isEmpty_iff]
  constructor
  · intro h
    cases m
    simp only at h
    subst h
    rfl
  · rintro rfl
    rfl

theorem union_ne_empty {m : OrdMap ι β} (h : m ≠ .empty) (old : OrdMap ι β) :
    old.union m ≠ .empty := by
  intro hunion
  refine h (OrdMap.ext_find? fun key => ?_)
  have hnone : (old.union m).find? key = none := by
    rw [hunion, OrdMap.find?_empty]
  rw [OrdMap.find?_union, Option.or_eq_none_iff] at hnone
  rw [hnone.1, OrdMap.find?_empty]

theorem overInner_of_ne_empty {m : OrdMap ι β} (h : m ≠ .empty) (old : Option (OrdMap ι β)) :
    overInner old (some m) = some ((old.getD .empty).union m) :=
  if_neg (mt isEmpty_entries_iff.mp h)

theorem getD_overInner (old new : Option (OrdMap ι β)) :
    (overInner old new).getD .empty = (old.getD .empty).union (new.getD .empty) := by
  cases new with
  | none => rfl
  | some m =>
      by_cases h : m = .empty
      · subst h
        rfl
      · rw [overInner_of_ne_empty h, Option.getD_some, Option.getD_some]

theorem overInner_assoc (a b c : Option (OrdMap ι β)) :
    overInner (overInner a b) c = overInner a (overInner b c) := by
  cases c with
  | none => rfl
  | some m =>
      by_cases h : m = .empty
      · subst h
        rfl
      · rw [overInner_of_ne_empty h, overInner_of_ne_empty h, getD_overInner,
          overInner_of_ne_empty (union_ne_empty h _), OrdMap.union_assoc]

theorem isOverlay_mergeNested :
    IsOverlay (mergeNested : OrdMap κ (OrdMap ι β) → _) .empty where
  right_unit _ := rfl
  assoc a b c := by
    apply OrdMap.ext_find?
    intro k
    simp only [find?_mergeNested, overInner_assoc]

theorem mergeNested_left_unit_iff {a : OrdMap κ (OrdMap ι β)} :
    mergeNested .empty a = a ↔ ∀ k m, a.find? k = some m → m ≠ .empty := by
  constructor
  · rintro h k m hm rfl
    have hfind := find?_mergeNested .empty a k
    rw [h, hm, OrdMap.find?_empty] at hfind
    exact absurd hfind (Option.some_ne_none _)
  · intro h
    apply OrdMap.ext_find?
    intro k
    rw [find?_mergeNested]
    cases hk : a.find? k with
    | none => rfl
    | some m =>
        rw [overInner_of_ne_empty (h k m hk), OrdMap.find?_empty, Option.getD_none,
          OrdMap.empty_union]

end Nested

end Crate.Foundation
