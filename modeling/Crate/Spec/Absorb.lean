import Crate.Spec.MergeYaml

/-!
# Merging an override a second time

`mergeNode` replaces scalars, appends the items a list does not have and merges
maps key by key.  When no map of the override repeats a key, its values are all
in the result, and merging it once more changes nothing.
-/

namespace Crate.Profile

open Crate.Foundation
open Crate.Yaml
open Crate.SpecParser

/-- Outside lists, no map of the node repeats a key. -/
inductive UniqueKeys : Node → Prop
  | null : UniqueKeys .null
  | scalar (text : Str) : UniqueKeys (.scalar text)
  | sequence (items : List Node) : UniqueKeys (.sequence items)
  | map {entries : List Entry} (hkeys : (entries.map Prod.fst).Nodup)
      (hvalues : ∀ e ∈ entries, UniqueKeys e.2) : UniqueKeys (.map entries)

/-- Outside lists, the maps of the node have scalar keys, none of them twice. -/
inductive Plain : Node → Prop
  | null : Plain .null
  | scalar (text : Str) : Plain (.scalar text)
  | sequence (items : List Node) : Plain (.sequence items)
  | map {entries : List Entry} (hscalar : ∀ e ∈ entries, ∃ key, e.1 = .scalar key)
      (hkeys : (entries.map Prod.fst).Nodup) (hvalues : ∀ e ∈ entries, Plain e.2) :
      Plain (.map entries)

theorem plain_map_iff {entries : List Entry} :
    Plain (.map entries) ↔ (∀ e ∈ entries, ∃ key, e.1 = .scalar key) ∧
      (entries.map Prod.fst).Nodup ∧ ∀ e ∈ entries, Plain e.2 :=
  ⟨fun | .map hscalar hkeys hvalues => ⟨hscalar, hkeys, hvalues⟩,
    fun ⟨hscalar, hkeys, hvalues⟩ => .map hscalar hkeys hvalues⟩

/-! ## Lookup after an assignment -/

@[simp] theorem lookup_nil (key : Str) : lookup [] key = none := rfl

theorem lookup_cons (e : Entry) (rest : List Entry) (key : Str) :
    lookup (e :: rest) key = if keyIs key e then some e.2 else lookup rest key := by
  unfold lookup
  rw [List.find?_cons]
  cases keyIs key e <;> rfl

theorem keyIs_scalar (key other : Str) (value : Node) :
    keyIs key (.scalar other, value) = decide (other = key) := rfl

@[simp] theorem lookup_setKey_self (key : Str) (value : Node) (entries : List Entry) :
    lookup (setKey key value entries) key = some value := by
  induction entries with
  | nil => simp [setKey, lookup_cons, keyIs_scalar]
  | cons e rest ih =>
      unfold setKey
      split
      · rename_i hkey
        rw [lookup_cons]
        exact if_pos hkey
      · rename_i hkey
        rw [lookup_cons, if_neg hkey, ih]

theorem lookup_setKey_ne {key other : Str} (hne : key ≠ other) (value : Node)
    (entries : List Entry) : lookup (setKey key value entries) other = lookup entries other := by
  induction entries with
  | nil => simp [setKey, lookup_cons, keyIs_scalar, hne]
  | cons e rest ih =>
      unfold setKey
      split
      · rename_i hkey
        have hother : ∀ v, ¬keyIs other (e.1, v) = true := by
          intro v hcontra
          have hsame := (keyIs_iff.mp hkey).symm.trans (keyIs_iff.mp hcontra)
          exact hne (Node.scalar.inj hsame)
        rw [lookup_cons, lookup_cons, if_neg (hother value), if_neg (hother e.2)]
      · rw [lookup_cons, lookup_cons, ih]

theorem setKey_lookup {key : Str} {value : Node} {entries : List Entry}
    (h : lookup entries key = some value) : setKey key value entries = entries := by
  induction entries with
  | nil => simp at h
  | cons e rest ih =>
      rw [lookup_cons] at h
      unfold setKey
      split
      · rename_i hkey
        rw [if_pos hkey, Option.some.injEq] at h
        rw [← h]
      · rename_i hkey
        rw [if_neg hkey] at h
        rw [ih h]

theorem lookup_of_mem {key : Str} {value : Node} {entries : List Entry}
    (hkeys : (entries.map Prod.fst).Nodup) (hmem : (.scalar key, value) ∈ entries) :
    lookup entries key = some value := by
  induction entries with
  | nil => cases hmem
  | cons e rest ih =>
      rw [List.map_cons, List.nodup_cons] at hkeys
      rw [lookup_cons]
      rcases List.mem_cons.mp hmem with rfl | hrest
      · rw [if_pos (keyIs_iff.mpr rfl)]
      · rw [if_neg, ih hkeys.2 hrest]
        intro hkey
        rw [keyIs_iff.mp hkey] at hkeys
        exact hkeys.1 (List.mem_map.mpr ⟨_, hrest, rfl⟩)

section Merging

variable [yaml : YamlCpp]

/-! ## Lists -/

/-- An item that is written in the same way is there already. -/
def Present (items : List Node) (item : Node) : Prop :=
  ∃ existing ∈ items, yaml.emit existing = yaml.emit item

theorem mergeItems_of_present {base overlay : List Node}
    (h : ∀ item ∈ overlay, Present base item) : mergeItems base overlay = base := by
  unfold mergeItems
  induction overlay with
  | nil => rfl
  | cons item rest ih =>
      rw [List.foldl_cons, if_pos]
      · exact ih (fun other hother => h other (List.mem_cons_of_mem item hother))
      · obtain ⟨existing, hexisting, hsame⟩ := h item (by simp)
        exact List.any_eq_true.mpr ⟨existing, hexisting, decide_eq_true hsame⟩

theorem base_subset_mergeItems (base overlay : List Node) :
    ∀ item ∈ base, item ∈ mergeItems base overlay := by
  unfold mergeItems
  induction overlay generalizing base with
  | nil => exact fun _ h => h
  | cons item rest ih =>
      intro x hx
      rw [List.foldl_cons]
      apply ih
      split
      · exact hx
      · exact List.mem_append_left _ hx

theorem present_mergeItems (base overlay : List Node) :
    ∀ item ∈ overlay, Present (mergeItems base overlay) item := by
  induction overlay generalizing base with
  | nil => simp
  | cons first rest ih =>
      intro item hitem
      rcases List.mem_cons.mp hitem with rfl | hrest
      · rw [mergeItems, List.foldl_cons]
        split
        · rename_i hthere
          obtain ⟨existing, hexisting, hsame⟩ := List.any_eq_true.mp hthere
          exact ⟨existing, base_subset_mergeItems _ rest _ hexisting, by simpa using hsame⟩
        · exact ⟨item, base_subset_mergeItems _ rest _ (by simp), rfl⟩
      · exact ih _ item hrest

theorem mergeItems_absorbs (base overlay : List Node) :
    mergeItems (mergeItems base overlay) overlay = mergeItems base overlay :=
  mergeItems_of_present (present_mergeItems base overlay)

/-! ## Nodes -/

/-- Merging `overlay` into `base` changes nothing. -/
def Absorbs (base overlay : Node) : Prop := mergeNode base overlay = .ok base

theorem absorbs_sequence_iff {xs ys : List Node} :
    Absorbs (.sequence xs) (.sequence ys) ↔ mergeItems xs ys = xs := by
  have hmerge : mergeNode (.sequence xs) (.sequence ys) = .ok (.sequence (mergeItems xs ys)) := rfl
  rw [Absorbs, hmerge, Except.ok.injEq, Node.sequence.injEq]

/-- Every key of the override is there, with a value that absorbs its own. -/
def AbsorbsEntries (result : List Entry) (entries : List Entry) : Prop :=
  ∀ e ∈ entries, ∃ key value, e.1 = .scalar key ∧ lookup result key = some value ∧
    Absorbs value e.2

theorem AbsorbsEntries.mergeEntries {result entries : List Entry}
    (h : AbsorbsEntries result entries) : mergeEntries result entries = .ok result := by
  rw [mergeEntries_eq_foldlM]
  apply foldlM_eq_ok_self
  intro e he
  obtain ⟨key, value, hkey, hvalue, habsorbs⟩ := h e he
  unfold mergeEntry
  rw [hkey]
  dsimp only
  rw [hvalue]
  dsimp only
  rw [habsorbs, ok_bind, setKey_lookup hvalue]
  rfl

theorem AbsorbsEntries.mergeNode {result entries : List Entry}
    (h : AbsorbsEntries result entries) : Absorbs (.map result) (.map entries) := by
  unfold Absorbs Profile.mergeNode
  dsimp only
  rw [h.mergeEntries]
  rfl

theorem Plain.absorbs_self {y : Node} (h : Plain y) : Absorbs y y := by
  induction h with
  | null => rfl
  | scalar text => rfl
  | sequence items =>
      rw [absorbs_sequence_iff]
      exact mergeItems_of_present (fun item hitem => ⟨item, hitem, rfl⟩)
  | map hscalar hkeys _ ih =>
      apply AbsorbsEntries.mergeNode
      intro e he
      obtain ⟨key, hkey⟩ := hscalar e he
      exact ⟨key, e.2, hkey, lookup_of_mem hkeys (hkey ▸ he), ih e he⟩

/-- The value that an override with the value `y` leaves under a key of `result`. -/
def PutsValue (result : List Entry) (key : Str) (y value : Node) : Prop :=
  lookup result key = none ∧ value = y ∨
    ∃ old, lookup result key = some old ∧ mergeNode old y = .ok value

/-- What a merge of maps makes of the entries, when the override repeats no key. -/
structure MergedEntries (result entries merged : List Entry) : Prop where
  named : ∀ e ∈ entries, ∃ key value, e.1 = .scalar key ∧ lookup merged key = some value ∧
    PutsValue result key e.2 value
  other : ∀ key, (∀ e ∈ entries, e.1 ≠ .scalar key) → lookup merged key = lookup result key
  mem : ∀ e ∈ merged, e ∈ result ∨
    ∃ key y, e.1 = .scalar key ∧ (.scalar key, y) ∈ entries ∧ PutsValue result key y e.2

theorem putsValue_of_mergeEntry {result next : List Entry} {e : Entry}
    (h : mergeEntry result e = .ok next) :
    ∃ key value, e.1 = .scalar key ∧ next = setKey key value result ∧
      PutsValue result key e.2 value := by
  unfold mergeEntry at h
  split at h
  · rename_i key hkey
    split at h
    · rename_i hnone
      exact ⟨key, e.2, hkey, (Except.ok.inj h).symm, .inl ⟨hnone, rfl⟩⟩
    · rename_i old hold
      obtain ⟨new, hnew, h⟩ := bind_eq_ok.mp h
      exact ⟨key, new, hkey, (Except.ok.inj h).symm, .inr ⟨old, hold, hnew⟩⟩
  · simp [raise] at h

theorem mergedEntries_of_foldlM {entries : List Entry} (hkeys : (entries.map Prod.fst).Nodup)
    {result merged : List Entry} (h : entries.foldlM mergeEntry result = .ok merged) :
    MergedEntries result entries merged := by
  induction entries generalizing result with
  | nil =>
      obtain rfl := Except.ok.inj h
      exact ⟨fun e he => (List.not_mem_nil he).elim, fun _ _ => rfl, fun e he => .inl he⟩
  | cons e rest ih =>
      rw [List.foldlM_cons] at h
      obtain ⟨next, hfirst, hrest⟩ := bind_eq_ok.mp h
      rw [List.map_cons, List.nodup_cons] at hkeys
      obtain ⟨hnamed, hother, hmem⟩ := ih hkeys.2 hrest
      obtain ⟨key, value, hkey, rfl, hvalue⟩ := putsValue_of_mergeEntry hfirst
      -- No later entry has the key of the first, so both read the same old values.
      have hfresh : ∀ e' ∈ rest, e'.1 ≠ .scalar key := by
        intro e' he' hsame
        exact hkeys.1 (List.mem_map.mpr ⟨e', he', hsame.trans hkey.symm⟩)
      have hputs : ∀ other y v, (.scalar other, y) ∈ rest →
          PutsValue (setKey key value result) other y v → PutsValue result other y v := by
        intro other y v hin hv
        have hne : key ≠ other := by
          rintro rfl
          exact hfresh _ hin rfl
        unfold PutsValue at hv ⊢
        rwa [lookup_setKey_ne hne] at hv
      constructor
      · intro e' he'
        rcases List.mem_cons.mp he' with rfl | he'
        · refine ⟨key, value, hkey, ?_, hvalue⟩
          rw [hother key hfresh, lookup_setKey_self]
        · obtain ⟨other, v, hsame, hlookup, hv⟩ := hnamed e' he'
          exact ⟨other, v, hsame, hlookup, hputs other _ v (hsame ▸ he') hv⟩
      · intro other hnone
        rw [hother other (fun e' he' => hnone e' (List.mem_cons_of_mem e he'))]
        refine lookup_setKey_ne ?_ _ _
        rintro rfl
        exact hnone e (by simp) hkey
      · intro e' he'
        rcases hmem e' he' with hset | ⟨other, y, hsame, hin, hv⟩
        · rcases mem_setKey hset with hresult | rfl
          · exact .inl hresult
          · refine .inr ⟨key, e.2, rfl, ?_, hvalue⟩
            rw [← hkey]
            exact List.mem_cons_self ..
        · exact .inr ⟨other, y, hsame, List.mem_cons_of_mem e hin, hputs other y _ hin hv⟩

/-- What an override has been merged into absorbs it. -/
theorem Plain.absorbs {y : Node} (h : Plain y) :
    ∀ x r, Profile.mergeNode x y = .ok r → Absorbs r y := by
  induction h with
  | null =>
      rintro x r -
      exact rfl
  | scalar text =>
      intro x r hmerge
      obtain rfl := Except.ok.inj hmerge
      exact rfl
  | sequence items =>
      intro x r hmerge
      obtain ⟨hnull, -⟩ | ⟨-, -, rfl⟩ | ⟨xs, ys, -, hys, rfl⟩ | ⟨_, _, _, -, hmap, -⟩ :=
        mergeNode_eq_ok hmerge
      · contradiction
      · exact (Plain.sequence items).absorbs_self
      · obtain rfl := Node.sequence.inj hys
        rw [absorbs_sequence_iff]
        exact mergeItems_absorbs xs items
      · contradiction
  | map hscalar hkeys hplain ih =>
      intro x r hmerge
      obtain ⟨hnull, -⟩ | ⟨-, -, rfl⟩ | ⟨_, _, -, hseq, -⟩ | ⟨result, entries', merged, -, hmap,
        hmerged, rfl⟩ := mergeNode_eq_ok hmerge
      · contradiction
      · exact (Plain.map hscalar hkeys hplain).absorbs_self
      · contradiction
      · obtain rfl := Node.map.inj hmap
        rw [mergeEntries_eq_foldlM] at hmerged
        apply AbsorbsEntries.mergeNode
        intro e he
        have hentries := mergedEntries_of_foldlM hkeys hmerged
        obtain ⟨key, value, hkey, hvalue, hputs⟩ := hentries.named e he
        refine ⟨key, value, hkey, hvalue, ?_⟩
        obtain ⟨-, rfl⟩ | ⟨old, -, hold⟩ := hputs
        · exact (hplain e he).absorbs_self
        · exact ih e he old value hold

theorem exists_foldlM_mergeEntry {entries : List Entry}
    (hscalar : ∀ e ∈ entries, ∃ key, e.1 = .scalar key)
    (hvalues : ∀ e ∈ entries, ∀ x, ∃ r, mergeNode x e.2 = .ok r) (result : List Entry) :
    ∃ merged, entries.foldlM mergeEntry result = .ok merged := by
  induction entries generalizing result with
  | nil => exact ⟨result, rfl⟩
  | cons e rest ih =>
      obtain ⟨key, hkey⟩ := hscalar e (by simp)
      have hstep : ∃ next, mergeEntry result e = .ok next := by
        unfold mergeEntry
        rw [hkey]
        dsimp only
        split
        · exact ⟨_, rfl⟩
        · rename_i old _
          obtain ⟨new, hnew⟩ := hvalues e (by simp) old
          exact ⟨_, by rw [hnew]; rfl⟩
      obtain ⟨next, hnext⟩ := hstep
      rw [List.foldlM_cons, hnext, ok_bind]
      exact ih (fun e' he' => hscalar e' (List.mem_cons_of_mem e he'))
        (fun e' he' => hvalues e' (List.mem_cons_of_mem e he')) next

/-- An override with scalar keys can be merged into any node. -/
theorem Plain.exists_mergeNode {y : Node} (h : Plain y) :
    ∀ x, ∃ r, Profile.mergeNode x y = .ok r := by
  induction h with
  | null => exact fun x => ⟨x, rfl⟩
  | scalar text => exact fun _ => ⟨_, rfl⟩
  | sequence items =>
      intro x
      cases x <;> exact ⟨_, rfl⟩
  | map hscalar _ _ ih =>
      intro x
      cases x with
      | map result =>
          obtain ⟨merged, hmerged⟩ := exists_foldlM_mergeEntry hscalar ih result
          rw [← mergeEntries_eq_foldlM] at hmerged
          refine ⟨.map merged, ?_⟩
          unfold Profile.mergeNode
          dsimp only
          rw [hmerged]
          rfl
      | null => exact ⟨_, rfl⟩
      | scalar text => exact ⟨_, rfl⟩
      | sequence items => exact ⟨_, rfl⟩

end Merging

end Crate.Profile
