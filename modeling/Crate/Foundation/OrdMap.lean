import Mathlib

/-!
# Ordered finite maps

The abstract content of `std::map`: an association list that is strictly
increasing in its keys.  The invariant is a field, so iteration order, lookup
and equality of maps need no side conditions, and two maps with the same
lookups are equal.
-/

namespace Crate.Foundation

structure OrdMap (κ β : Type) [LinearOrder κ] where
  entries : List (κ × β)
  sorted : entries.Pairwise (fun a b => a.1 < b.1)
  deriving DecidableEq

namespace OrdMap

variable {κ β : Type} [LinearOrder κ]

/-! ## Sorted insertion into an association list -/

def insertEntry (key : κ) (value : β) : List (κ × β) → List (κ × β)
  | [] => [(key, value)]
  | entry :: rest =>
      if key < entry.1 then (key, value) :: entry :: rest
      else if entry.1 < key then entry :: insertEntry key value rest
      else (key, value) :: rest

theorem mem_insertEntry {key : κ} {value : β} {l : List (κ × β)} {a : κ × β}
    (h : a ∈ insertEntry key value l) : a = (key, value) ∨ a ∈ l := by
  induction l with
  | nil => simpa [insertEntry] using h
  | cons entry rest ih =>
      simp only [insertEntry] at h
      split at h
      · simpa using h
      · split at h
        · rcases List.mem_cons.mp h with rfl | h
          · exact .inr (by simp)
          · exact (ih h).imp_right (List.mem_cons_of_mem _)
        · rcases List.mem_cons.mp h with rfl | h
          · exact .inl rfl
          · exact .inr (List.mem_cons_of_mem _ h)

theorem insertEntry_sorted {key : κ} {value : β} {l : List (κ × β)}
    (h : l.Pairwise (fun a b => a.1 < b.1)) :
    (insertEntry key value l).Pairwise (fun a b => a.1 < b.1) := by
  induction l with
  | nil => simp [insertEntry]
  | cons entry rest ih =>
      obtain ⟨hhead, htail⟩ := List.pairwise_cons.mp h
      simp only [insertEntry]
      split
      · rename_i hlt
        refine List.pairwise_cons.mpr ⟨fun b hb => ?_, h⟩
        rcases List.mem_cons.mp hb with rfl | hb
        · exact hlt
        · exact hlt.trans (hhead b hb)
      · rename_i hge
        split
        · rename_i hlt
          refine List.pairwise_cons.mpr ⟨fun b hb => ?_, ih htail⟩
          rcases mem_insertEntry hb with rfl | hb
          · exact hlt
          · exact hhead b hb
        · rename_i hle
          have heq : key = entry.1 := le_antisymm (not_lt.mp hle) (not_lt.mp hge)
          refine List.pairwise_cons.mpr ⟨fun b hb => ?_, htail⟩
          rw [heq]
          exact hhead b hb

/-! ## Operations -/

/-- `m.find(key)`: the value bound to `key`, if any. -/
def find? (m : OrdMap κ β) (key : κ) : Option β :=
  (m.entries.find? (fun entry => entry.1 = key)).map Prod.snd

def empty : OrdMap κ β := ⟨[], .nil⟩

instance : Inhabited (OrdMap κ β) := ⟨empty⟩

/-- `m[key] = value`. -/
def insert (m : OrdMap κ β) (key : κ) (value : β) : OrdMap κ β :=
  ⟨insertEntry key value m.entries, insertEntry_sorted m.sorted⟩

def filter (m : OrdMap κ β) (keep : κ → β → Bool) : OrdMap κ β :=
  ⟨m.entries.filter (fun entry => keep entry.1 entry.2), m.sorted.filter _⟩

/-- `m.erase(key)`. -/
def erase (m : OrdMap κ β) (key : κ) : OrdMap κ β :=
  m.filter (fun k _ => k ≠ key)

/-- A map built from an initializer list; the first binding of a key wins. -/
def ofList : List (κ × β) → OrdMap κ β
  | [] => empty
  | entry :: rest => (ofList rest).insert entry.1 entry.2

/-! ## Lookup -/

theorem eq_of_mem_of_fst_eq {m : OrdMap κ β} {a b : κ × β}
    (ha : a ∈ m.entries) (hb : b ∈ m.entries) (h : a.1 = b.1) : a = b := by
  have hkeys : (m.entries.map Prod.fst).Nodup :=
    List.pairwise_map.mpr (m.sorted.imp (fun hlt => ne_of_lt hlt))
  exact List.inj_on_of_nodup_map hkeys ha hb h

theorem find?_eq_some_iff {m : OrdMap κ β} {key : κ} {value : β} :
    m.find? key = some value ↔ (key, value) ∈ m.entries := by
  unfold find?
  constructor
  · intro h
    obtain ⟨entry, hfind, rfl⟩ := Option.map_eq_some_iff.mp h
    have hkey : entry.1 = key := by simpa using List.find?_some hfind
    subst hkey
    exact List.mem_of_find?_eq_some hfind
  · intro hmem
    obtain ⟨entry, hfind⟩ : ∃ entry,
        m.entries.find? (fun entry => entry.1 = key) = some entry := by
      apply Option.isSome_iff_exists.mp
      rw [List.find?_isSome]
      exact ⟨(key, value), hmem, by simp⟩
    have hkey : entry.1 = key := by simpa using List.find?_some hfind
    have heq := eq_of_mem_of_fst_eq (List.mem_of_find?_eq_some hfind) hmem hkey
    simp [hfind, heq]

theorem ext_find? {m₁ m₂ : OrdMap κ β} (h : ∀ key, m₁.find? key = m₂.find? key) :
    m₁ = m₂ := by
  have hmem : ∀ entry, entry ∈ m₁.entries ↔ entry ∈ m₂.entries := by
    rintro ⟨key, value⟩
    rw [← find?_eq_some_iff, ← find?_eq_some_iff, h]
  have hnodup : ∀ m : OrdMap κ β, m.entries.Nodup := fun m =>
    m.sorted.imp (fun hlt heq => by subst heq; exact lt_irrefl _ hlt)
  have hperm : m₁.entries.Perm m₂.entries :=
    (List.perm_ext_iff_of_nodup (hnodup m₁) (hnodup m₂)).mpr hmem
  have hent : m₁.entries = m₂.entries :=
    hperm.eq_of_pairwise (fun a b _ _ hab hba => absurd hab (not_lt.mpr hba.le))
      m₁.sorted m₂.sorted
  cases m₁
  cases m₂
  simpa using hent

@[simp] theorem find?_empty (key : κ) : (empty : OrdMap κ β).find? key = none := rfl

private theorem find?_insertEntry (l : List (κ × β)) (key other : κ) (value : β)
    (h : l.Pairwise (fun a b => a.1 < b.1)) :
    ((insertEntry key value l).find? (fun entry => entry.1 = other)).map Prod.snd =
      if key = other then some value
      else (l.find? (fun entry => entry.1 = other)).map Prod.snd := by
  induction l with
  | nil =>
      by_cases heq : key = other <;> simp [insertEntry, heq]
  | cons entry rest ih =>
      obtain ⟨hhead, htail⟩ := List.pairwise_cons.mp h
      simp only [insertEntry]
      split
      · by_cases heq : key = other <;> simp [heq]
      · split
        · rename_i hge hlt
          by_cases hentry : entry.1 = other
          · have hne : key ≠ other := by
              rintro rfl
              exact absurd hlt (by rw [hentry]; exact lt_irrefl _)
            simp [hentry, hne]
          · simp only [List.find?_cons, hentry, decide_false]
            exact ih htail
        · rename_i hge hle
          have hkey : entry.1 = key := le_antisymm (not_lt.mp hge) (not_lt.mp hle)
          by_cases heq : key = other
          · simp [heq]
          · simp [heq, hkey]

theorem find?_insert (m : OrdMap κ β) (key other : κ) (value : β) :
    (m.insert key value).find? other =
      if key = other then some value else m.find? other :=
  find?_insertEntry m.entries key other value m.sorted

@[simp] theorem find?_insert_self (m : OrdMap κ β) (key : κ) (value : β) :
    (m.insert key value).find? key = some value := by
  simp [find?_insert]

theorem mem_filter {m : OrdMap κ β} {keep : κ → β → Bool} {key : κ} {value : β} :
    (m.filter keep).find? key = some value ↔
      m.find? key = some value ∧ keep key value = true := by
  simp [find?_eq_some_iff, filter]

theorem filter_eq_self {m : OrdMap κ β} {keep : κ → β → Bool}
    (h : m.entries.length ≤ (m.filter keep).entries.length) : m.filter keep = m := by
  have hent : (m.filter keep).entries = m.entries :=
    List.filter_sublist.eq_of_length_le h
  cases m
  simpa [filter] using hent

theorem find?_erase (m : OrdMap κ β) (key other : κ) :
    (m.erase key).find? other = if other = key then none else m.find? other := by
  apply Option.ext
  intro value
  rw [erase, mem_filter]
  by_cases h : other = key <;> simp [h]

@[simp] theorem find?_ofList_nil (key : κ) : (ofList ([] : List (κ × β))).find? key = none := rfl

@[simp] theorem find?_ofList_cons_self (key : κ) (value : β) (rest : List (κ × β)) :
    (ofList ((key, value) :: rest)).find? key = some value :=
  find?_insert_self _ _ _

@[simp] theorem find?_ofList_cons_ne {k key : κ} (h : k ≠ key) (value : β) (rest : List (κ × β)) :
    (ofList ((k, value) :: rest)).find? key = (ofList rest).find? key :=
  (find?_insert _ _ _ _).trans (if_neg h)

theorem find?_insert_ne {k key : κ} (h : k ≠ key) (m : OrdMap κ β) (value : β) :
    (m.insert k value).find? key = m.find? key :=
  (find?_insert _ _ _ _).trans (if_neg h)

theorem insert_eq_self {m : OrdMap κ β} {key : κ} {value : β} (h : m.find? key = some value) :
    m.insert key value = m := by
  apply ext_find?
  intro other
  rw [find?_insert]
  split
  · rename_i heq
    rw [← heq, h]
  · rfl

private theorem find?_foldl_insert (l : List (κ × β)) (m : OrdMap κ β) (key : κ)
    (h : l.Pairwise (fun a b => a.1 < b.1)) :
    (l.foldl (fun m kv => m.insert kv.1 kv.2) m).find? key =
      ((l.find? (fun kv => kv.1 = key)).map Prod.snd).or (m.find? key) := by
  induction l generalizing m with
  | nil => simp
  | cons kv rest ih =>
      obtain ⟨hhead, htail⟩ := List.pairwise_cons.mp h
      rw [List.foldl_cons, ih _ htail, find?_insert]
      by_cases heq : kv.1 = key
      · have hrest : rest.find? (fun kv => kv.1 = key) = none := by
          rw [List.find?_eq_none]
          intro x hx
          have := hhead x hx
          rw [heq] at this
          simpa using ne_of_gt this
        simp [heq, hrest]
      · simp [heq]

/-- Inserting the bindings of a map one after the other rebuilds it. -/
theorem foldl_insert_entries (m : OrdMap κ β) :
    m.entries.foldl (fun acc kv => acc.insert kv.1 kv.2) empty = m := by
  apply ext_find?
  intro key
  rw [find?_foldl_insert _ _ _ m.sorted, find?_empty, Option.or_none]
  rfl

theorem keys_nodup (m : OrdMap κ β) : (m.entries.map Prod.fst).Nodup := by
  rw [List.Nodup, List.pairwise_map]
  exact m.sorted.imp (fun hlt => ne_of_lt hlt)

theorem length_le_of_keys {m : OrdMap Int β} {n : Nat}
    (h : ∀ kv ∈ m.entries, 0 < kv.1 ∧ kv.1 ≤ n) : m.entries.length ≤ n := by
  have hsub : (m.entries.map Prod.fst).toFinset ⊆ Finset.Icc 1 (n : Int) := by
    intro key hkey
    obtain ⟨kv, hkv, rfl⟩ := List.mem_map.mp (List.mem_toFinset.mp hkey)
    obtain ⟨hpos, hmax⟩ := h kv hkv
    exact Finset.mem_Icc.mpr ⟨hpos, hmax⟩
  have hcard := Finset.card_le_card hsub
  rw [List.toFinset_card_of_nodup m.keys_nodup, List.length_map, Int.card_Icc] at hcard
  omega

private theorem least_of_find? {m : OrdMap κ β} {p : κ × β → Bool} {key k : κ} {value v : β}
    (h : m.entries.find? p = some (key, value)) (hmem : m.find? k = some v)
    (hp : p (k, v) = true) : key ≤ k := by
  obtain ⟨_, before, after, hsplit, hbefore⟩ := List.find?_eq_some_iff_append.mp h
  have hsorted := m.sorted
  have hin := find?_eq_some_iff.mp hmem
  rw [hsplit] at hsorted hin
  rcases List.mem_append.mp hin with hin | hin
  · exact absurd hp (by simpa using hbefore _ hin)
  · rcases List.mem_cons.mp hin with heq | hin
    · exact le_of_eq (congrArg Prod.fst heq).symm
    · have htail := (List.pairwise_append.mp hsorted).2.1
      exact ((List.pairwise_cons.mp htail).1 _ hin).le

/-- A search in iteration order finds the matching binding with the smallest key. -/
theorem find?_entries_eq_some_iff {m : OrdMap κ β} {p : κ × β → Bool} {key : κ} {value : β} :
    m.entries.find? p = some (key, value) ↔
      m.find? key = some value ∧ p (key, value) = true ∧
        ∀ k v, m.find? k = some v → p (k, v) = true → key ≤ k := by
  constructor
  · intro h
    exact ⟨find?_eq_some_iff.mpr (List.mem_of_find?_eq_some h), List.find?_some h,
      fun _ _ hmem hp => least_of_find? h hmem hp⟩
  · rintro ⟨hmem, hp, hleast⟩
    obtain ⟨⟨k, v⟩, hfind⟩ : ∃ kv, m.entries.find? p = some kv := by
      apply Option.isSome_iff_exists.mp
      rw [List.find?_isSome]
      exact ⟨_, find?_eq_some_iff.mp hmem, hp⟩
    have hk := find?_eq_some_iff.mpr (List.mem_of_find?_eq_some hfind)
    have heq : key = k := le_antisymm (hleast k v hk (List.find?_some hfind))
      (least_of_find? hfind hmem hp)
    subst heq
    rw [hmem, Option.some.injEq] at hk
    rw [hfind, hk]

/-! ## Overlays of maps -/

def union (m overlay : OrdMap κ β) : OrdMap κ β :=
  overlay.entries.foldl (fun acc kv => acc.insert kv.1 kv.2) m

theorem find?_union (m overlay : OrdMap κ β) (key : κ) :
    (m.union overlay).find? key = (overlay.find? key).or (m.find? key) :=
  find?_foldl_insert _ _ _ overlay.sorted

theorem union_empty (m : OrdMap κ β) : m.union empty = m := rfl

theorem empty_union (m : OrdMap κ β) : empty.union m = m := foldl_insert_entries m

theorem union_assoc (a b c : OrdMap κ β) : (a.union b).union c = a.union (b.union c) := by
  apply ext_find?
  intro key
  simp only [find?_union, Option.or_assoc]

/-! ## Maps with changed values -/

def mapValues {γ : Type} (m : OrdMap κ β) (g : β → γ) : OrdMap κ γ :=
  ⟨m.entries.map (fun kv => (kv.1, g kv.2)), List.pairwise_map.mpr m.sorted⟩

theorem find?_mapValues {γ : Type} (m : OrdMap κ β) (g : β → γ) (key : κ) :
    (m.mapValues g).find? key = (m.find? key).map g := by
  unfold find? mapValues
  rw [List.find?_map, Option.map_map, Option.map_map]
  rfl

theorem mapValues_insert {γ : Type} (m : OrdMap κ β) (g : β → γ) (key : κ) (value : β) :
    (m.insert key value).mapValues g = (m.mapValues g).insert key (g value) := by
  apply ext_find?
  intro other
  rw [find?_mapValues, find?_insert, find?_insert, find?_mapValues]
  split <;> rfl

theorem mapValues_filter_key {γ : Type} (m : OrdMap κ β) (g : β → γ) (keep : κ → Bool) :
    (m.filter (fun key _ => keep key)).mapValues g =
      (m.mapValues g).filter (fun key _ => keep key) := by
  simp only [filter, mapValues, mk.injEq, List.filter_map]
  rfl

theorem mapValues_erase {γ : Type} (m : OrdMap κ β) (g : β → γ) (key : κ) :
    (m.erase key).mapValues g = (m.mapValues g).erase key :=
  mapValues_filter_key m g (fun k => k ≠ key)

end OrdMap

end Crate.Foundation
