import Crate.Spec.KeyOrder
import Crate.Spec.Profile

/-!
# What a merged document is made of

An override adds entries behind those of the profile and merges into the ones
that are there.  So what a merged document lists under a path comes from one of
the two, and the entries of a section that the override does not name stay as
they are, in their order.
-/

namespace Crate.Profile

open Crate.Foundation
open Crate.Yaml
open Crate.SpecParser

/-! ## Entries by key -/

theorem keyIs_iff {key : Str} {e : Entry} : keyIs key e = true ↔ e.1 = .scalar key := by
  unfold keyIs
  split
  · rename_i text htext
    simp [htext]
  · rename_i hother
    simp only [Bool.false_eq_true, false_iff]
    exact hother key

theorem mem_setKey {key : Str} {value : Node} {entries : List Entry} {e : Entry}
    (h : e ∈ setKey key value entries) : e ∈ entries ∨ e = (.scalar key, value) := by
  induction entries with
  | nil => exact .inr (by simpa [setKey] using h)
  | cons head rest ih =>
      unfold setKey at h
      split at h
      · rename_i hhead
        rcases List.mem_cons.mp h with rfl | h
        · right
          rw [keyIs_iff.mp hhead]
        · exact .inl (List.mem_cons_of_mem head h)
      · rcases List.mem_cons.mp h with rfl | h
        · simp
        · exact (ih h).imp_left (List.mem_cons_of_mem head)

theorem mem_of_lookup {entries : List Entry} {key : Str} {old : Node}
    (h : lookup entries key = some old) : (.scalar key, old) ∈ entries := by
  obtain ⟨e, hfind, rfl⟩ := Option.map_eq_some_iff.mp h
  have hkey := keyIs_iff.mp (List.find?_some hfind)
  rw [← hkey]
  exact List.mem_of_find?_eq_some hfind

/-- What `c` finds in the values of the entries with this key. -/
def under {α : Type} (key : Str) (c : Node → List α) : Node → List α
  | .map entries => entries.flatMap (fun e => if keyIs key e then c e.2 else [])
  | _ => []

def itemsOf : Node → List Node
  | .sequence items => items
  | _ => []

theorem mem_under {α : Type} {key : Str} {c : Node → List α} {entries : List Entry} {x : α} :
    x ∈ under key c (.map entries) ↔ ∃ v, (.scalar key, v) ∈ entries ∧ x ∈ c v := by
  simp only [under, List.mem_flatMap]
  constructor
  · rintro ⟨e, he, hx⟩
    split at hx
    · rename_i hkey
      exact ⟨e.2, keyIs_iff.mp hkey ▸ he, hx⟩
    · contradiction
  · rintro ⟨v, he, hx⟩
    refine ⟨_, he, ?_⟩
    rw [if_pos (keyIs_iff.mpr rfl)]
    exact hx

theorem mem_under_setKey {key target : Str} {c : Node → List Node} {value : Node}
    {entries : List Entry} {x : Node} (h : x ∈ under target c (.map (setKey key value entries))) :
    x ∈ under target c (.map entries) ∨ key = target ∧ x ∈ c value := by
  obtain ⟨v, he, hx⟩ := mem_under.mp h
  rcases mem_setKey he with he | he
  · exact .inl (mem_under.mpr ⟨v, he, hx⟩)
  · obtain ⟨hkey, rfl⟩ := Prod.mk.inj he
    exact .inr ⟨(Node.scalar.inj hkey).symm, hx⟩

theorem under_setKey {key target : Str} {c : Node → List Entry} {value : Node}
    {entries : List Entry}
    (h : key = target → c value = ((lookup entries key).map c).getD []) :
    under target c (.map (setKey key value entries)) = under target c (.map entries) := by
  induction entries with
  | nil =>
      simp only [setKey, under, List.flatMap_cons, List.flatMap_nil, List.append_nil]
      split
      · rename_i hkey
        exact h (Node.scalar.inj (keyIs_iff.mp hkey))
      · rfl
  | cons e rest ih =>
      unfold setKey
      split
      · rename_i hkey
        have hkeyIs : keyIs target (e.1, value) = keyIs target e := rfl
        simp only [under, List.flatMap_cons, hkeyIs]
        congr 1
        split
        · rename_i htarget
          have hlookup : lookup (e :: rest) key = some e.2 := by simp [lookup, hkey]
          have hsame : key = target :=
            Node.scalar.inj ((keyIs_iff.mp hkey).symm.trans (keyIs_iff.mp htarget))
          rw [h hsame, hlookup]
          rfl
        · rfl
      · rename_i hkey
        have hlookup : lookup (e :: rest) key = lookup rest key := by
          simp [lookup, hkey]
        rw [hlookup] at h
        have hrest := ih h
        simp only [under, List.flatMap_cons] at hrest ⊢
        rw [hrest]

/-- A key that `p` does not look for may be put anywhere. -/
theorem filter_setKey {p : Entry → Bool} {key : Str} (hp : ∀ v, p (.scalar key, v) = false)
    (value : Node) (entries : List Entry) :
    (setKey key value entries).filter p = entries.filter p := by
  induction entries with
  | nil => simp [setKey, hp]
  | cons e rest ih =>
      unfold setKey
      split
      · rename_i hkey
        have hsame : ∀ v, p (e.1, v) = false := by
          rw [keyIs_iff.mp hkey]
          exact hp
        rw [List.filter_cons_of_neg (by simp [hsame]),
          List.filter_cons_of_neg (by simpa using hsame e.2)]
      · rw [List.filter_cons, List.filter_cons, ih]

section Merging

variable [yaml : YamlCpp]

/-! ## Where the contents come from -/

/-- `c` finds nothing in a merged node that it does not find in one of the two. -/
def Gathers (c : Node → List Node) : Prop :=
  ∀ a v r, mergeNode a v = .ok r → ∀ x ∈ c r, x ∈ c a ∨ x ∈ c v

theorem mem_mergeItems {base overlay : List Node} {x : Node} (h : x ∈ mergeItems base overlay) :
    x ∈ base ∨ x ∈ overlay := by
  unfold mergeItems at h
  induction overlay generalizing base with
  | nil => exact .inl h
  | cons item rest ih =>
      rw [List.foldl_cons] at h
      rcases ih h with hbase | hrest
      · split at hbase
        · exact .inl hbase
        · rcases List.mem_append.mp hbase with hbase | hitem
          · exact .inl hbase
          · obtain rfl := List.mem_singleton.mp hitem
            exact .inr (by simp)
      · exact .inr (List.mem_cons_of_mem item hrest)

/-- The ways in which two nodes are merged. -/
theorem mergeNode_eq_ok {a v r : Node} (h : mergeNode a v = .ok r) :
    v = .null ∧ r = a ∨
      v ≠ .null ∧ (a.isMap = false ∨ v.isMap = false) ∧ r = v ∨
      (∃ xs ys, a = .sequence xs ∧ v = .sequence ys ∧ r = .sequence (mergeItems xs ys)) ∨
      ∃ result entries merged, a = .map result ∧ v = .map entries ∧
        mergeEntries result entries = .ok merged ∧ r = .map merged := by
  cases v with
  | null =>
      obtain rfl := Except.ok.inj h
      exact .inl ⟨rfl, rfl⟩
  | scalar text =>
      obtain rfl := Except.ok.inj h
      exact .inr (.inl ⟨by simp, .inr rfl, rfl⟩)
  | sequence items =>
      cases a with
      | sequence baseItems =>
          obtain rfl := Except.ok.inj h
          exact .inr (.inr (.inl ⟨baseItems, items, rfl, rfl, rfl⟩))
      | _ =>
          obtain rfl := Except.ok.inj h
          exact .inr (.inl ⟨by simp, .inr rfl, rfl⟩)
  | map entries =>
      cases a with
      | map result =>
          obtain ⟨merged, hmerged, hr⟩ := bind_eq_ok.mp h
          obtain rfl := Except.ok.inj hr
          exact .inr (.inr (.inr ⟨result, entries, merged, rfl, rfl, hmerged, rfl⟩))
      | _ =>
          obtain rfl := Except.ok.inj h
          exact .inr (.inl ⟨by simp, .inl rfl, rfl⟩)

theorem gathers_itemsOf : Gathers itemsOf := by
  intro a v r h x hx
  obtain ⟨-, rfl⟩ | ⟨-, -, rfl⟩ | ⟨xs, ys, rfl, rfl, rfl⟩ | ⟨_, _, _, -, -, -, rfl⟩ :=
    mergeNode_eq_ok h
  · exact .inl hx
  · exact .inr hx
  · exact mem_mergeItems hx
  · contradiction

/-! ## One entry after the other -/

/-- The entries of a document; anything but a map has none. -/
def docOf : Node → List Entry
  | .map entries => entries
  | _ => []

/-- One key of an override below the top level. -/
def mergeEntry (result : List Entry) (e : Entry) : Except Str (List Entry) :=
  match e.1 with
  | .scalar key =>
      match lookup result key with
      | none => .ok (setKey key e.2 result)
      | some old => do return setKey key (← mergeNode old e.2) result
  | _ => raise "profile" "overlay map keys must be scalars"

theorem mergeEntries_eq_foldlM (result entries : List Entry) :
    mergeEntries result entries = entries.foldlM mergeEntry result := by
  induction entries generalizing result with
  | nil => rfl
  | cons e rest ih =>
      obtain ⟨key, value⟩ := e
      rw [List.foldlM_cons]
      cases key with
      | scalar key =>
          cases hlookup : lookup result key with
          | none =>
              have hentry : mergeEntry result (.scalar key, value) =
                  .ok (setKey key value result) := by
                simp only [mergeEntry, hlookup]
              rw [hentry, ok_bind, ← ih]
              simp only [mergeEntries, hlookup]
          | some old =>
              have hentry : mergeEntry result (.scalar key, value) =
                  (do return setKey key (← mergeNode old value) result) := by
                simp only [mergeEntry, hlookup]
              rw [hentry, bind_assoc]
              simp only [mergeEntries, hlookup]
              exact bind_congr (fun new => ih _)
      | null => rfl
      | sequence items => rfl
      | map entries => rfl

/-- One key of the override puts one value under its key. -/
def Puts (result : List Entry) (e : Entry) (merged : List Entry) : Prop :=
  ∃ key new, e.1 = .scalar key ∧ merged = setKey key new result ∧
    (key ≠ "options" → lookup result key = none ∧ new = e.2 ∨
      ∃ old, lookup result key = some old ∧ mergeNode old e.2 = .ok new)

theorem puts_of_mergeEntry {result merged : List Entry} {e : Entry}
    (h : mergeEntry result e = .ok merged) : Puts result e merged := by
  unfold mergeEntry at h
  split at h
  · rename_i key hkey
    split at h
    · rename_i hnone
      obtain rfl := Except.ok.inj h
      exact ⟨key, e.2, hkey, rfl, fun _ => .inl ⟨hnone, rfl⟩⟩
    · rename_i old hold
      obtain ⟨new, hnew, h⟩ := bind_eq_ok.mp h
      obtain rfl := Except.ok.inj h
      exact ⟨key, new, hkey, rfl, fun _ => .inr ⟨old, hold, hnew⟩⟩
  · simp [raise] at h

theorem puts_of_mergeTopEntry {result merged : List Entry} {e : Entry}
    (h : mergeTopEntry result e = .ok merged) : Puts result e merged := by
  unfold mergeTopEntry at h
  split at h
  · rename_i key hkey
    split at h
    · rename_i hnone
      obtain rfl := Except.ok.inj h
      exact ⟨key, e.2, hkey, rfl, fun _ => .inl ⟨hnone, rfl⟩⟩
    · rename_i old hold
      dsimp only at h
      split at h
      · rename_i hoptions
        obtain ⟨new, -, h⟩ := bind_eq_ok.mp h
        obtain rfl := Except.ok.inj h
        exact ⟨key, new, hkey, rfl, fun hne => absurd hoptions hne⟩
      · obtain ⟨new, hnew, h⟩ := bind_eq_ok.mp h
        obtain rfl := Except.ok.inj h
        exact ⟨key, new, hkey, rfl, fun _ => .inr ⟨old, hold, hnew⟩⟩
  · simp [raise] at h

section Steps

variable {step : List Entry → Entry → Except Str (List Entry)}
  (hstep : ∀ {result e merged}, step result e = .ok merged → Puts result e merged)
  {result entries merged : List Entry}

include hstep

theorem mem_under_foldlM {target : Str} (htarget : target ≠ "options") {c : Node → List Node}
    (hc : Gathers c) (h : entries.foldlM step result = .ok merged) {x : Node}
    (hx : x ∈ under target c (.map merged)) :
    x ∈ under target c (.map result) ∨ x ∈ under target c (.map entries) := by
  refine Post.foldlM (Q := fun doc => ∀ x ∈ under target c (.map doc),
    x ∈ under target c (.map result) ∨ x ∈ under target c (.map entries))
    (fun e he doc hdoc doc' hrun x hx => ?_) (fun x hx => .inl hx) merged h x hx
  obtain ⟨key, new, hkey, rfl, hnew⟩ := hstep hrun
  rcases mem_under_setKey hx with hprior | ⟨rfl, hput⟩
  · exact hdoc x hprior
  · have hentry : x ∈ c e.2 → x ∈ under key c (.map entries) := by
      intro hvalue
      exact mem_under.mpr ⟨e.2, hkey ▸ he, hvalue⟩
    rcases hnew htarget with ⟨-, rfl⟩ | ⟨old, hold, hmerge⟩
    · exact .inr (hentry hput)
    · rcases hc old e.2 new hmerge x hput with hbase | hvalue
      · exact hdoc x (mem_under.mpr ⟨old, mem_of_lookup hold, hbase⟩)
      · exact .inr (hentry hvalue)

/-- The entries that `p` looks for stay as they are when the override has none of them. -/
theorem filter_foldlM {p : Entry → Bool} (hp : ∀ e ∈ entries, ∀ v, p (e.1, v) = false)
    (h : entries.foldlM step result = .ok merged) : merged.filter p = result.filter p := by
  refine Post.foldlM (Q := fun doc => doc.filter p = result.filter p)
    (fun e he doc hdoc doc' hrun => ?_) rfl merged h
  obtain ⟨key, new, hkey, rfl, -⟩ := hstep hrun
  rw [filter_setKey (hkey ▸ hp e he), hdoc]

end Steps

theorem gathers_under {target : Str} (htarget : target ≠ "options") {c : Node → List Node}
    (hc : Gathers c) : Gathers (under target c) := by
  intro a v r h x hx
  obtain ⟨-, rfl⟩ | ⟨-, -, rfl⟩ | ⟨_, _, -, -, rfl⟩ |
    ⟨result, entries, merged, rfl, rfl, hm, rfl⟩ := mergeNode_eq_ok h
  · exact .inl hx
  · exact .inr hx
  · contradiction
  · rw [mergeEntries_eq_foldlM] at hm
    exact mem_under_foldlM puts_of_mergeEntry htarget hc hm hx

/-! ## The top level -/

/-- A map on top of something that is no map replaces it. -/
theorem mergeYaml_eq_ok {b m : Node} {entries : List Entry}
    (h : mergeYaml b (.map entries) = .ok m) :
    b.isMap = false ∧ m = .map entries ∨
      ∃ result merged, b = .map result ∧ entries.foldlM mergeTopEntry result = .ok merged ∧
        m = .map merged := by
  cases b with
  | map result =>
      obtain ⟨merged, hmerged, h⟩ := bind_eq_ok.mp h
      obtain rfl := Except.ok.inj h
      exact .inr ⟨result, merged, rfl, hmerged, rfl⟩
  | null =>
      obtain rfl := Except.ok.inj h
      exact .inl ⟨rfl, rfl⟩
  | scalar text =>
      obtain rfl := Except.ok.inj h
      exact .inl ⟨rfl, rfl⟩
  | sequence items =>
      obtain rfl := Except.ok.inj h
      exact .inl ⟨rfl, rfl⟩

theorem mem_under_mergeYaml {target : Str} (htarget : target ≠ "options") {c : Node → List Node}
    (hc : Gathers c) {b m : Node} {entries : List Entry} (h : mergeYaml b (.map entries) = .ok m)
    {x : Node} (hx : x ∈ under target c m) :
    x ∈ under target c b ∨ x ∈ under target c (.map entries) := by
  obtain ⟨-, rfl⟩ | ⟨result, merged, rfl, hmerged, rfl⟩ := mergeYaml_eq_ok h
  · exact .inr hx
  · exact mem_under_foldlM puts_of_mergeTopEntry htarget hc hmerged hx

theorem filter_mergeYaml {p : Entry → Bool} {b m : Node} {entries : List Entry}
    (hp : ∀ e ∈ entries, ∀ v, p (e.1, v) = false) (h : mergeYaml b (.map entries) = .ok m) :
    (docOf m).filter p = (docOf b).filter p := by
  obtain ⟨hb, rfl⟩ | ⟨result, merged, rfl, hmerged, rfl⟩ := mergeYaml_eq_ok h
  · have hnone : entries.filter p = [] := by
      rw [List.filter_eq_nil_iff]
      intro e he
      simpa using hp e he e.2
    cases b with
    | map result => contradiction
    | _ => exact hnone
  · exact filter_foldlM puts_of_mergeTopEntry hp hmerged

/-- What `c` finds under a key stays when no value of the override adds to it or replaces it. -/
theorem under_mergeYaml {target : Str} (htarget : target ≠ "options") {c : Node → List Entry}
    {b m : Node} {entries : List Entry}
    (hc : ∀ v, (.scalar target, v) ∈ entries →
      c v = [] ∧ ∀ old r, mergeNode old v = .ok r → c r = c old)
    (h : mergeYaml b (.map entries) = .ok m) : under target c m = under target c b := by
  obtain ⟨hb, rfl⟩ | ⟨result, merged, rfl, hmerged, rfl⟩ := mergeYaml_eq_ok h
  · have hnone : under target c (.map entries) = [] := by
      rw [List.eq_nil_iff_forall_not_mem]
      intro x hx
      obtain ⟨v, hv, hxv⟩ := mem_under.mp hx
      rw [(hc v hv).1] at hxv
      contradiction
    cases b with
    | map result => contradiction
    | _ => exact hnone
  · refine Post.foldlM (Q := fun doc => under target c (.map doc) = under target c (.map result))
      (fun e he doc hdoc doc' hstep => ?_) rfl merged hmerged
    obtain ⟨key, new, hkey, rfl, hnew⟩ := puts_of_mergeTopEntry hstep
    rw [under_setKey (fun hsame => ?_), hdoc]
    subst hsame
    have hvalue := hc e.2 (hkey ▸ he)
    rcases hnew htarget with ⟨hnone, rfl⟩ | ⟨old, hold, hmerge⟩
    · rw [hnone]
      exact hvalue.1
    · rw [hold]
      exact hvalue.2 old new hmerge

end Merging

/-! ## Overrides with distinct keys -/

theorem lookup_of_new {key : Str} {entries : List Entry} (h : ∀ e ∈ entries, e.1 ≠ .scalar key) :
    lookup entries key = none := by
  rw [lookup, Option.map_eq_none_iff, List.find?_eq_none]
  intro e he hkey
  exact h e he (keyIs_iff.mp hkey)

theorem setKey_of_new {key : Str} {value : Node} {entries : List Entry}
    (h : ∀ e ∈ entries, e.1 ≠ .scalar key) :
    setKey key value entries = entries ++ [(.scalar key, value)] := by
  induction entries with
  | nil => rfl
  | cons e rest ih =>
      have hne : keyIs key e = false := Bool.eq_false_iff.mpr (fun hkey =>
        h e (by simp) (keyIs_iff.mp hkey))
      rw [setKey, hne, ih (fun e' he' => h e' (List.mem_cons_of_mem e he'))]
      rfl

section Distinct

variable {step : List Entry → Entry → Except Str (List Entry)}
  (hnew : ∀ result e key, e.1 = .scalar key → lookup result key = none →
    step result e = .ok (setKey key e.2 result))

include hnew

/-- Entries with keys of their own are put behind the others. -/
theorem foldlM_new {result entries : List Entry} (hscalar : ∀ e ∈ entries, ∃ key, e.1 = .scalar key)
    (hkeys : DistinctKeys (result ++ entries)) :
    entries.foldlM step result = .ok (result ++ entries) := by
  induction entries generalizing result with
  | nil =>
      rw [List.append_nil]
      rfl
  | cons e rest ih =>
      obtain ⟨key, hkey⟩ := hscalar e (by simp)
      have hother : ∀ e' ∈ result, e'.1 ≠ .scalar key := by
        intro e' he' hsame
        unfold DistinctKeys at hkeys
        rw [List.map_append, List.nodup_append] at hkeys
        exact hkeys.2.2 _ (List.mem_map_of_mem he') _ (List.mem_map_of_mem (List.mem_cons_self ..))
          (hsame.trans hkey.symm)
      have hlast : result ++ [e] = setKey key e.2 result := by
        rw [setKey_of_new hother, ← hkey]
      rw [List.foldlM_cons, hnew result e key hkey (lookup_of_new hother), ok_bind, ← hlast,
        ih (fun e' he' => hscalar e' (List.mem_cons_of_mem e he'))]
      · simp
      · simpa using hkeys

theorem foldlM_over {key : Str} {old v new : Node} {front back : List Entry}
    (hover : ∀ rest, step ((.scalar key, old) :: rest) (.scalar key, v) =
      .ok ((.scalar key, new) :: rest))
    (hscalar : ∀ e ∈ front ++ (.scalar key, v) :: back, ∃ key, e.1 = .scalar key)
    (hkeys : DistinctKeys (front ++ (.scalar key, v) :: back)) :
    (front ++ (.scalar key, v) :: back).foldlM step [(.scalar key, old)] =
      .ok ((.scalar key, new) :: (front ++ back)) := by
  unfold DistinctKeys at hkeys
  have hkeys' : ∀ w, DistinctKeys ((.scalar key, w) :: (front ++ back)) := by
    intro w
    have hperm : (front ++ (.scalar key, v) :: back).Perm ((.scalar key, v) :: (front ++ back)) :=
      List.perm_middle
    exact (hperm.map Prod.fst).nodup_iff.mp hkeys
  have hfront : DistinctKeys ([(.scalar key, old)] ++ front) := by
    refine List.Nodup.sublist ?_ (hkeys' old)
    exact List.Sublist.map _ ((List.sublist_append_left front back).cons_cons _)
  rw [List.foldlM_append, foldlM_new hnew (fun e he => hscalar e (by simp [he])) hfront, ok_bind,
    List.foldlM_cons, List.singleton_append, hover, ok_bind]
  exact foldlM_new hnew (fun e he => hscalar e (by simp [he])) (hkeys' new)

end Distinct

end Crate.Profile
