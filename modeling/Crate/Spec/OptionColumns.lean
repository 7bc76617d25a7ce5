import Crate.Spec.OptionMeaning

/-!
# The merge of options, name by name

`mergeOptions` runs over lists of names and values, and turns the result into a
list or a map.  Here a list is seen as one column of values for each name: an
option of the override changes the first value of the column of its name, and
the map takes the last one.
-/

namespace Crate.Profile

open Crate.Foundation
open Crate.Yaml
open Crate.SpecParser

/-- The values of a name, from the first to the last. -/
def column (items : OptionList) (name : Str) : List Node :=
  (items.filter (fun i => i.1 = name)).map Prod.snd

@[simp] theorem column_nil (name : Str) : column [] name = [] := rfl

theorem column_cons (i : Str × Node) (items : OptionList) (name : Str) :
    column (i :: items) name =
      if i.1 = name then i.2 :: column items name else column items name := by
  unfold column
  by_cases h : i.1 = name <;> simp [h]

theorem column_cons_self (i : Str × Node) (items : OptionList) :
    column (i :: items) i.1 = i.2 :: column items i.1 := by
  rw [column_cons, if_pos rfl]

theorem column_cons_ne {i : Str × Node} {name : Str} (h : i.1 ≠ name) (items : OptionList) :
    column (i :: items) name = column items name := by
  rw [column_cons, if_neg h]

theorem column_eq_nil_iff {items : OptionList} {name : Str} :
    column items name = [] ↔ name ∉ items.map Prod.fst := by
  rw [column, List.map_eq_nil_iff, List.filter_eq_nil_iff]
  simp only [decide_eq_true_eq, List.mem_map, not_exists, not_and]

theorem mem_column {items : OptionList} {name : Str} {value : Node} :
    value ∈ column items name ↔ (name, value) ∈ items := by
  simp [column]

/-! ## From the result to a node -/

theorem lookup_foldl_setKey (items : OptionList) (entries : List Entry) (name : Str) :
    lookup (items.foldl (fun result i => setKey i.1 i.2 result) entries) name =
      ((column items name).getLast?).or (lookup entries name) := by
  induction items generalizing entries with
  | nil => rfl
  | cons i rest ih =>
      rw [List.foldl_cons, ih]
      by_cases hname : i.1 = name
      · subst hname
        rw [lookup_setKey_self, column_cons_self, List.getLast?_cons]
        cases (column rest i.1).getLast? <;> rfl
      · rw [lookup_setKey_ne hname, column_cons_ne hname]

/-- Assignments keep the keys scalar and distinct. -/
structure Keyed (entries : List Entry) : Prop where
  scalar : ∀ e ∈ entries, ∃ name, e.1 = .scalar name
  distinct : (entries.map Prod.fst).Nodup

theorem Keyed.setKey {entries : List Entry} (h : Keyed entries) (key : Str) (value : Node) :
    Keyed (setKey key value entries) := by
  obtain ⟨hscalar, hdistinct⟩ := h
  constructor
  · intro e he
    rcases mem_setKey he with he | rfl
    · exact hscalar e he
    · exact ⟨key, rfl⟩
  · clear hscalar
    induction entries with
    | nil => simp [Profile.setKey]
    | cons e rest ih =>
        rw [List.map_cons, List.nodup_cons] at hdistinct
        unfold Profile.setKey
        split
        · rw [List.map_cons, List.nodup_cons]
          exact hdistinct
        · rename_i hkey
          rw [List.map_cons, List.nodup_cons]
          refine ⟨fun hmem => ?_, ih hdistinct.2⟩
          obtain ⟨e', he', hsame⟩ := List.mem_map.mp hmem
          rcases mem_setKey he' with he' | rfl
          · exact hdistinct.1 (List.mem_map.mpr ⟨e', he', hsame⟩)
          · exact hkey (keyIs_iff.mpr hsame.symm)

theorem keyed_foldl_setKey (items : OptionList) {entries : List Entry} (h : Keyed entries) :
    Keyed (items.foldl (fun result i => setKey i.1 i.2 result) entries) := by
  induction items generalizing entries with
  | nil => exact h
  | cons i rest ih => exact ih (h.setKey i.1 i.2)

theorem Keyed.nil : Keyed [] := ⟨by simp, by simp⟩

def hasDetails (items : OptionList) : Bool := items.any (fun i => !i.2.isNull)

/-- The node that `mergeOptions` makes of its items. -/
def resultNode (items : OptionList) : Node :=
  if hasDetails items then .map (items.foldl (fun result i => setKey i.1 i.2 result) [])
  else .sequence (items.map (fun i => .scalar i.1))

/-! ## From a node to items -/

/-- Options that both `collectOptions` and the parser take for names and their details. -/
inductive Collectable : Node → Prop
  | scalar (text : Str) : Collectable (.scalar text)
  | sequence {items : List Node} (h : ∀ item ∈ items, ∃ text, item = .scalar text) :
      Collectable (.sequence items)
  | map {entries : List Entry} (hkeyed : Keyed entries)
      (hvalues : ∀ e ∈ entries, e.2.isMap ∨ e.2.isNull) : Collectable (.map entries)

/-- The names that `collectOptions` takes; to it a scalar is one name. -/
def takenNames [YamlCpp] : Node → List Str
  | .scalar text => [text]
  | v => optionNames v

/-- The value of a name, with null for no details. -/
def valueNode (v : Node) (name : Str) : Node :=
  match detailsOf v name with
  | some details => .map details
  | none => .null

section Merging

variable [yaml : YamlCpp]

/-- `collectOptions` gives every name that it takes, each with its value. -/
structure Collects (v : Node) (items : OptionList) : Prop where
  names : items.map Prod.fst = takenNames v
  values : ∀ i ∈ items, i.2 = valueNode v i.1
  distinct : isListed v = false → (takenNames v).Nodup

omit yaml in
theorem exists_texts {nodes : List Node} (h : ∀ node ∈ nodes, ∃ text, node = .scalar text) :
    ∃ texts : List Str, nodes = texts.map .scalar := by
  have hrange : nodes ∈ Set.range (List.map Node.scalar) := by
    rw [Set.range_list_map]
    exact fun node hnode => (h node hnode).imp (fun _ => Eq.symm)
  exact hrange.imp (fun _ => Eq.symm)

omit yaml in
theorem exists_items {entries : List Entry} (h : ∀ e ∈ entries, ∃ name, e.1 = .scalar name) :
    ∃ items : OptionList, entries = items.map (fun i => (.scalar i.1, i.2)) := by
  have hrange : entries ∈ Set.range (List.map (fun i : Str × Node => ((.scalar i.1, i.2) : Entry)))
      := by
    rw [Set.range_list_map]
    intro e he
    obtain ⟨name, hname⟩ := h e he
    exact ⟨(name, e.2), Prod.ext hname.symm rfl⟩
  exact hrange.imp (fun _ => Eq.symm)

theorem textsOf_scalars (texts : List Str) : textsOf (texts.map .scalar) = texts := by
  have htexts := mapM_eq_ok_of_forall (f := asString) (g := Node.scalar) (k := id) (l := texts)
    (fun _ _ => rfl)
  rw [List.map_id] at htexts
  exact textsOf_of_mapM htexts

theorem collectOptions_eq {v : Node} (h : Collectable v) (what : Str) :
    ∃ items, collectOptions what v = .ok items ∧ Collects v items := by
  cases h with
  | scalar text =>
      refine ⟨[(text, .null)], rfl, rfl, ?_, fun h => by simp [isListed] at h⟩
      intro i hi
      obtain rfl := List.mem_singleton.mp hi
      rfl
  | @sequence items hitems =>
      obtain ⟨texts, rfl⟩ := exists_texts hitems
      refine ⟨texts.map (fun text => (text, .null)), mapM_eq_ok_of_forall (fun _ _ => rfl), ?_, ?_,
        fun h => by simp [isListed] at h⟩
      · rw [takenNames, optionNames, textsOf_scalars, List.map_map]
        · exact List.map_id texts
        · simp
      · intro i hi
        obtain ⟨text, -, rfl⟩ := List.mem_map.mp hi
        rfl
  | @map entries hkeyed hvalues =>
      obtain ⟨items, rfl⟩ := exists_items hkeyed.scalar
      have hnames : takenNames (.map (items.map (fun i => (.scalar i.1, i.2)))) =
          items.map Prod.fst := by
        rw [takenNames, optionNames, List.map_map, ← textsOf_scalars (items.map Prod.fst),
          List.map_map]
        · rfl
        · simp
      refine ⟨items, ?_, hnames.symm, ?_, fun _ => ?_⟩
      · have hitems := mapM_eq_ok_of_forall (f := collectEntry what) (k := id) (l := items)
          (g := fun i => (.scalar i.1, i.2)) (fun _ _ => rfl)
        rw [List.map_id] at hitems
        exact hitems
      · intro i hi
        have hmem : (.scalar i.1, i.2) ∈ items.map (fun i => ((.scalar i.1, i.2) : Entry)) :=
          List.mem_map.mpr ⟨i, hi, rfl⟩
        have hvalue := hvalues _ hmem
        rw [valueNode, detailsOf, lookup_of_mem hkeyed.distinct hmem]
        dsimp only at hvalue
        revert hvalue
        cases i.2 <;> simp [Node.isMap, Node.isNull]
      · rw [hnames]
        have hdistinct := hkeyed.distinct
        rw [List.map_map] at hdistinct
        refine List.Nodup.of_map Node.scalar ?_
        rw [List.map_map]
        exact hdistinct

theorem Collects.column {v : Node} {items : OptionList} (h : Collects v items) (name : Str) :
    column items name = List.replicate ((takenNames v).count name) (valueNode v name) := by
  rw [List.eq_replicate_iff, Profile.column, List.length_map, ← h.names]
  constructor
  · rw [List.count, List.countP_map, List.countP_eq_length_filter]
    refine congrArg List.length (List.filter_congr (fun i _ => ?_))
    rw [Bool.eq_iff_iff, decide_eq_true_iff, Function.comp_apply, beq_iff_eq]
  · intro value hvalue
    have hmem := mem_column.mp hvalue
    exact h.values _ hmem

/-! ## The node of the result -/

omit yaml in
theorem isListed_resultNode (items : OptionList) :
    isListed (resultNode items) = !hasDetails items := by
  unfold resultNode
  cases hasDetails items <;> rfl

theorem takenNames_resultNode (items : OptionList) :
    takenNames (resultNode items) = optionNames (resultNode items) := by
  unfold resultNode
  cases hasDetails items <;> rfl

omit yaml in
theorem keyed_resultEntries (items : OptionList) :
    Keyed (items.foldl (fun result i => setKey i.1 i.2 result) []) :=
  keyed_foldl_setKey items Keyed.nil

theorem mem_optionNames_resultNode {items : OptionList} {name : Str} :
    name ∈ optionNames (resultNode items) ↔ name ∈ items.map Prod.fst := by
  unfold resultNode
  split
  · rw [mem_optionNames_map (keyed_resultEntries items).scalar, lookup_foldl_setKey, lookup_nil,
      Option.or_none, ← not_iff_not, ← column_eq_nil_iff]
    simp
  · have htexts : items.map (fun i => Node.scalar i.1) = (items.map Prod.fst).map .scalar := by
      rw [List.map_map]
      rfl
    rw [optionNames, htexts, textsOf_scalars]

omit yaml in
theorem collectable_resultNode {items : OptionList} (h : ∀ i ∈ items, i.2.isMap ∨ i.2.isNull) :
    Collectable (resultNode items) := by
  unfold resultNode
  split
  · refine .map (keyed_resultEntries items) ?_
    intro e he
    obtain ⟨name, hname⟩ := (keyed_resultEntries items).scalar e he
    have hmem : (.scalar name, e.2) ∈ items.foldl (fun result i => setKey i.1 i.2 result) [] := by
      rw [← hname]
      exact he
    have hlookup := lookup_of_mem (keyed_resultEntries items).distinct hmem
    rw [lookup_foldl_setKey, lookup_nil, Option.or_none] at hlookup
    exact h _ (mem_column.mp (List.mem_of_getLast? hlookup))
  · apply Collectable.sequence
    intro item hitem
    obtain ⟨i, -, rfl⟩ := List.mem_map.mp hitem
    exact ⟨i.1, rfl⟩

/-- The details in the last value of a column. -/
def lastDetails (values : List Node) : Option (List Entry) :=
  match values.getLast? with
  | some (.map details) => some details
  | _ => none

omit yaml in
theorem detailsOf_resultNode (items : OptionList) (name : Str) :
    detailsOf (resultNode items) name = lastDetails (column items name) := by
  unfold resultNode
  split
  · rw [detailsOf, lookup_foldl_setKey, lookup_nil, Option.or_none]
    rfl
  · rename_i hnone
    unfold lastDetails
    split
    · rename_i details hlast
      refine absurd ?_ hnone
      exact List.any_eq_true.mpr ⟨_, mem_column.mp (List.mem_of_getLast? hlast), rfl⟩
    · rfl

/-! ## One override -/

/-- What `mergeOption` makes of two values of one name. -/
def mergeValue (b o : Node) : Except Str Node :=
  if b.isMap ∧ o.isMap then mergeNode b o else if !o.isNull then .ok o else .ok b

/-- An override changes the first value of its name, or is the first. -/
def mergeHead (values : List Node) (o : Node) : Except Str (List Node) :=
  match values with
  | [] => .ok [o]
  | b :: rest => do return (← mergeValue b o) :: rest

theorem mergeOption_cons (o b : Str × Node) (rest : OptionList) :
    mergeOption o (b :: rest) =
      if b.1 ≠ o.1 then do return b :: (← mergeOption o rest)
      else do return (b.1, ← mergeValue b.2 o.2) :: rest := by
  unfold mergeValue
  rw [mergeOption]
  split
  · rfl
  · split
    · rfl
    · split <;> rfl

theorem column_mergeOption {o : Str × Node} {items merged : OptionList}
    (h : mergeOption o items = .ok merged) :
    mergeHead (column items o.1) o.2 = .ok (column merged o.1) ∧
      ∀ name, o.1 ≠ name → column merged name = column items name := by
  induction items generalizing merged with
  | nil =>
      obtain rfl := Except.ok.inj h
      refine ⟨?_, fun name hname => column_cons_ne hname []⟩
      rw [column_cons_self]
      rfl
  | cons b rest ih =>
      rw [mergeOption_cons] at h
      split at h
      · rename_i hne
        obtain ⟨merged', hrest, h⟩ := bind_eq_ok.mp h
        obtain rfl := Except.ok.inj h
        obtain ⟨hhead, hother⟩ := ih hrest
        rw [column_cons_ne hne, column_cons_ne hne]
        refine ⟨hhead, fun name hname => ?_⟩
        rw [column_cons, column_cons, hother name hname]
      · rename_i hsame
        rw [not_not] at hsame
        obtain ⟨value, hvalue, h⟩ := bind_eq_ok.mp h
        obtain rfl := Except.ok.inj h
        constructor
        · rw [← hsame, column_cons_self, column_cons, if_pos rfl, mergeHead, hvalue]
          rfl
        · intro name hname
          rw [column_cons_ne (hsame ▸ hname), column_cons_ne (hsame ▸ hname)]

theorem exists_mergeOption {o : Str × Node} (h : Plain o.2) (items : OptionList) :
    ∃ merged, mergeOption o items = .ok merged := by
  induction items with
  | nil => exact ⟨[o], rfl⟩
  | cons b rest ih =>
      rw [mergeOption_cons]
      split
      · obtain ⟨merged, hmerged⟩ := ih
        exact ⟨b :: merged, by rw [hmerged]; rfl⟩
      · obtain ⟨value, hvalue⟩ : ∃ value, mergeValue b.2 o.2 = .ok value := by
          unfold mergeValue
          split
          · exact h.exists_mergeNode b.2
          · split <;> exact ⟨_, rfl⟩
        exact ⟨_, by rw [hvalue]; rfl⟩

theorem column_foldlM {overrides items merged : OptionList}
    (h : overrides.foldlM (fun items o => mergeOption o items) items = .ok merged) (name : Str) :
    (column overrides name).foldlM mergeHead (column items name) = .ok (column merged name) := by
  induction overrides generalizing items with
  | nil =>
      obtain rfl := Except.ok.inj h
      rfl
  | cons o rest ih =>
      rw [List.foldlM_cons] at h
      obtain ⟨next, hnext, h⟩ := bind_eq_ok.mp h
      obtain ⟨hhead, hother⟩ := column_mergeOption hnext
      by_cases hname : o.1 = name
      · subst hname
        rw [column_cons_self, List.foldlM_cons, hhead, ok_bind]
        exact ih h
      · rw [column_cons_ne hname, ← hother name hname]
        exact ih h

theorem exists_foldlM_mergeOption {overrides : OptionList} (h : ∀ o ∈ overrides, Plain o.2)
    (items : OptionList) :
    ∃ merged, overrides.foldlM (fun items o => mergeOption o items) items = .ok merged := by
  induction overrides generalizing items with
  | nil => exact ⟨items, rfl⟩
  | cons o rest ih =>
      obtain ⟨next, hnext⟩ := exists_mergeOption (h o (by simp)) items
      rw [List.foldlM_cons, hnext, ok_bind]
      exact ih (fun o' ho' => h o' (List.mem_cons_of_mem o ho')) next

/-! ## The column of a name -/

theorem mergeValue_null (b : Node) : mergeValue b .null = .ok b := by
  simp [mergeValue, Node.isMap, Node.isNull]

theorem foldlM_mergeHead_null (n : Nat) (b : Node) (rest : List Node) :
    (List.replicate n .null).foldlM mergeHead (b :: rest) = .ok (b :: rest) := by
  induction n with
  | zero => rfl
  | succ n ih =>
      rw [List.replicate_succ, List.foldlM_cons, mergeHead, mergeValue_null, ok_bind, pure_bind]
      exact ih

/-- Only null is given twice by an override, and the second time it changes nothing. -/
theorem foldlM_mergeHead_replicate {n : Nat} {o : Node} (h : 2 ≤ n + 1 → o = .null)
    (values : List Node) :
    (List.replicate (n + 1) o).foldlM mergeHead values = mergeHead values o := by
  rw [List.replicate_succ, List.foldlM_cons]
  cases n with
  | zero => exact bind_pure _
  | succ n =>
      obtain rfl := h (by omega)
      cases values with
      | nil =>
          rw [mergeHead, ok_bind]
          exact foldlM_mergeHead_null _ _ _
      | cons b rest =>
          rw [mergeHead, mergeValue_null, ok_bind]
          exact foldlM_mergeHead_null _ _ _

/-- The column of a name that stands `k` times with `x` and then `j` times with `y`. -/
theorem mergedColumn_cases {k j : Nat} {x y : Node} {values : List Node}
    (hy : 2 ≤ j → y = .null)
    (h : (List.replicate j y).foldlM mergeHead (List.replicate k x) = .ok values) :
    j = 0 ∧ values = List.replicate k x ∨ 0 < j ∧ k = 0 ∧ values = [y] ∨
      0 < j ∧ 0 < k ∧ ∃ z, mergeValue x y = .ok z ∧ values = z :: List.replicate (k - 1) x := by
  cases j with
  | zero => exact .inl ⟨rfl, (Except.ok.inj h).symm⟩
  | succ j =>
      rw [foldlM_mergeHead_replicate hy] at h
      right
      cases k with
      | zero => exact .inl ⟨by omega, rfl, (Except.ok.inj h).symm⟩
      | succ k =>
          obtain ⟨z, hz, h⟩ := bind_eq_ok.mp h
          exact .inr ⟨by omega, by omega, z, hz, (Except.ok.inj h).symm⟩

/-- The details of one name on both sides and in the result. -/
def MergedDetails (repeated : Prop) (b o r : Option (List Entry)) : Prop :=
  match b, o with
  | some x, some y => ∃ z, mergeEntries x y = .ok z ∧ r = some z
  | some x, none => r = some x
  | none, some y => (repeated → r = none) ∧ (¬repeated → r = some y)
  | none, none => r = none

/-- What the merge of two nodes of options is. -/
structure Merged (b o r : Node) : Prop where
  collectable : Collectable r
  listed : isListed r = true ↔ ∀ name, detailsOf b name = none ∧ detailsOf o name = none
  taken : takenNames r = optionNames r
  names : ∀ name, name ∈ takenNames r ↔ name ∈ takenNames b ∨ name ∈ takenNames o
  details : ∀ name, MergedDetails (2 ≤ (takenNames b).count name) (detailsOf b name)
    (detailsOf o name) (detailsOf r name)

omit yaml in
@[simp] theorem lastDetails_singleton (details : List Entry) :
    lastDetails [.map details] = some details := rfl

omit yaml in
theorem lastDetails_nulls (n : Nat) : lastDetails (List.replicate n .null) = none := by
  cases n with
  | zero => rfl
  | succ n => rw [lastDetails, List.getLast?_replicate]; rfl

omit yaml in
theorem lastDetails_cons_null (value : Node) (n : Nat) :
    lastDetails (value :: List.replicate (n + 1) .null) = none := by
  rw [List.replicate_succ, lastDetails, List.getLast?_cons_cons, ← List.replicate_succ]
  exact lastDetails_nulls (n + 1)

omit yaml in
theorem valueNode_of_details {v : Node} {name : Str} {details : List Entry}
    (h : detailsOf v name = some details) : valueNode v name = .map details := by
  rw [valueNode, h]

omit yaml in
theorem valueNode_of_none {v : Node} {name : Str} (h : detailsOf v name = none) :
    valueNode v name = .null := by
  rw [valueNode, h]

omit yaml in
theorem isListed_of_details {v : Node} {name : Str} {details : List Entry}
    (h : detailsOf v name = some details) : isListed v = false := by
  cases v <;> first | rfl | contradiction

theorem mem_takenNames_of_details {v : Node} (hv : Collectable v) {name : Str}
    {details : List Entry} (h : detailsOf v name = some details) : name ∈ takenNames v := by
  cases hv with
  | scalar text => contradiction
  | sequence _ => contradiction
  | map hkeyed _ =>
      rw [detailsOf_map_eq_some] at h
      rw [takenNames, mem_optionNames_map hkeyed.scalar, h]
      · rfl
      · simp

theorem Collects.count_eq_one {v : Node} {items : OptionList} (h : Collects v items)
    (hv : Collectable v) {name : Str} {details : List Entry}
    (hdetails : detailsOf v name = some details) : (takenNames v).count name = 1 :=
  List.count_eq_one_of_mem (h.distinct (isListed_of_details hdetails))
    (mem_takenNames_of_details hv hdetails)

theorem mergeValue_maps {x y : List Entry} {z : Node} (h : mergeValue (.map x) (.map y) = .ok z) :
    ∃ merged, mergeEntries x y = .ok merged ∧ z = .map merged := by
  obtain ⟨merged, hmerged, hz⟩ := bind_eq_ok.mp h
  exact ⟨merged, hmerged, (Except.ok.inj hz).symm⟩

theorem mergedDetails_of_column {b o : Node} {bs os : OptionList} (hb : Collectable b)
    (ho : Collectable o) (hbs : Collects b bs) (hos : Collects o os) {name : Str}
    {values : List Node}
    (h : (column os name).foldlM mergeHead (column bs name) = .ok values) :
    MergedDetails (2 ≤ (takenNames b).count name) (detailsOf b name) (detailsOf o name)
      (lastDetails values) := by
  rw [hbs.column, hos.column] at h
  cases hdb : detailsOf b name with
  | some x =>
      rw [valueNode_of_details hdb, hbs.count_eq_one hb hdb] at h
      cases hdo : detailsOf o name with
      | some y =>
          rw [valueNode_of_details hdo, hos.count_eq_one ho hdo] at h
          obtain ⟨hcontra, -⟩ | ⟨-, hcontra, -⟩ | ⟨-, -, z, hz, rfl⟩ :=
            mergedColumn_cases (by omega) h
          · contradiction
          · contradiction
          · obtain ⟨merged, hmerged, rfl⟩ := mergeValue_maps hz
            exact ⟨merged, hmerged, rfl⟩
      | none =>
          rw [valueNode_of_none hdo] at h
          obtain ⟨-, rfl⟩ | ⟨-, hcontra, -⟩ | ⟨-, -, z, hz, rfl⟩ :=
            mergedColumn_cases (fun _ => rfl) h
          · rfl
          · contradiction
          · rw [mergeValue_null] at hz
            obtain rfl := Except.ok.inj hz
            rfl
  | none =>
      rw [valueNode_of_none hdb] at h
      cases hdo : detailsOf o name with
      | some y =>
          rw [valueNode_of_details hdo, hos.count_eq_one ho hdo] at h
          obtain ⟨hcontra, -⟩ | ⟨-, hzero, rfl⟩ | ⟨-, hpos, z, hz, rfl⟩ :=
            mergedColumn_cases (by omega) h
          · contradiction
          · exact ⟨fun hcontra => absurd hcontra (by omega), fun _ => rfl⟩
          · obtain rfl := Except.ok.inj hz
            constructor
            · intro hrepeated
              obtain ⟨n, hn⟩ : ∃ n, (takenNames b).count name - 1 = n + 1 :=
                ⟨(takenNames b).count name - 2, by omega⟩
              rw [hn, lastDetails_cons_null]
            · intro honce
              have hn : (takenNames b).count name - 1 = 0 := by omega
              rw [hn]
              rfl
      | none =>
          rw [valueNode_of_none hdo] at h
          obtain ⟨-, rfl⟩ | ⟨-, -, rfl⟩ | ⟨-, hpos, z, hz, rfl⟩ :=
            mergedColumn_cases (fun _ => rfl) h
          · exact lastDetails_nulls _
          · rfl
          · rw [mergeValue_null] at hz
            obtain rfl := Except.ok.inj hz
            rw [← List.replicate_succ]
            exact lastDetails_nulls _

omit yaml in
theorem valueNode_cases (v : Node) (name : Str) :
    (∃ details, detailsOf v name = some details ∧ valueNode v name = .map details) ∨
      detailsOf v name = none ∧ valueNode v name = .null := by
  cases h : detailsOf v name with
  | some details => exact .inl ⟨details, rfl, valueNode_of_details h⟩
  | none => exact .inr ⟨rfl, valueNode_of_none h⟩

theorem mergeValue_details {x y z : Node} (h : mergeValue x y = .ok z)
    (hx : x.isMap ∨ x.isNull) (hy : y.isMap ∨ y.isNull) :
    (z.isMap ∨ z.isNull) ∧ (z.isNull ↔ x.isNull ∧ y.isNull) := by
  unfold mergeValue at h
  cases x with
  | map xs =>
      cases y with
      | map ys =>
          obtain ⟨merged, -, rfl⟩ := mergeValue_maps h
          simp [Node.isMap, Node.isNull]
      | null =>
          obtain rfl := Except.ok.inj h
          simp [Node.isMap, Node.isNull]
      | scalar text => simp [Node.isMap, Node.isNull] at hy
      | sequence items => simp [Node.isMap, Node.isNull] at hy
  | null =>
      cases y with
      | map ys =>
          obtain rfl := Except.ok.inj h
          simp [Node.isMap, Node.isNull]
      | null =>
          obtain rfl := Except.ok.inj h
          simp [Node.isMap, Node.isNull]
      | scalar text => simp [Node.isMap, Node.isNull] at hy
      | sequence items => simp [Node.isMap, Node.isNull] at hy
  | scalar text => simp [Node.isMap, Node.isNull] at hx
  | sequence items => simp [Node.isMap, Node.isNull] at hx

/-- What a merged column holds, and when it holds anything but nulls. -/
structure ColumnFacts (k j : Nat) (x y : Node) (values : List Node) : Prop where
  shape : ∀ value ∈ values, value.isMap ∨ value.isNull
  nil : values = [] ↔ k = 0 ∧ j = 0
  nulls : (∀ value ∈ values, value.isNull) ↔ (k = 0 ∨ x.isNull) ∧ (j = 0 ∨ y.isNull)

theorem columnFacts {k j : Nat} {x y : Node} {values : List Node}
    (hx : x.isMap ∨ x.isNull) (hy : y.isMap ∨ y.isNull) (hk : 2 ≤ k → x = .null)
    (hj : 2 ≤ j → y = .null)
    (h : (List.replicate j y).foldlM mergeHead (List.replicate k x) = .ok values) :
    ColumnFacts k j x y values := by
  obtain ⟨rfl, rfl⟩ | ⟨hpos, rfl, rfl⟩ | ⟨hpos, hkpos, z, hz, rfl⟩ := mergedColumn_cases hj h
  · constructor
    · intro value hvalue
      rwa [List.eq_of_mem_replicate hvalue]
    · simp
    · rw [List.forall_mem_replicate]
      simp
  · have hne : j ≠ 0 := by omega
    constructor
    · intro value hvalue
      rwa [List.mem_singleton.mp hvalue]
    · simp [hne]
    · simp [hne]
  · obtain ⟨hshape, hnull⟩ := mergeValue_details hz hx hy
    have hkne : k ≠ 0 := by omega
    have hjne : j ≠ 0 := by omega
    constructor
    · intro value hvalue
      rcases List.mem_cons.mp hvalue with rfl | hvalue
      · exact hshape
      · rwa [List.eq_of_mem_replicate hvalue]
    · simp [hkne]
    · rw [List.forall_mem_cons, List.forall_mem_replicate, hnull]
      tauto

theorem Collects.count_le_one {v : Node} {items : OptionList} (h : Collects v items)
    (name : Str) : 2 ≤ (takenNames v).count name → valueNode v name = .null := by
  intro hcount
  obtain ⟨details, hdetails, -⟩ | ⟨-, hnull⟩ := valueNode_cases v name
  · have hone := List.nodup_iff_count_le_one.mp (h.distinct (isListed_of_details hdetails)) name
    omega
  · exact hnull

theorem foldlM_mergeOption_facts {b o : Node} {bs os merged : OptionList} (hbs : Collects b bs)
    (hos : Collects o os)
    (h : os.foldlM (fun items o => mergeOption o items) bs = .ok merged) (name : Str) :
    ColumnFacts ((takenNames b).count name) ((takenNames o).count name) (valueNode b name)
      (valueNode o name) (column merged name) := by
  have hshape : ∀ v, (valueNode v name).isMap ∨ (valueNode v name).isNull := by
    intro v
    obtain ⟨details, -, hmap⟩ | ⟨-, hnull⟩ := valueNode_cases v name
    · rw [hmap]
      exact .inl rfl
    · rw [hnull]
      exact .inr rfl
  have hcolumn := column_foldlM h name
  rw [hbs.column, hos.column] at hcolumn
  exact columnFacts (hshape b) (hshape o) (hbs.count_le_one name) (hos.count_le_one name) hcolumn

theorem isNull_valueNode {v : Node} (hv : Collectable v) (name : Str) :
    ((takenNames v).count name = 0 ∨ (valueNode v name).isNull) ↔ detailsOf v name = none := by
  obtain ⟨details, hdetails, hmap⟩ | ⟨hnone, hnull⟩ := valueNode_cases v name
  · have hmem := mem_takenNames_of_details hv hdetails
    rw [hdetails, hmap, List.count_eq_zero]
    simp [hmem, Node.isNull]
  · simp [hnone, hnull, Node.isNull]

omit yaml in
theorem hasDetails_eq_false (items : OptionList) :
    (!hasDetails items) = true ↔ ∀ name, ∀ value ∈ column items name, value.isNull = true := by
  rw [Bool.not_eq_true', hasDetails, List.any_eq_false]
  constructor
  · intro h name value hvalue
    simpa using h _ (mem_column.mp hvalue)
  · intro h i hi
    simpa using h i.1 i.2 (mem_column.mpr hi)

/-- The merge of two nodes of options, when the details of the override are plain. -/
theorem exists_mergeOptions {b o : Node} (hb : Collectable b) (ho : Collectable o)
    (hplain : ∀ name details, detailsOf o name = some details → Plain (.map details)) :
    ∃ r, mergeOptions b o = .ok r ∧ Merged b o r := by
  obtain ⟨bs, hbs, hbItems⟩ := collectOptions_eq hb "base spec"
  obtain ⟨os, hos, hoItems⟩ := collectOptions_eq ho "override"
  have hvalues : ∀ i ∈ os, Plain i.2 := by
    intro i hi
    rw [hoItems.values i hi]
    obtain ⟨details, hdetails, hmap⟩ | ⟨-, hnull⟩ := valueNode_cases o i.1
    · rw [hmap]
      exact hplain i.1 details hdetails
    · rw [hnull]
      exact .null
  obtain ⟨merged, hmerged⟩ := exists_foldlM_mergeOption hvalues bs
  have hfacts := foldlM_mergeOption_facts hbItems hoItems hmerged
  refine ⟨resultNode merged, ?_, ?_⟩
  · rw [mergeOptions, hbs, ok_bind, hos, ok_bind, hmerged, ok_bind]
    unfold resultNode hasDetails
    split <;> rfl
  · constructor
    · apply collectable_resultNode
      intro i hi
      exact (hfacts i.1).shape _ (mem_column.mpr hi)
    · rw [isListed_resultNode, hasDetails_eq_false]
      refine forall_congr' (fun name => ?_)
      rw [(hfacts name).nulls, isNull_valueNode hb, isNull_valueNode ho]
    · exact takenNames_resultNode merged
    · intro name
      rw [takenNames_resultNode, mem_optionNames_resultNode, ← not_iff_not, ← column_eq_nil_iff,
        (hfacts name).nil, List.count_eq_zero, List.count_eq_zero, not_or]
    · intro name
      rw [detailsOf_resultNode]
      exact mergedDetails_of_column hb ho hbItems hoItems (column_foldlM hmerged name)

end Merging

end Crate.Profile
