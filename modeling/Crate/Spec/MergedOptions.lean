import Crate.Spec.MergedDetails

/-!
# Options keep their meaning when they are merged

The merge takes options by their names and knows three forms for them.  It
relies on the parser: that it splits names as the merge does, that a bare name
means the same in a list and in a map, and that details can be joined key by
key.  Where the parser bears this out, a merged document means what its two
sides mean, and merging the override again changes nothing.
-/

namespace Crate.SpecParser

open Crate.Foundation
open Crate.Spec
open Crate.Yaml
open Crate.Profile

section Merging

variable [yaml : YamlCpp]

/-! ## The meaning of a merge -/

/-- The details of an option in a specification with `tor`, which implies the WAN. -/
def withTor (spec : Spec) (x : Option OptDetails) : Option OptDetails :=
  beside (spec.options.find? "tor").isSome x

/-- The merged document means what the two documents mean, name by name. -/
structure Preserved (vb vo : Node) (sb so : Spec) (merged : Node) (spec : Spec) : Prop where
  names : ∀ name, (spec.options.find? name).isSome ↔
    (sb.options.find? name).isSome ∨ (so.options.find? name).isSome
  base : ∀ name ∈ optionNames vb, name ∉ optionNames vo →
    spec.options.find? name = (sb.options.find? name).map (withTor spec)
  override : ∀ name ∈ optionNames vo, name ∉ optionNames vb →
    spec.options.find? name = (so.options.find? name).map (withTor spec)
  again : ∃ twice, mergeYaml merged (optionsDoc vo) = .ok twice ∧ parseSpecFromNode twice = .ok spec

/-- The merge of the two documents is accepted, and its meaning is theirs. -/
def MergePreserves (vb vo : Node) (sb so : Spec) : Prop :=
  ∃ merged spec, mergeYaml (optionsDoc vb) (optionsDoc vo) = .ok merged ∧
    parseSpecFromNode merged = .ok spec ∧ Preserved vb vo sb so merged spec

/-! ## When it is kept -/

/-- A list with an empty item, which the parser reads as the word `null`. -/
def hasNullItem : Node → Bool
  | .sequence items => items.any Node.isNull
  | _ => false

def giveDetails : Node → Bool
  | .map entries => entries.any (fun e => e.2.isMap)
  | _ => false

/-- Names with the `net` that `tor` brings. -/
def impliedNames (names : List Str) : List Str :=
  if ("tor" : Str) ∈ names then "net" :: names else names

/-- Whether the merge is written as a list, and whether it has `tor`. -/
def mergedListed (vb vo : Node) : Bool := !(giveDetails vb || giveDetails vo)

def mergedTor (vb vo : Node) : Bool := hasTor vb || hasTor vo

/-- What the merge relies on. -/
structure Mergeable (vb vo : Node) : Prop where
  baseItems : hasNullItem vb = false
  overrideItems : hasNullItem vo = false
  names : ∀ name, name ∈ impliedNames (takenNames vb ++ takenNames vo) ↔
    name ∈ impliedNames (optionNames vb ++ optionNames vo)
  known : mergedListed vb vo = false →
    ∀ name ∈ takenNames vb ++ takenNames vo, name ∈ allOptionsLst
  baseBare : ∀ name ∈ optionNames vb, name ∉ optionNames vo → detailsOf vb name = none →
    bare (isListed vb) (hasTor vb) name = bare (mergedListed vb vo) (mergedTor vb vo) name
  overrideBare : ∀ name ∈ optionNames vo, name ∉ optionNames vb → detailsOf vo name = none →
    bare (isListed vo) (hasTor vo) name = bare (mergedListed vb vo) (mergedTor vb vo) name
  outbound : ∀ x y, detailsOf vb "net" = some x → detailsOf vo "net" = some y → OutboundAgree x y
  repeated : ∀ name y x, 2 ≤ (takenNames vb).count name → detailsOf vo name = some y →
    readDetails name y = .ok x →
      beside (mergedTor vb vo) x = beside (mergedTor vb vo) (bare false (mergedTor vb vo) name)

/-! ## Both documents -/

theorem mergeYaml_optionsDoc (vb vo : Node) :
    mergeYaml (optionsDoc vb) (optionsDoc vo) = (mergeOptions vb vo).map optionsDoc := by
  unfold mergeYaml optionsDoc
  simp only [List.foldlM_cons, List.foldlM_nil, mergeTopEntry, lookup_cons, keyIs_scalar,
    decide_true, if_true, setKey]
  cases mergeOptions vb vo <;> rfl

theorem collectable_of_accepted {v : Node} (h : Accepted v) (hunique : UniqueKeys v)
    (hitems : hasNullItem v = false) : Collectable v := by
  cases v with
  | null =>
      obtain ⟨update, h⟩ := h
      simp [readOptions, listOrScalar, err, raise] at h
  | scalar text => exact .scalar text
  | sequence items =>
      refine .sequence (fun item hitem => ?_)
      obtain ⟨text, htext⟩ := accepted_sequence_iff.mp h item hitem
      refine ⟨text, ?_⟩
      have hnull : item.isNull = false := by
        simpa using List.any_eq_false.mp hitems item hitem
      cases item with
      | scalar other => rw [asString, Except.ok.injEq] at htext; rw [htext]
      | null => contradiction
      | sequence _ => contradiction
      | map _ => contradiction
  | map entries =>
      have hentries := (accepted_map_iff.mp h).1
      exact .map ⟨fun e he => (hentries e he).scalar, (uniqueKeys_map_iff.mp hunique).1⟩
        (fun e he => (hentries e he).val)

theorem mergeOptions_of_nullItem {vb vo : Node}
    (h : hasNullItem vb = true ∨ hasNullItem vo = true) (r : Node) :
    mergeOptions vb vo ≠ .ok r := by
  have hcollect : ∀ what v, hasNullItem v = true → ∀ items, collectOptions what v ≠ .ok items := by
    intro what v hv items hitems
    cases v with
    | sequence nodes =>
        obtain ⟨node, hnode, hnull⟩ := List.any_eq_true.mp hv
        obtain ⟨i, hi⟩ := exists_ok_of_mapM_eq_ok hitems hnode
        cases node <;> contradiction
    | _ => contradiction
  intro hmerge
  obtain ⟨bs, hbs, hmerge⟩ := bind_eq_ok.mp hmerge
  obtain ⟨os, hos, -⟩ := bind_eq_ok.mp hmerge
  rcases h with h | h
  · exact hcollect _ vb h bs hbs
  · exact hcollect _ vo h os hos

omit yaml in
theorem giveDetails_eq_false_iff {v : Node} (h : Collectable v) :
    giveDetails v = false ↔ ∀ name, detailsOf v name = none := by
  cases h with
  | scalar text => exact iff_of_true rfl (fun _ => rfl)
  | sequence _ => exact iff_of_true rfl (fun _ => rfl)
  | @map entries hkeyed hvalues =>
      rw [giveDetails, List.any_eq_false]
      constructor
      · intro hnone name
        by_contra hsome
        obtain ⟨details, hdetails⟩ := Option.ne_none_iff_exists'.mp hsome
        exact hnone _ (mem_of_lookup (detailsOf_map_eq_some.mp hdetails)) rfl
      · intro hnone e he hmap
        obtain ⟨name, hname⟩ := hkeyed.scalar e he
        have hentry : e = (.scalar name, e.2) := Prod.ext hname rfl
        have hlookup := lookup_of_mem hkeyed.distinct (hentry ▸ he)
        cases hvalue : e.2 with
        | map details =>
            rw [hvalue] at hlookup
            have hsome := detailsOf_map_eq_some.mpr hlookup
            rw [hnone name] at hsome
            contradiction
        | _ =>
            rw [hvalue] at hmap
            contradiction

/-! ## What a specification of options holds -/

omit yaml in
theorem mem_impliedNames {names : List Str} {name : Str} :
    name ∈ impliedNames names ↔ name ∈ names ∨ name = "net" ∧ ("tor" : Str) ∈ names := by
  unfold impliedNames
  split
  · rename_i htor
    rw [List.mem_cons]
    tauto
  · rename_i htor
    tauto

omit yaml in
theorem tor_mem_impliedNames {names : List Str} :
    ("tor" : Str) ∈ impliedNames names ↔ ("tor" : Str) ∈ names := by
  rw [mem_impliedNames]
  exact or_iff_left (fun h => absurd h.1 (by decide))

theorem hasTor_iff {v : Node} : hasTor v = true ↔ ("tor" : Str) ∈ optionNames v :=
  decide_eq_true_iff

theorem isSome_optionsOf {v : Node} (h : Accepted v) (name : Str) :
    (optionsOf (optionValues v) name).isSome ↔ name ∈ impliedNames (optionNames v) := by
  rw [mem_impliedNames]
  by_cases hname : name ∈ optionNames v
  · obtain ⟨x, hx⟩ := exists_valueOf h name
    rw [optionsOf_of_mem h hname hx]
    exact iff_of_true rfl (.inl hname)
  · rw [optionsOf_of_not_mem h hname, or_iff_right hname]
    split
    · rename_i htor
      exact iff_of_true rfl ⟨htor.1, hasTor_iff.mp htor.2⟩
    · rename_i htor
      exact iff_of_false (by simp) (fun hnet => htor ⟨hnet.1, hasTor_iff.mpr hnet.2⟩)

theorem find?_of_parse {v : Node} {spec : Spec} (h : parseSpecFromNode (optionsDoc v) = .ok spec) :
    Accepted v ∧ ∀ name, spec.options.find? name = optionsOf (optionValues v) name := by
  obtain ⟨update, hupdate, rfl⟩ := parse_optionsDoc.mp h
  exact ⟨⟨update, hupdate⟩, find?_readOptions hupdate⟩

theorem exists_parse {v : Node} (h : Accepted v) :
    ∃ spec, parseSpecFromNode (optionsDoc v) = .ok spec := by
  obtain ⟨update, hupdate⟩ := h
  exact ⟨_, parse_optionsDoc.mpr ⟨update, hupdate, rfl⟩⟩

/-- Two documents of options have one specification when it holds the same for both. -/
theorem parse_congr {v w : Node} {spec : Spec} (hv : parseSpecFromNode (optionsDoc v) = .ok spec)
    (hw : Accepted w) :
    parseSpecFromNode (optionsDoc w) = .ok spec ↔
      ∀ name, optionsOf (optionValues w) name = optionsOf (optionValues v) name := by
  obtain ⟨spec', hspec'⟩ := exists_parse hw
  have hfindV := (find?_of_parse hv).2
  have hfindW := (find?_of_parse hspec').2
  rw [hspec', Except.ok.injEq]
  constructor
  · rintro rfl name
    rw [← hfindW, hfindV]
  · intro h
    obtain ⟨update, -, rfl⟩ := parse_optionsDoc.mp hv
    obtain ⟨update', -, rfl⟩ := parse_optionsDoc.mp hspec'
    have hoptions : update' OrdMap.empty = update OrdMap.empty :=
      OrdMap.ext_find? (fun name => (hfindW name).trans ((h name).trans (hfindV name).symm))
    rw [hoptions]

omit yaml in
theorem openWan_bare (listed tor : Bool) (name : Str) :
    openWan (bare listed tor name) = bare listed tor name := by
  unfold bare
  split_ifs <;> rfl

omit yaml in
theorem beside_bare (tor listed tor' : Bool) (name : Str) :
    beside tor (bare listed tor' name) = bare listed tor' name := by
  rw [beside, openWan_bare, ite_self]

omit yaml in
theorem beside_beside {tor tor' : Bool} (h : tor' = true → tor = true) (x : Option OptDetails) :
    beside tor (beside tor' x) = beside tor x := by
  have hidem : openWan (openWan x) = openWan x := by
    cases x with
    | none => rfl
    | some details => cases details <;> rfl
  cases tor' with
  | false => rfl
  | true => rw [h rfl, beside, beside, if_pos rfl, if_pos rfl, hidem]

/-- A name of one side, with the same details in the merge, has the value of that side. -/
theorem optionsOf_side_iff {v r : Node} (hv : Accepted v) (hr : Accepted r) {name : Str}
    (hname : name ∈ optionNames v) (hdetails : detailsOf r name = detailsOf v name)
    (htor : hasTor v = true → hasTor r = true)
    (hin : name ∈ optionNames r ∨ isListed r = true ∧ name = "net" ∧ hasTor r = true) :
    optionsOf (optionValues r) name =
        (optionsOf (optionValues v) name).map (beside (hasTor r)) ↔
      (detailsOf v name = none →
        bare (isListed v) (hasTor v) name = bare (isListed r) (hasTor r) name) := by
  obtain ⟨x, hx⟩ := exists_valueOf hv name
  rw [optionsOf_of_mem hv hname hx, Option.map_some, beside_beside htor]
  have hbare : detailsOf v name = none → x = bare (isListed v) (hasTor v) name := by
    intro hnone
    rw [valueOf, hnone] at hx
    exact (Except.ok.inj hx).symm
  by_cases hmem : name ∈ optionNames r
  · obtain ⟨y, hy⟩ := exists_valueOf hr name
    rw [optionsOf_of_mem hr hmem hy, Option.some.injEq]
    rw [valueOf, hdetails] at hy
    cases hsome : detailsOf v name with
    | some details =>
        rw [hsome] at hy
        rw [valueOf, hsome] at hx
        obtain rfl := Except.ok.inj (hx.symm.trans hy)
        simp
    | none =>
        rw [hsome] at hy
        obtain rfl := Except.ok.inj hy
        rw [hbare hsome, beside_bare, beside_bare]
        exact ⟨fun h _ => h.symm, fun h => (h rfl).symm⟩
  · obtain ⟨hlisted, rfl, htorR⟩ := hin.resolve_left hmem
    have hnone : detailsOf v "net" = none := by
      rw [← hdetails]
      cases hsome : detailsOf r "net" with
      | none => rfl
      | some details =>
          rw [isListed_of_details hsome] at hlisted
          contradiction
    rw [optionsOf_of_not_mem hr hmem, if_pos ⟨rfl, htorR⟩, Option.some.injEq, hbare hnone,
      beside_bare, hlisted, htorR]
    exact ⟨fun h _ => h.symm, fun h => (h hnone).symm⟩

/-! ## The merge of two accepted sides -/

section Sides

variable {vb vo r : Node} (hb : Accepted vb) (ho : Accepted vo) (hvb : Collectable vb)
  (hvo : Collectable vo) (hr : Merged vb vo r)

include hvb hvo hr in
theorem isListed_merged : isListed r = mergedListed vb vo := by
  rw [Bool.eq_iff_iff, hr.listed, mergedListed, Bool.not_eq_true', Bool.or_eq_false_iff,
    giveDetails_eq_false_iff hvb, giveDetails_eq_false_iff hvo, forall_and]

include hr in
theorem mem_optionNames_merged {name : Str} :
    name ∈ optionNames r ↔ name ∈ takenNames vb ++ takenNames vo := by
  rw [← hr.taken, hr.names, List.mem_append]

theorem exists_readDetails {v : Node} (h : Accepted v) {name : Str} {details : List Entry}
    (hdetails : detailsOf v name = some details) : ∃ x, readDetails name details = .ok x := by
  obtain ⟨x, hx⟩ := exists_valueOf h name
  rw [valueOf, hdetails] at hx
  exact ⟨x, hx⟩

/-- Options in the form of the merge are accepted when they are known and have readable details. -/
theorem accepted_iff_of_collectable {v : Node} (h : Collectable v) :
    Accepted v ↔ (isListed v = false → ∀ name ∈ optionNames v, name ∈ allOptionsLst) ∧
      ∀ name details, detailsOf v name = some details → ∃ x, readDetails name details = .ok x := by
  cases h with
  | scalar text =>
      refine iff_of_true ⟨_, rfl⟩ ⟨fun h => by simp [isListed] at h, fun _ _ h => ?_⟩
      exact absurd h.symm (Option.some_ne_none _)
  | sequence hitems =>
      refine iff_of_true (accepted_sequence_iff.mpr (fun item hitem => ?_))
        ⟨fun h => by simp [isListed] at h, fun _ _ h => absurd h.symm (Option.some_ne_none _)⟩
      obtain ⟨text, rfl⟩ := hitems item hitem
      exact ⟨text, rfl⟩
  | @map entries hkeyed hvalues =>
      rw [accepted_map_iff]
      refine and_congr_left (fun _ => ?_)
      constructor
      · intro h _ name hname
        rw [mem_optionNames_map hkeyed.scalar] at hname
        obtain ⟨val, hval⟩ := Option.isSome_iff_exists.mp hname
        obtain ⟨other, hknown, hkey⟩ := (h _ (mem_of_lookup hval)).key
        exact Node.scalar.inj hkey ▸ hknown
      · intro h e he
        obtain ⟨name, hname⟩ := hkeyed.scalar e he
        have hentry : e = (.scalar name, e.2) := Prod.ext hname rfl
        have hmem : name ∈ optionNames (.map entries) := by
          rw [mem_optionNames_map hkeyed.scalar, lookup_of_mem hkeyed.distinct (hentry ▸ he)]
          rfl
        exact ⟨⟨name, h rfl name hmem, hname⟩, hvalues e he⟩

include hb ho hvb hvo hr in
theorem accepted_merged_iff (hemit : WritesApart)
    (hplain : ∀ name details, detailsOf vo name = some details → Plain (.map details)) :
    Accepted r ↔
      (mergedListed vb vo = false → ∀ name ∈ takenNames vb ++ takenNames vo,
        name ∈ allOptionsLst) ∧
      ∀ x y, detailsOf vb "net" = some x → detailsOf vo "net" = some y → OutboundAgree x y := by
  rw [accepted_iff_of_collectable hr.collectable, isListed_merged hvb hvo hr]
  simp only [mem_optionNames_merged hr]
  refine and_congr_right (fun _ => ?_)
  constructor
  · intro h x y hx hy
    have hnet := hr.details "net"
    rw [hx, hy] at hnet
    obtain ⟨z, hz, hdetails⟩ := hnet
    exact outboundAgree_of_read hemit (exists_readDetails hb hx) (exists_readDetails ho hy)
      (hplain _ y hy) hz (h _ z hdetails)
  · intro h name details hdetails
    have hname := hr.details name
    cases hx : detailsOf vb name with
    | some x =>
        cases hy : detailsOf vo name with
        | some y =>
            rw [hx, hy] at hname
            obtain ⟨z, hz, hr'⟩ := hname
            rw [hdetails, Option.some.injEq] at hr'
            subst hr'
            refine exists_readDetails_merged (exists_readDetails hb hx) (exists_readDetails ho hy)
              (hplain _ y hy) hz (fun hnet => ?_)
            subst hnet
            exact h x y hx hy
        | none =>
            rw [hx, hy] at hname
            obtain rfl := Option.some.inj (hdetails.symm.trans hname)
            exact exists_readDetails hb hx
    | none =>
        cases hy : detailsOf vo name with
        | some y =>
            rw [hx, hy] at hname
            by_cases hrepeated : 2 ≤ (takenNames vb).count name
            · rw [hname.1 hrepeated] at hdetails
              contradiction
            · obtain rfl := Option.some.inj (hdetails.symm.trans (hname.2 hrepeated))
              exact exists_readDetails ho hy
        | none =>
            rw [hx, hy] at hname
            rw [hname] at hdetails
            contradiction

/-! ## Names -/

include hb ho hr in
theorem names_merged_iff (hacc : Accepted r) :
    (∀ name, (optionsOf (optionValues r) name).isSome ↔
      (optionsOf (optionValues vb) name).isSome ∨ (optionsOf (optionValues vo) name).isSome) ↔
      ∀ name, name ∈ impliedNames (takenNames vb ++ takenNames vo) ↔
        name ∈ impliedNames (optionNames vb ++ optionNames vo) := by
  refine forall_congr' (fun name => ?_)
  rw [isSome_optionsOf hacc, isSome_optionsOf hb, isSome_optionsOf ho]
  simp only [mem_impliedNames, mem_optionNames_merged hr, List.mem_append]
  refine iff_congr Iff.rfl ?_
  tauto

include hr in
theorem hasTor_merged (hnames : ∀ name, name ∈ impliedNames (takenNames vb ++ takenNames vo) ↔
    name ∈ impliedNames (optionNames vb ++ optionNames vo)) : hasTor r = mergedTor vb vo := by
  rw [Bool.eq_iff_iff, mergedTor, Bool.or_eq_true, hasTor_iff, hasTor_iff, hasTor_iff,
    mem_optionNames_merged hr, ← tor_mem_impliedNames, hnames, tor_mem_impliedNames,
    List.mem_append]

omit yaml in
theorem splitString_of_known {text : Str} (h : text ∈ allOptionsLst) :
    Util.splitString text = [text] := by
  revert text
  decide

/-- A name that the parser splits off, and the merge does not, comes from an unknown text. -/
theorem unknown_of_not_taken {v : Node} {name : Str} (hname : name ∈ optionNames v)
    (htaken : name ∉ takenNames v) : ∃ text ∈ takenNames v, text ∉ allOptionsLst := by
  cases v with
  | scalar text =>
      refine ⟨text, List.mem_singleton_self text, fun hknown => htaken ?_⟩
      rw [optionNames, splitString_of_known hknown] at hname
      exact hname
  | _ => exact absurd hname htaken

include hr in
/-- The merge names an option of a side, or is a list with the `net` that `tor` implies. -/
theorem named_in_merged
    (hnames : ∀ name, name ∈ impliedNames (takenNames vb ++ takenNames vo) ↔
      name ∈ impliedNames (optionNames vb ++ optionNames vo))
    (hlisted : isListed r = mergedListed vb vo)
    (hknown : mergedListed vb vo = false → ∀ name ∈ takenNames vb ++ takenNames vo,
      name ∈ allOptionsLst) {v : Node} (hv : v = vb ∨ v = vo) {name : Str}
    (hname : name ∈ optionNames v) :
    name ∈ optionNames r ∨ isListed r = true ∧ name = "net" ∧ hasTor r = true := by
  have hboth : ∀ {text}, text ∈ takenNames v → text ∈ takenNames vb ++ takenNames vo := by
    intro text htext
    rcases hv with rfl | rfl
    · exact List.mem_append_left _ htext
    · exact List.mem_append_right _ htext
  have hunion : name ∈ impliedNames (optionNames vb ++ optionNames vo) := by
    rw [mem_impliedNames, List.mem_append]
    rcases hv with rfl | rfl
    · exact .inl (.inl hname)
    · exact .inl (.inr hname)
  rw [← hnames, mem_impliedNames] at hunion
  by_cases htaken : name ∈ takenNames v
  · exact .inl ((mem_optionNames_merged hr).mpr (hboth htaken))
  · rcases hunion with hin | ⟨hnet, htor⟩
    · exact .inl ((mem_optionNames_merged hr).mpr hin)
    · refine .inr ⟨?_, hnet, hasTor_iff.mpr ((mem_optionNames_merged hr).mpr htor)⟩
      obtain ⟨text, htext, hunknown⟩ := unknown_of_not_taken hname htaken
      rw [hlisted]
      by_contra hmap
      exact hunknown (hknown (Bool.eq_false_iff.mpr hmap) text (hboth htext))

theorem detailsOf_of_not_named {v : Node} (hv : Collectable v) {name : Str}
    (hname : name ∉ optionNames v) : detailsOf v name = none := by
  cases hsome : detailsOf v name with
  | none => rfl
  | some details =>
      have hmem := mem_takenNames_of_details hv hsome
      cases v with
      | map entries => exact absurd hmem hname
      | _ => contradiction

include hvo hr in
theorem detailsOf_merged_base {name : Str} (hname : name ∉ optionNames vo) :
    detailsOf r name = detailsOf vb name := by
  have h := hr.details name
  rw [detailsOf_of_not_named hvo hname] at h
  cases hx : detailsOf vb name with
  | some x =>
      rw [hx] at h
      exact h
  | none =>
      rw [hx] at h
      exact h

include hvb hr in
theorem detailsOf_merged_override {name : Str} (hname : name ∉ optionNames vb) :
    detailsOf r name = detailsOf vo name := by
  have h := hr.details name
  rw [detailsOf_of_not_named hvb hname] at h
  -- A name that is taken more than once is an item of a list, which names it.
  have honce : ¬2 ≤ (takenNames vb).count name := by
    intro htwice
    have hmem : name ∈ takenNames vb := List.count_pos_iff.mp (by omega)
    cases vb with
    | scalar text =>
        have hlength := List.count_le_length (a := name) (l := takenNames (.scalar text))
        simp only [takenNames, List.length_singleton] at hlength htwice
        omega
    | _ => exact hname hmem
  cases hy : detailsOf vo name with
  | some y =>
      rw [hy] at h
      exact h.2 honce
  | none =>
      rw [hy] at h
      exact h

/-! ## Merging the override again -/

theorem mergeNode_map_iff {x y z : List Entry} :
    mergeNode (.map x) (.map y) = .ok (.map z) ↔ mergeEntries x y = .ok z := by
  constructor
  · intro h
    obtain ⟨merged, hmerged, hz⟩ := bind_eq_ok.mp h
    obtain rfl := Node.map.inj (Except.ok.inj hz)
    exact hmerged
  · intro h
    exact bind_eq_ok.mpr ⟨z, h, rfl⟩

include hr in
theorem isListed_of_override {name : Str} {y : List Entry} (hy : detailsOf vo name = some y) :
    isListed r = false := by
  rw [Bool.eq_false_iff]
  intro hlisted
  rw [(hr.listed.mp hlisted name).2] at hy
  contradiction

include hr in
theorem detailsOf_again_of_none {r' : Node} (hr' : Merged r vo r') {name : Str} {y : List Entry}
    (hz : detailsOf r name = none) (hy : detailsOf vo name = some y) :
    detailsOf r' name = some y := by
  have h' := hr'.details name
  rw [hz, hy] at h'
  obtain ⟨items, -, hitems⟩ := collectOptions_eq hr.collectable "base spec"
  have hdistinct := hitems.distinct (isListed_of_override hr hy)
  have honce := List.nodup_iff_count_le_one.mp hdistinct name
  exact h'.2 (by omega)

include hr in
/-- Merging the override again changes nothing but the value of a repeated name. -/
theorem detailsOf_again {r' : Node} (hr' : Merged r vo r')
    (hplain : ∀ name details, detailsOf vo name = some details → Plain (.map details))
    (name : Str) :
    detailsOf r' name = detailsOf r name ∨
      ∃ y, detailsOf vo name = some y ∧ 2 ≤ (takenNames vb).count name ∧
        detailsOf r name = none ∧ detailsOf r' name = some y := by
  have h := hr.details name
  have h' := hr'.details name
  cases hy : detailsOf vo name with
  | none =>
      rw [hy] at h'
      left
      cases hz : detailsOf r name with
      | some z =>
          rw [hz] at h'
          exact h'
      | none =>
          rw [hz] at h'
          exact h'
  | some y =>
      rw [hy] at h h'
      have hy' := hplain name y hy
      cases hz : detailsOf r name with
      | some z =>
          rw [hz] at h h'
          obtain ⟨twice, htwice, hr''⟩ := h'
          have habsorbs : Absorbs (.map z) (.map y) := by
            cases hx : detailsOf vb name with
            | some x =>
                rw [hx] at h
                obtain ⟨merged, hmerged, hsame⟩ := h
                obtain rfl := Option.some.inj hsame
                exact hy'.absorbs (.map x) (.map z) (mergeNode_map_iff.mpr hmerged)
            | none =>
                rw [hx] at h
                by_cases hrepeated : 2 ≤ (takenNames vb).count name
                · exact nomatch h.1 hrepeated
                · obtain rfl := Option.some.inj (h.2 hrepeated)
                  exact hy'.absorbs_self
          obtain rfl := Except.ok.inj ((mergeNode_map_iff.mp habsorbs).symm.trans htwice)
          exact .inl hr''
      | none =>
          rw [hz] at h
          refine .inr ⟨y, rfl, ?_, rfl, detailsOf_again_of_none hr hr' hz hy⟩
          cases hx : detailsOf vb name with
          | some x =>
              rw [hx] at h
              obtain ⟨merged, -, hsame⟩ := h
              contradiction
          | none =>
              rw [hx] at h
              by_contra hrepeated
              exact nomatch h.2 hrepeated

include hr in
theorem optionNames_again {r' : Node} (hr' : Merged r vo r') {name : Str} :
    name ∈ optionNames r' ↔ name ∈ optionNames r := by
  rw [mem_optionNames_merged hr', mem_optionNames_merged hr, List.mem_append, List.mem_append,
    hr.names, or_assoc, or_self_iff]

include hr in
theorem isListed_again {r' : Node} (hr' : Merged r vo r') : isListed r' = isListed r := by
  rw [Bool.eq_iff_iff, hr'.listed, hr.listed]
  refine forall_congr' (fun name => and_congr_left (fun hnone => ?_))
  have h := hr.details name
  rw [hnone] at h
  cases hx : detailsOf vb name with
  | some x =>
      rw [hx] at h
      simp [show detailsOf r name = some x from h]
  | none =>
      rw [hx] at h
      simp [show detailsOf r name = none from h]

include hr in
theorem hasTor_again {r' : Node} (hr' : Merged r vo r') : hasTor r' = hasTor r := by
  rw [Bool.eq_iff_iff, hasTor_iff, hasTor_iff, optionNames_again hr hr']

include hr in
theorem valueOf_again {r' : Node} (hr' : Merged r vo r') {name : Str}
    (hdetails : detailsOf r' name = detailsOf r name) : valueOf r' name = valueOf r name := by
  rw [valueOf, valueOf, hdetails, isListed_again hr hr', hasTor_again hr hr']

include ho hr in
theorem accepted_again {r' : Node} (hr' : Merged r vo r') (hacc : Accepted r)
    (hplain : ∀ name details, detailsOf vo name = some details → Plain (.map details)) :
    Accepted r' := by
  rw [accepted_iff_of_collectable hr.collectable] at hacc
  rw [accepted_iff_of_collectable hr'.collectable, isListed_again hr hr']
  constructor
  · intro hmap name hname
    exact hacc.1 hmap name ((optionNames_again hr hr').mp hname)
  · intro name details hdetails
    rcases detailsOf_again hr hr' hplain name with hsame | ⟨y, hy, -, -, hr''⟩
    · exact hacc.2 name details (hsame ▸ hdetails)
    · obtain rfl := Option.some.inj (hdetails.symm.trans hr'')
      exact exists_readDetails ho hy

include hvb hr in
/-- A name that the base lists twice loses the details that the override gives it. -/
theorem detailsOf_repeated {name : Str} {y : List Entry}
    (htwice : 2 ≤ (takenNames vb).count name) (hy : detailsOf vo name = some y) :
    detailsOf r name = none := by
  have h := hr.details name
  obtain ⟨items, -, hitems⟩ := collectOptions_eq hvb "base spec"
  cases hx : detailsOf vb name with
  | some x =>
      have hone := hitems.count_eq_one hvb hx
      omega
  | none =>
      rw [hx, hy] at h
      exact h.1 htwice

include ho hvb hvo hr in
theorem again_iff (hacc : Accepted r) (htor : hasTor r = mergedTor vb vo) {spec : Spec}
    (hspec : parseSpecFromNode (optionsDoc r) = .ok spec)
    (hplain : ∀ name details, detailsOf vo name = some details → Plain (.map details)) :
    (∃ twice, mergeYaml (optionsDoc r) (optionsDoc vo) = .ok twice ∧
      parseSpecFromNode twice = .ok spec) ↔
      ∀ name y x, 2 ≤ (takenNames vb).count name → detailsOf vo name = some y →
        readDetails name y = .ok x →
          beside (mergedTor vb vo) x = beside (mergedTor vb vo) (bare false (mergedTor vb vo) name)
      := by
  obtain ⟨r', hmerge, hr'⟩ := exists_mergeOptions hr.collectable hvo hplain
  have hacc' := accepted_again ho hr hr' hacc hplain
  have hyaml : mergeYaml (optionsDoc r) (optionsDoc vo) = .ok (optionsDoc r') := by
    rw [mergeYaml_optionsDoc, hmerge]
    rfl
  simp only [hyaml, Except.ok.injEq, exists_eq_left']
  rw [parse_congr hspec hacc']
  have htor' := hasTor_again hr hr'
  constructor
  · intro h name y x htwice hy hx
    have hmem : name ∈ optionNames r := by
      rw [mem_optionNames_merged hr]
      exact List.mem_append_left _ (List.count_pos_iff.mp (by omega))
    have hnone := detailsOf_repeated hvb hr htwice hy
    have hvalue : valueOf r name = .ok (bare false (mergedTor vb vo) name) := by
      rw [valueOf, hnone, isListed_of_override hr hy, htor]
    have hvalue' : valueOf r' name = .ok x := by
      rw [valueOf, detailsOf_again_of_none hr hr' hnone hy]
      exact hx
    have hsame := h name
    rw [optionsOf_of_mem hacc' ((optionNames_again hr hr').mpr hmem) hvalue',
      optionsOf_of_mem hacc hmem hvalue, Option.some.injEq, htor', htor] at hsame
    exact hsame
  · intro h name
    by_cases hmem : name ∈ optionNames r
    · have hmem' := (optionNames_again hr hr').mpr hmem
      obtain ⟨value, hvalue⟩ := exists_valueOf hacc name
      rcases detailsOf_again hr hr' hplain name with hsame | ⟨y, hy, htwice, hnone, hr''⟩
      · rw [optionsOf_of_mem hacc hmem hvalue, optionsOf_of_mem hacc' hmem'
          ((valueOf_again hr hr' hsame).trans hvalue), htor']
      · obtain ⟨x, hx⟩ := exists_readDetails ho hy
        have hvalue' : valueOf r' name = .ok x := by
          rw [valueOf, hr'']
          exact hx
        rw [valueOf, hnone, isListed_of_override hr hy, htor] at hvalue
        obtain rfl := Except.ok.inj hvalue
        rw [optionsOf_of_mem hacc' hmem' hvalue', htor', htor, h name y x htwice hy hx, ← htor]
        refine (optionsOf_of_mem hacc hmem ?_).symm
        rw [valueOf, hnone, isListed_of_override hr hy]
    · have hmem' : name ∉ optionNames r' := fun hin => hmem ((optionNames_again hr hr').mp hin)
      rw [optionsOf_of_not_mem hacc hmem, optionsOf_of_not_mem hacc' hmem', htor']

theorem hasTor_le_merged {v : Node} (hv : v = vb ∨ v = vo) (h : hasTor v = true) :
    mergedTor vb vo = true := by
  rcases hv with rfl | rfl <;> simp [mergedTor, h]

theorem withTor_eq {spec : Spec} (hspec : parseSpecFromNode (optionsDoc r) = .ok spec) :
    withTor spec = beside (hasTor r) := by
  obtain ⟨hacc, hfind⟩ := find?_of_parse hspec
  have htor : (spec.options.find? "tor").isSome = hasTor r := by
    rw [Bool.eq_iff_iff, hfind, isSome_optionsOf hacc, tor_mem_impliedNames, hasTor_iff]
  unfold withTor
  rw [htor]

include hb ho hvb hvo hr in
/-- What is left of the conditions once the merge is accepted under the right names. -/
theorem preserved_iff {sb so spec : Spec}
    (hfindB : ∀ name, sb.options.find? name = optionsOf (optionValues vb) name)
    (hfindO : ∀ name, so.options.find? name = optionsOf (optionValues vo) name)
    (hplain : ∀ name details, detailsOf vo name = some details → Plain (.map details))
    (hspec : parseSpecFromNode (optionsDoc r) = .ok spec)
    (hknown : mergedListed vb vo = false → ∀ name ∈ takenNames vb ++ takenNames vo,
      name ∈ allOptionsLst)
    (hnames : ∀ name, name ∈ impliedNames (takenNames vb ++ takenNames vo) ↔
      name ∈ impliedNames (optionNames vb ++ optionNames vo)) :
    Preserved vb vo sb so (optionsDoc r) spec ↔
      (∀ name ∈ optionNames vb, name ∉ optionNames vo → detailsOf vb name = none →
        bare (isListed vb) (hasTor vb) name = bare (mergedListed vb vo) (mergedTor vb vo) name) ∧
      (∀ name ∈ optionNames vo, name ∉ optionNames vb → detailsOf vo name = none →
        bare (isListed vo) (hasTor vo) name = bare (mergedListed vb vo) (mergedTor vb vo) name) ∧
      ∀ name y x, 2 ≤ (takenNames vb).count name → detailsOf vo name = some y →
        readDetails name y = .ok x →
          beside (mergedTor vb vo) x = beside (mergedTor vb vo) (bare false (mergedTor vb vo) name)
      := by
  obtain ⟨hacc, hfind⟩ := find?_of_parse hspec
  have hlisted := isListed_merged hvb hvo hr
  have htor := hasTor_merged hr hnames
  have hwith := withTor_eq hspec
  have hside : ∀ {v}, v = vb ∨ v = vo → Accepted v → ∀ {name}, name ∈ optionNames v →
      detailsOf r name = detailsOf v name →
      (optionsOf (optionValues r) name =
          (optionsOf (optionValues v) name).map (beside (hasTor r)) ↔
        (detailsOf v name = none →
          bare (isListed v) (hasTor v) name =
            bare (mergedListed vb vo) (mergedTor vb vo) name)) := by
    intro v hv haccV name hname hdetails
    rw [optionsOf_side_iff haccV hacc hname hdetails
      (fun h => htor ▸ hasTor_le_merged hv h)
      (named_in_merged hr hnames hlisted hknown hv hname), hlisted, htor]
  have hbase : ∀ name ∈ optionNames vb, name ∉ optionNames vo → (spec.options.find? name =
      (sb.options.find? name).map (withTor spec) ↔ (detailsOf vb name = none →
        bare (isListed vb) (hasTor vb) name =
          bare (mergedListed vb vo) (mergedTor vb vo) name)) := by
    intro name hname hother
    rw [hfind, hfindB, hwith]
    exact hside (.inl rfl) hb hname (detailsOf_merged_base hvo hr hother)
  have hoverride : ∀ name ∈ optionNames vo, name ∉ optionNames vb → (spec.options.find? name =
      (so.options.find? name).map (withTor spec) ↔ (detailsOf vo name = none →
        bare (isListed vo) (hasTor vo) name =
          bare (mergedListed vb vo) (mergedTor vb vo) name)) := by
    intro name hname hother
    rw [hfind, hfindO, hwith]
    exact hside (.inr rfl) ho hname (detailsOf_merged_override hvb hr hother)
  have hagain := again_iff ho hvb hvo hr hacc htor hspec hplain
  constructor
  · rintro ⟨-, hb', ho', htwice⟩
    exact ⟨fun name hname hother => (hbase name hname hother).mp (hb' name hname hother),
      fun name hname hother => (hoverride name hname hother).mp (ho' name hname hother),
      hagain.mp htwice⟩
  · rintro ⟨hb', ho', hrepeated⟩
    constructor
    · intro name
      rw [hfind, hfindB, hfindO]
      exact (names_merged_iff hb ho hr hacc).mpr hnames name
    · exact fun name hname hother => (hbase name hname hother).mpr (hb' name hname hother)
    · exact fun name hname hother => (hoverride name hname hother).mpr (ho' name hname hother)
    · exact hagain.mpr hrepeated

end Sides

/-! ## The main result -/

theorem plain_details {v : Node} (h : Accepted v) (hunique : UniqueKeys v) (name : Str)
    (details : List Entry) (hdetails : detailsOf v name = some details) :
    Plain (.map details) := by
  refine plain_of_read (exists_readDetails h hdetails) ?_
  cases v with
  | map entries =>
      have hmem := mem_of_lookup (detailsOf_map_eq_some.mp hdetails)
      exact (uniqueKeys_map_iff.mp hunique).2 _ hmem
  | _ => contradiction

/-- The merge of two documents of options keeps their meaning exactly where the parser
splits names as the merge does, a bare name means the same in the merged form, and the
details that both sides give can be joined. -/
theorem merge_preserves_iff {vb vo : Node} {sb so : Spec}
    (hb : parseSpecFromNode (optionsDoc vb) = .ok sb)
    (ho : parseSpecFromNode (optionsDoc vo) = .ok so)
    (hub : UniqueKeys vb) (huo : UniqueKeys vo) (hemit : WritesApart) :
    MergePreserves vb vo sb so ↔ Mergeable vb vo := by
  obtain ⟨haccB, hfindB⟩ := find?_of_parse hb
  obtain ⟨haccO, hfindO⟩ := find?_of_parse ho
  have hplain := plain_details haccO huo
  by_cases hitems : hasNullItem vb = false ∧ hasNullItem vo = false
  · have hvb := collectable_of_accepted haccB hub hitems.1
    have hvo := collectable_of_accepted haccO huo hitems.2
    obtain ⟨r, hmerge, hr⟩ := exists_mergeOptions hvb hvo hplain
    have hyaml : mergeYaml (optionsDoc vb) (optionsDoc vo) = .ok (optionsDoc r) := by
      rw [mergeYaml_optionsDoc, hmerge]
      rfl
    have haccIff := accepted_merged_iff haccB haccO hvb hvo hr hemit hplain
    constructor
    · rintro ⟨merged, spec, hmerged, hspec, hpreserved⟩
      obtain rfl := Except.ok.inj (hyaml.symm.trans hmerged)
      obtain ⟨hacc, hfind⟩ := find?_of_parse hspec
      obtain ⟨hknown, hagree⟩ := haccIff.mp hacc
      have hnames := (names_merged_iff haccB haccO hr hacc).mp (fun name => by
        rw [← hfind, ← hfindB, ← hfindO]
        exact hpreserved.names name)
      obtain ⟨hbase, hoverride, hrepeated⟩ := (preserved_iff haccB haccO hvb hvo hr hfindB hfindO
        hplain hspec hknown hnames).mp hpreserved
      exact ⟨hitems.1, hitems.2, hnames, hknown, hbase, hoverride, hagree, hrepeated⟩
    · intro h
      obtain ⟨spec, hspec⟩ := exists_parse (haccIff.mpr ⟨h.known, h.outbound⟩)
      refine ⟨optionsDoc r, spec, hyaml, hspec, ?_⟩
      exact (preserved_iff haccB haccO hvb hvo hr hfindB hfindO hplain hspec h.known
        h.names).mpr ⟨h.baseBare, h.overrideBare, h.repeated⟩
  · constructor
    · rintro ⟨merged, -, hmerged, -⟩
      rw [mergeYaml_optionsDoc] at hmerged
      cases hmerge : mergeOptions vb vo with
      | error e =>
          rw [hmerge] at hmerged
          contradiction
      | ok r =>
          refine absurd hmerge (mergeOptions_of_nullItem ?_ r)
          by_contra hcontra
          simp only [not_or, Bool.not_eq_true] at hcontra
          exact hitems hcontra
    · intro h
      exact absurd ⟨h.baseItems, h.overrideItems⟩ hitems

end Merging

/-! ## Two pairs of documents -/

/-- `net: {outbound: [wan]}` and `gl`. -/
def wanBase : Node :=
  .map [(.scalar "net", .map [(.scalar "outbound", .sequence [.scalar "wan"])]),
    (.scalar "gl", .null)]

/-- `net: {outbound: [dns]}` and `tor: {control-port: true}`. -/
def dnsOverride : Node :=
  .map [(.scalar "net", .map [(.scalar "outbound", .sequence [.scalar "dns"])]),
    (.scalar "tor", .map [(.scalar "control-port", .scalar "true")])]

theorem uniqueKeys_pair {key other : Str} (hne : key ≠ other) {v w : Node} (hv : UniqueKeys v)
    (hw : UniqueKeys w) : UniqueKeys (.map [(.scalar key, v), (.scalar other, w)]) := by
  refine .map (by simpa using hne) ?_
  rw [List.forall_mem_cons, List.forall_mem_singleton]
  exact ⟨hv, hw⟩

theorem uniqueKeys_single {key v : Node} (hv : UniqueKeys v) : UniqueKeys (.map [(key, v)]) := by
  refine .map (by simp) ?_
  rwa [List.forall_mem_singleton]

theorem dnsOverride_mergeable : @Mergeable plainYaml wanBase dnsOverride := by
  have hbaseNames : @optionNames plainYaml wanBase = (["net", "gl"] : List Str) := rfl
  have hoverrideNames : @optionNames plainYaml dnsOverride = (["net", "tor"] : List Str) := rfl
  refine @Mergeable.mk plainYaml _ _ rfl rfl (fun _ => Iff.rfl) (fun _ => by decide) ?_ ?_ ?_ ?_
  · rw [hbaseNames, hoverrideNames]
    intro name hname hother _
    have hgl : name = "gl" := by
      simp only [List.mem_cons, List.not_mem_nil, or_false, not_or] at hname hother
      exact hname.resolve_left hother.1
    rw [hgl]
    rfl
  · rw [hbaseNames, hoverrideNames]
    intro name hname hother hnone
    have htor : name = "tor" := by
      simp only [List.mem_cons, List.not_mem_nil, or_false, not_or] at hname hother
      exact hname.resolve_left hother.1
    rw [htor]
    rfl
  · intro x y hx hy xs ys hxs hys
    obtain rfl := Option.some.inj hx
    obtain rfl := Option.some.inj hy
    obtain rfl := Node.sequence.inj (Option.some.inj hxs)
    obtain rfl := Node.sequence.inj (Option.some.inj hys)
    intro word hword hspecial
    revert hspecial
    revert word
    decide
  · intro name y x htwice
    have hnodup : (["net", "gl"] : List Str).Nodup := by decide
    have honce := List.nodup_iff_count_le_one.mp hnodup name
    exact absurd (le_trans htwice honce) (by decide)

theorem dnsOverride_preserved :
    ∃ sb so, @parseSpecFromNode plainYaml (optionsDoc wanBase) = .ok sb ∧
      @parseSpecFromNode plainYaml (optionsDoc dnsOverride) = .ok so ∧
      @MergePreserves plainYaml wanBase dnsOverride sb so := by
  refine ⟨_, _, rfl, rfl, (@merge_preserves_iff plainYaml _ _ _ _ rfl rfl ?_ ?_ ?_).mpr
    dnsOverride_mergeable⟩
  · exact uniqueKeys_pair (by decide) (uniqueKeys_single (.sequence _)) .null
  · exact uniqueKeys_pair (by decide) (uniqueKeys_single (.sequence _))
      (uniqueKeys_single (.scalar _))
  · exact fun _ _ h => h

/-- The base writes its two options in one scalar, which the merge takes for one name. -/
theorem scalar_of_two_names_is_lost :
    ∃ sb so, @parseSpecFromNode plainYaml (optionsDoc (.scalar "net tor")) = .ok sb ∧
      @parseSpecFromNode plainYaml (optionsDoc (.sequence [.scalar "gl"])) = .ok so ∧
      ¬@MergePreserves plainYaml (.scalar "net tor") (.sequence [.scalar "gl"]) sb so := by
  refine ⟨_, _, rfl, rfl, ?_⟩
  rintro ⟨merged, spec, hmerged, hspec, hpreserved⟩
  have hmerge : @mergeYaml plainYaml (optionsDoc (.scalar "net tor"))
      (optionsDoc (.sequence [.scalar "gl"])) =
        .ok (optionsDoc (.sequence [.scalar "net tor", .scalar "gl"])) := rfl
  obtain rfl := Except.ok.inj (hmerge.symm.trans hmerged)
  have hlost : spec.options.find? "net" = none := by
    rw [(@find?_of_parse plainYaml _ _ hspec).2]
    rfl
  have hnet := (@Preserved.names plainYaml _ _ _ _ _ _ hpreserved "net").mpr (.inl rfl)
  rw [hlost] at hnet
  contradiction

end Crate.SpecParser
