import Crate.Spec.Absorb

/-!
# What the options of a document mean

Options are written as a scalar of names, as a list of names, or as a map from
names to details or nothing.  Whatever the form, the parser reads one value for
each name, and `tor` opens the WAN in the value of `net`.  The forms differ in
the value that a name without details has.
-/

namespace Crate.SpecParser

open Crate.Foundation
open Crate.Spec
open Crate.Yaml
open Crate.Profile (keyIs_iff mem_of_lookup lookup_of_mem)

/-! ## Values of options -/

/-- The details of `net` in a value, blank when it has none. -/
def netOf : Option (Option OptDetails) → NetOptDetails
  | some (some (.net details)) => details
  | _ => {}

/-- The details of an option beside `tor`, which opens the WAN. -/
def openWan : Option OptDetails → Option OptDetails
  | some (.net details) => some (.net { details with outboundWan := true })
  | x => x

/-- The entries of the map of options, from the values that are read for the names. -/
def optionsOf (value : Str → Option (Option OptDetails)) (name : Str) :
    Option (Option OptDetails) :=
  if name = "net" ∧ (value "tor").isSome then
    some (some (.net { netOf (value "net") with outboundWan := true }))
  else value name

/-- The value of a name without details, in a list or a map, with or without `tor` in it. -/
def bare (listed tor : Bool) (name : Str) : Option OptDetails :=
  if name = "net" then
    some (.net (if listed && tor then { outboundWan := true } else netDefault))
  else if name = "tor" then some (.tor false)
  else if name = "wireguard" then if listed then none else some (.wireguard [])
  else if name = "ipsec" then if listed then none else some (.ipsec [] [])
  else none

theorem optionsOf_of_not {value : Str → Option (Option OptDetails)} {name : Str}
    (h : ¬(name = "net" ∧ (value "tor").isSome)) : optionsOf value name = value name :=
  if_neg h

theorem bare_net (listed tor : Bool) : bare listed tor "net" =
    some (.net (if listed && tor then { outboundWan := true } else netDefault)) := rfl

theorem bare_listed {name : Str} (hnet : name ≠ "net") (htor : name ≠ "tor") (tor : Bool) :
    bare true tor name = none := by
  rw [bare, if_neg hnet, if_neg htor, if_pos rfl, if_pos rfl, ite_self, ite_self]

/-- The values that a list of names has. -/
def listValue (names : List Str) (name : Str) : Option (Option OptDetails) :=
  if name ∈ names then some (bare true (decide (("tor" : Str) ∈ names)) name) else none

theorem listValue_isSome (names : List Str) (name : Str) :
    (listValue names name).isSome = decide (name ∈ names) := by
  unfold listValue
  split <;> simp [*]

/-- The update that puts a value under its name. -/
def put (name : Str) (x : Option OptDetails) (m : OptMap) : OptMap :=
  if name = "tor" then
    setNet { netDetails (m.insert "tor" x) with outboundWan := true } (m.insert "tor" x)
  else if x.isSome then m.insert name x
  else touch name m

def putAll (value : Str → Option (Option OptDetails)) (names : List Str) (m : OptMap) : OptMap :=
  names.foldl (fun m name =>
    match value name with
    | some x => put name x m
    | none => m) m

section Put

variable {value : Str → Option (Option OptDetails)} {m : OptMap}

theorem find?_put_self {name : Str} (h : m.find? name = none) (x : Option OptDetails) :
    (put name x m).find? name = some x := by
  unfold put
  split
  · rename_i htor
    subst htor
    rw [find?_setNet_ne _ (by decide), OrdMap.find?_insert_self]
  · split
    · exact OrdMap.find?_insert_self _ _ _
    · rename_i hnone
      rw [find?_touch_self, h, Option.not_isSome_iff_eq_none.mp hnone]
      rfl

theorem find?_put_ne {name key : Str} (hne : name ≠ key) (hnet : name = "tor" → key ≠ "net")
    (x : Option OptDetails) : (put name x m).find? key = m.find? key := by
  unfold put
  split
  · rename_i htor
    rw [find?_setNet_ne _ (hnet htor).symm]
    exact OrdMap.find?_insert_ne (htor ▸ hne) m x
  · split
    · exact OrdMap.find?_insert_ne hne m x
    · exact find?_touch_ne m hne

theorem find?_putAll_ne {names : List Str} {key : Str} (hkey : key ∉ names)
    (hnet : key = "net" → ("tor" : Str) ∉ names) (m : OptMap) :
    (putAll value names m).find? key = m.find? key := by
  induction names generalizing m with
  | nil => rfl
  | cons name rest ih =>
      rw [List.mem_cons, not_or] at hkey
      have hrest : key = "net" → ("tor" : Str) ∉ rest :=
        fun h hcontra => hnet h (List.mem_cons_of_mem name hcontra)
      rw [putAll, List.foldl_cons]
      refine (ih hkey.2 hrest _).trans ?_
      split
      · refine find?_put_ne (Ne.symm hkey.1) ?_ _
        rintro rfl hcontra
        exact hnet hcontra (by simp)
      · rfl

theorem putAll_append (front back : List Str) (m : OptMap) :
    putAll value (front ++ back) m = putAll value back (putAll value front m) :=
  List.foldl_append

/-- The map form, whose options are taken in the order of `allOptionsLst`. -/
theorem find?_putAll (hknown : ∀ name, name ∉ allOptionsLst → value name = none) (name : Str) :
    (putAll value allOptionsLst OrdMap.empty).find? name = optionsOf value name := by
  by_cases hnet : name = "net"
  · -- Only `net` itself and `tor`, two places behind it, write the entry `net`.
    subst hnet
    have horder : allOptionsLst = ((["x11"] : List Str) ++ (["net"] : List Str) ++
        (["ssl-certs"] : List Str)) ++ ("tor" : Str) :: (["video", "gl", "no-rm-static-libs",
          "dbg-ktrace", "wireguard", "ipsec"] : List Str) := rfl
    have hfront : (putAll value ((["x11"] : List Str) ++ (["net"] : List Str) ++
        (["ssl-certs"] : List Str)) OrdMap.empty).find? "net" = value "net" := by
      rw [putAll_append, find?_putAll_ne (by decide) (fun _ => by decide), putAll_append]
      have hempty : (putAll value ["x11"] OrdMap.empty).find? "net" = none :=
        find?_putAll_ne (by decide) (fun _ => by decide) _
      rw [putAll, List.foldl_cons, List.foldl_nil]
      cases hvalue : value "net" with
      | none => exact hempty
      | some x => exact find?_put_self hempty x
    rw [horder, putAll_append, putAll, List.foldl_cons]
    refine (find?_putAll_ne (by decide) (fun _ => by decide) _).trans ?_
    cases htor : value "tor" with
    | none => simp only [optionsOf, htor, Option.isSome_none, Bool.false_eq_true, and_false,
        if_false, hfront]
    | some x =>
        simp only [optionsOf, htor, Option.isSome_some, and_self, if_true, put,
          find?_setNet_self, netDetails_insert _ (show ("tor" : Str) ≠ "net" by decide)]
        rw [netDetails, hfront]
        rfl
  · rw [optionsOf, if_neg (fun h => hnet h.1)]
    by_cases hname : name ∈ allOptionsLst
    · obtain ⟨front, back, horder⟩ := List.append_of_mem hname
      have hnodup : (front ++ name :: back).Nodup := horder ▸ (by decide)
      rw [List.nodup_append, List.nodup_cons] at hnodup
      have hfront : name ∉ front := fun h => hnodup.2.2 name h name (by simp) rfl
      rw [horder, putAll_append, putAll, List.foldl_cons]
      refine (find?_putAll_ne hnodup.2.1.1 (fun h => absurd h hnet) _).trans ?_
      have hempty : (putAll value front OrdMap.empty).find? name = none :=
        find?_putAll_ne hfront (fun h => absurd h hnet) _
      cases hvalue : value name with
      | none => exact hempty
      | some x => exact find?_put_self hempty x
    · rw [find?_putAll_ne hname (fun h => absurd h hnet), hknown name hname]
      rfl

theorem find?_foldl_touch (names : List Str) (key : Str) :
    (names.foldl (fun m name => touch name m) m).find? key =
      if key ∈ names then some ((m.find? key).getD none) else m.find? key := by
  induction names generalizing m with
  | nil => rfl
  | cons name rest ih =>
      rw [List.foldl_cons, ih]
      by_cases hname : name = key
      · subst hname
        simp
      · rw [find?_touch_ne m hname]
        simp [Ne.symm hname]

/-- The list form, in which nothing but `net` and `tor` has details. -/
theorem find?_listUpdate (names : List Str) (name : Str) :
    (listUpdate names OrdMap.empty).find? name = optionsOf (listValue names) name := by
  have htouch := find?_foldl_touch (m := OrdMap.empty) names
  simp only [OrdMap.find?_empty, Option.getD_none] at htouch
  have htorNet : ("tor" : Str) ≠ "net" := by decide
  unfold listUpdate
  generalize names.foldl (fun m name => touch name m) OrdMap.empty = m at htouch
  -- Behind the defaults of `net`, only the entry `net` differs.
  have hdefault : ∀ key, (if (m.find? "net").isSome then setNet netDefault m else m).find? key =
      if key ∈ names then some (if key = "net" then some (.net netDefault) else none)
      else none := by
    intro key
    rw [htouch]
    by_cases hnet : ("net" : Str) ∈ names
    · rw [if_pos hnet, Option.isSome_some, if_pos rfl]
      by_cases hkey : key = "net"
      · subst hkey
        rw [find?_setNet_self, if_pos hnet, if_pos rfl]
      · rw [find?_setNet_ne _ (Ne.symm hkey), htouch, if_neg hkey]
    · rw [if_neg hnet, if_neg (by simp), htouch]
      by_cases hkey : key = "net"
      · subst hkey
        rw [if_neg hnet, if_neg hnet]
      · rw [if_neg hkey]
  dsimp only
  generalize (if (m.find? "net").isSome then setNet netDefault m else m) = m' at hdefault
  rw [hdefault]
  by_cases htor : ("tor" : Str) ∈ names
  · rw [optionsOf, listValue_isSome, if_pos htor, if_neg htorNet, Option.isSome_some, if_pos rfl]
    by_cases hname : name = "net"
    · subst hname
      rw [find?_setNet_self, if_pos ⟨rfl, decide_eq_true htor⟩, listValue]
      split
      · rw [bare_net, decide_eq_true htor]
        rfl
      · rfl
    · rw [find?_setNet_ne _ (Ne.symm hname), if_neg (fun h => hname h.1), OrdMap.find?_insert]
      by_cases hself : name = "tor"
      · subst hself
        rw [if_pos rfl, listValue, if_pos htor]
        rfl
      · rw [if_neg (Ne.symm hself), hdefault, if_neg hname, listValue, bare_listed hname hself]
  · have htorNone : (listValue names "tor").isSome = false := by
      rw [listValue_isSome, decide_eq_false htor]
    rw [if_neg htor, Option.isSome_none, if_neg Bool.false_ne_true, hdefault,
      optionsOf_of_not (fun h => Bool.false_ne_true (htorNone.symm.trans h.2)), listValue,
      decide_eq_false htor]
    by_cases hname : name = "net"
    · subst hname
      rw [bare_net, if_pos rfl]
      rfl
    · by_cases hself : name = "tor"
      · subst hself
        rw [if_neg htor, if_neg htor]
      · rw [if_neg hname, bare_listed hname hself]

end Put

section Reading

variable [yaml : YamlCpp]

/-! ## Names and details -/

/-- The texts of keys or of items, as the parser reads them. -/
def textsOf (nodes : List Node) : List Str := nodes.filterMap (fun node => (asString node).toOption)

/-- The options that the parser reads from a node. -/
def optionNames : Node → List Str
  | .null => []
  | .scalar text => Util.splitString text
  | .sequence items => textsOf items
  | .map entries => textsOf (entries.map Prod.fst)

/-- The forms without details. -/
def isListed : Node → Bool
  | .scalar _ => true
  | .sequence _ => true
  | _ => false

/-- The details that a node gives for a name. -/
def detailsOf : Node → Str → Option (List Entry)
  | .map entries, name =>
      match lookup entries name with
      | some (.map details) => some details
      | _ => none
  | _, _ => none

def readDetails (name : Str) (details : List Entry) : Parse (Option OptDetails) := do
  if name = "net" then return some (.net (← eachEntry (.map details) {} netOption))
  else if name = "tor" then return some (.tor (← eachEntry (.map details) false torOption))
  else if name = "wireguard" then
    return some (.wireguard (← eachEntry (.map details) [] wireguardOption))
  else if name = "ipsec" then
    let (connName, confPath) ← eachEntry (.map details) ([], []) ipsecOption
    return some (.ipsec connName confPath)
  else err "options/* values must be empty when options are in the extended format"

def hasTor (v : Node) : Bool := decide (("tor" : Str) ∈ optionNames v)

/-- The value that the parser reads for a name of the node. -/
def valueOf (v : Node) (name : Str) : Parse (Option OptDetails) :=
  match detailsOf v name with
  | some details => readDetails name details
  | none => .ok (bare (isListed v) (hasTor v) name)

def optionValues (v : Node) (name : Str) : Option (Option OptDetails) :=
  if name ∈ optionNames v then (valueOf v name).toOption else none

/-! ## The map form -/

omit yaml in
theorem toOption_eq_some {ε α : Type} {r : Except ε α} {a : α} :
    r.toOption = some a ↔ r = .ok a := by
  cases r <;> simp [Except.toOption]

theorem mem_textsOf {nodes : List Node} {text : Str} :
    text ∈ textsOf nodes ↔ ∃ node ∈ nodes, asString node = .ok text := by
  simp only [textsOf, List.mem_filterMap, toOption_eq_some]

omit yaml in
theorem map_bind_pure {ε α β γ : Type} (x : Except ε α) (f : α → β) (g : β → γ) :
    ((do return f (← x)) : Except ε β).map g = do return g (f (← x)) := by
  cases x <;> rfl

theorem optionUpdate_map (name : Str) (details : List Entry) :
    optionUpdate name (.map details) = (readDetails name details).map (put name) := by
  unfold optionUpdate readDetails
  split
  · rename_i hname
    subst hname
    rw [map_bind_pure]
    rfl
  split
  · rename_i hname
    subst hname
    rw [map_bind_pure]
    rfl
  split
  · rename_i hname
    subst hname
    rw [map_bind_pure]
    rfl
  split
  · rename_i hname
    subst hname
    cases eachEntry (.map details) (([], []) : Str × Str) ipsecOption <;> rfl
  · rfl

theorem optionUpdate_null (name : Str) (tor : Bool) :
    optionUpdate name .null = .ok (put name (bare false tor name)) := by
  unfold optionUpdate bare
  split
  · rename_i hname
    subst hname
    rfl
  split
  · rename_i hname
    subst hname
    rfl
  split
  · rename_i hname
    subst hname
    rfl
  split
  · rename_i hname
    subst hname
    rfl
  · rename_i htor _ _
    refine congrArg Except.ok (funext (fun m => ?_))
    rw [put, if_neg htor]
    rfl

/-- An entry of a map of options that the parser takes. -/
structure Acceptable (e : Entry) : Prop where
  key : ∃ name ∈ allOptionsLst, e.1 = .scalar name
  val : e.2.isMap ∨ e.2.isNull

theorem checkOption_eq_ok {e : Entry} : checkOption e = .ok () ↔ Acceptable e := by
  constructor
  · intro h
    obtain ⟨name, hname, h⟩ := bind_eq_ok.mp h
    split at h
    · simp [err, raise] at h
    · rename_i hval
      split at h
      · simp [err, raise] at h
      · rename_i hknown
        rw [not_not] at hknown
        have hnull : name ≠ "null" := by
          rintro rfl
          revert hknown
          decide
        refine ⟨⟨name, hknown, eq_scalar_of_asString hname hnull⟩, ?_⟩
        by_contra hcontra
        simp only [not_or, Bool.not_eq_true] at hcontra
        exact hval (by simp [hcontra])
  · rintro ⟨⟨name, hknown, hkey⟩, hval⟩
    unfold checkOption
    rw [hkey, asString, ok_bind, if_neg, if_neg (not_not.mpr hknown)]
    · rfl
    · rintro ⟨hmap, hnull⟩
      rcases hval with h | h
      · rw [h] at hmap
        contradiction
      · rw [h] at hnull
        contradiction

omit yaml in
theorem Acceptable.scalar {e : Entry} (h : Acceptable e) : ∃ name, e.1 = .scalar name :=
  h.key.imp (fun _ hname => hname.2)

theorem mem_optionNames_map {entries : List Entry} (h : ∀ e ∈ entries, ∃ name, e.1 = .scalar name)
    {name : Str} : name ∈ optionNames (.map entries) ↔ (lookup entries name).isSome := by
  rw [optionNames, mem_textsOf, lookup, Option.isSome_map, List.find?_isSome]
  constructor
  · rintro ⟨node, hnode, htext⟩
    obtain ⟨e, he, rfl⟩ := List.mem_map.mp hnode
    obtain ⟨other, hkey⟩ := h e he
    rw [hkey, asString, Except.ok.injEq] at htext
    exact ⟨e, he, keyIs_iff.mpr (htext ▸ hkey)⟩
  · rintro ⟨e, he, hkey⟩
    exact ⟨e.1, List.mem_map_of_mem he, by rw [keyIs_iff.mp hkey, asString]⟩

/-- The update for one name of `allOptionsLst`. -/
def nameUpdate (entries : List Entry) (name : Str) : Parse (OptMap → OptMap) :=
  match lookup entries name with
  | some val => optionUpdate name val
  | none => .ok id

theorem mapUpdates_eq (entries : List Entry) :
    mapUpdates entries =
      (do entries.forM checkOption; allOptionsLst.mapM (nameUpdate entries)) := rfl

theorem nameUpdate_eq_ok {entries : List Entry} (h : ∀ e ∈ entries, Acceptable e) {name : Str}
    {update : OptMap → OptMap} (hupdate : nameUpdate entries name = .ok update) (m : OptMap) :
    update m = match optionValues (.map entries) name with
      | some x => put name x m
      | none => m := by
  unfold nameUpdate at hupdate
  cases hlookup : lookup entries name with
  | none =>
      rw [hlookup] at hupdate
      obtain rfl := Except.ok.inj hupdate
      have hname : name ∉ optionNames (.map entries) := by
        rw [mem_optionNames_map (fun e he => (h e he).scalar), hlookup]
        simp
      rw [optionValues, if_neg hname]
      rfl
  | some val =>
      rw [hlookup] at hupdate
      have hname : name ∈ optionNames (.map entries) := by
        rw [mem_optionNames_map (fun e he => (h e he).scalar), hlookup]
        rfl
      rw [optionValues, if_pos hname, valueOf, detailsOf, hlookup]
      cases val with
      | map details =>
          dsimp only at hupdate ⊢
          rw [optionUpdate_map] at hupdate
          cases hread : readDetails name details with
          | error e =>
              rw [hread] at hupdate
              contradiction
          | ok x =>
              rw [hread] at hupdate
              obtain rfl := Except.ok.inj hupdate
              rfl
      | null =>
          dsimp only at hupdate ⊢
          rw [optionUpdate_null name (hasTor (.map entries))] at hupdate
          obtain rfl := Except.ok.inj hupdate
          rfl
      | scalar text => simpa [Node.isMap, Node.isNull] using (h _ (mem_of_lookup hlookup)).val
      | sequence items => simpa [Node.isMap, Node.isNull] using (h _ (mem_of_lookup hlookup)).val

theorem foldl_nameUpdates {entries : List Entry} (h : ∀ e ∈ entries, Acceptable e)
    {names : List Str} {updates : List (OptMap → OptMap)}
    (hupdates : names.mapM (nameUpdate entries) = .ok updates) (m : OptMap) :
    updates.foldl (fun m update => update m) m =
      putAll (optionValues (.map entries)) names m := by
  induction names generalizing updates m with
  | nil =>
      obtain rfl := Except.ok.inj hupdates
      rfl
  | cons name rest ih =>
      rw [List.mapM_cons] at hupdates
      obtain ⟨update, hupdate, hupdates⟩ := bind_eq_ok.mp hupdates
      obtain ⟨others, hothers, hupdates⟩ := bind_eq_ok.mp hupdates
      obtain rfl := Except.ok.inj hupdates
      rw [List.foldl_cons, ih hothers, nameUpdate_eq_ok h hupdate, putAll, putAll, List.foldl_cons]

omit yaml in
theorem detailsOf_map_eq_some {entries details : List Entry} {name : Str} :
    detailsOf (.map entries) name = some details ↔ lookup entries name = some (.map details) := by
  rw [detailsOf]
  split
  · rename_i other hother
    rw [hother, Option.some.injEq, Option.some.injEq, Node.map.injEq]
  · rename_i hnone
    simp only [reduceCtorEq, false_iff]
    exact hnone details

/-- A map is read when its entries are acceptable and their details can be read. -/
theorem mapUpdates_ok_iff {entries : List Entry} :
    (∃ updates, mapUpdates entries = .ok updates) ↔ (∀ e ∈ entries, Acceptable e) ∧
      ∀ name details, detailsOf (.map entries) name = some details →
        ∃ x, readDetails name details = .ok x := by
  rw [mapUpdates_eq]
  constructor
  · rintro ⟨updates, h⟩
    obtain ⟨⟨⟩, hcheck, hupdates⟩ := bind_eq_ok.mp h
    have hentries : ∀ e ∈ entries, Acceptable e :=
      fun e he => checkOption_eq_ok.mp (forM_eq_ok.mp hcheck e he)
    refine ⟨hentries, ?_⟩
    intro name details hdetails
    rw [detailsOf_map_eq_some] at hdetails
    obtain ⟨other, hknown, hkey⟩ := (hentries _ (mem_of_lookup hdetails)).key
    obtain rfl := Node.scalar.inj hkey
    obtain ⟨update, hupdate⟩ := exists_ok_of_mapM_eq_ok hupdates hknown
    rw [nameUpdate, hdetails] at hupdate
    dsimp only at hupdate
    rw [optionUpdate_map] at hupdate
    cases hread : readDetails name details with
    | ok x => exact ⟨x, rfl⟩
    | error e =>
        rw [hread] at hupdate
        contradiction
  · rintro ⟨hentries, hdetails⟩
    have hcheck : entries.forM checkOption = .ok () :=
      forM_eq_ok.mpr (fun e he => checkOption_eq_ok.mpr (hentries e he))
    rw [hcheck, ok_bind]
    apply exists_mapM_eq_ok
    intro name _
    unfold nameUpdate
    cases hlookup : lookup entries name with
    | none => exact ⟨_, rfl⟩
    | some val =>
        have hval := (hentries _ (mem_of_lookup hlookup)).val
        cases val with
        | map details =>
            obtain ⟨x, hx⟩ := hdetails name details (detailsOf_map_eq_some.mpr hlookup)
            exact ⟨put name x, by dsimp only; rw [optionUpdate_map, hx]; rfl⟩
        | null => exact ⟨_, optionUpdate_null name false⟩
        | scalar text => simp [Node.isMap, Node.isNull] at hval
        | sequence items => simp [Node.isMap, Node.isNull] at hval

/-! ## All forms -/

theorem readOptions_sequence (items : List Node) :
    readOptions (.sequence items) = do return listUpdate (← items.mapM asString) := by
  simp only [readOptions, listOrScalar, bind_assoc, pure_bind]

theorem readOptions_map (entries : List Entry) :
    readOptions (.map entries) = do
      let updates ← mapUpdates entries
      return fun m => updates.foldl (fun m update => update m) m := rfl

theorem textsOf_of_mapM {nodes : List Node} {texts : List Str}
    (h : nodes.mapM asString = .ok texts) : textsOf nodes = texts := by
  induction nodes generalizing texts with
  | nil =>
      obtain rfl := Except.ok.inj h
      rfl
  | cons node rest ih =>
      rw [List.mapM_cons] at h
      obtain ⟨text, htext, h⟩ := bind_eq_ok.mp h
      obtain ⟨others, hothers, h⟩ := bind_eq_ok.mp h
      obtain rfl := Except.ok.inj h
      rw [← ih hothers]
      exact List.filterMap_cons_some (toOption_eq_some.mpr htext)

theorem optionValues_of_listed {v : Node} (h : isListed v = true) :
    optionValues v = listValue (optionNames v) := by
  funext name
  have hdetails : detailsOf v name = none := by
    cases v with
    | map entries => simp [isListed] at h
    | _ => rfl
  rw [optionValues, listValue, valueOf, hdetails, h]
  rfl

/-- The entries that the options of a document make. -/
theorem find?_readOptions {v : Node} {update : OptMap → OptMap} (h : readOptions v = .ok update)
    (name : Str) : (update OrdMap.empty).find? name = optionsOf (optionValues v) name := by
  cases v with
  | null => simp [readOptions, listOrScalar, err, raise] at h
  | scalar text =>
      obtain rfl := Except.ok.inj h
      rw [optionValues_of_listed rfl]
      exact find?_listUpdate _ name
  | sequence items =>
      rw [readOptions_sequence] at h
      obtain ⟨names, hnames, h⟩ := bind_eq_ok.mp h
      obtain rfl := Except.ok.inj h
      rw [optionValues_of_listed rfl, optionNames, textsOf_of_mapM hnames]
      exact find?_listUpdate names name
  | map entries =>
      rw [readOptions_map] at h
      obtain ⟨updates, hupdates, h⟩ := bind_eq_ok.mp h
      obtain rfl := Except.ok.inj h
      have hentries := (mapUpdates_ok_iff.mp ⟨updates, hupdates⟩).1
      rw [mapUpdates_eq] at hupdates
      obtain ⟨-, -, hupdates⟩ := bind_eq_ok.mp hupdates
      dsimp only
      rw [foldl_nameUpdates hentries hupdates]
      apply find?_putAll
      intro other hunknown
      refine if_neg (fun hother => ?_)
      rw [mem_optionNames_map (fun e he => (hentries e he).scalar)] at hother
      obtain ⟨val, hval⟩ := Option.isSome_iff_exists.mp hother
      obtain ⟨known, hknown, hkey⟩ := (hentries _ (mem_of_lookup hval)).key
      exact hunknown (Node.scalar.inj hkey ▸ hknown)

/-- Options that the parser accepts. -/
def Accepted (v : Node) : Prop := ∃ update, readOptions v = .ok update

theorem accepted_map_iff {entries : List Entry} :
    Accepted (.map entries) ↔ (∀ e ∈ entries, Acceptable e) ∧
      ∀ name details, detailsOf (.map entries) name = some details →
        ∃ x, readDetails name details = .ok x := by
  rw [← mapUpdates_ok_iff, Accepted, readOptions_map]
  constructor
  · rintro ⟨update, h⟩
    obtain ⟨updates, hupdates, -⟩ := bind_eq_ok.mp h
    exact ⟨updates, hupdates⟩
  · rintro ⟨updates, hupdates⟩
    exact ⟨_, by rw [hupdates]; rfl⟩

theorem accepted_sequence_iff {items : List Node} :
    Accepted (.sequence items) ↔ ∀ item ∈ items, ∃ text, asString item = .ok text := by
  rw [Accepted, readOptions_sequence]
  constructor
  · rintro ⟨update, h⟩ item hitem
    obtain ⟨names, hnames, -⟩ := bind_eq_ok.mp h
    exact exists_ok_of_mapM_eq_ok hnames hitem
  · intro h
    obtain ⟨names, hnames⟩ := exists_mapM_eq_ok h
    exact ⟨_, by rw [hnames]; rfl⟩

theorem exists_valueOf {v : Node} (h : Accepted v) (name : Str) :
    ∃ x, valueOf v name = .ok x := by
  unfold valueOf
  split
  · rename_i details hdetails
    cases v with
    | map entries => exact (accepted_map_iff.mp h).2 name details hdetails
    | _ => contradiction
  · exact ⟨_, rfl⟩

/-! ## The entry of a name -/

/-- The details of an option, and with `tor` beside it the WAN. -/
def beside (tor : Bool) (x : Option OptDetails) : Option OptDetails := if tor then openWan x else x

theorem openWan_of_ne {name : Str} (hname : name ≠ "net") {v : Node} {x : Option OptDetails}
    (h : valueOf v name = .ok x) : openWan x = x := by
  unfold valueOf at h
  split at h
  · unfold readDetails at h
    rw [if_neg hname] at h
    split at h
    · obtain ⟨controlPort, -, h⟩ := bind_eq_ok.mp h
      obtain rfl := Except.ok.inj h
      rfl
    split at h
    · obtain ⟨configPath, -, h⟩ := bind_eq_ok.mp h
      obtain rfl := Except.ok.inj h
      rfl
    split at h
    · obtain ⟨ip, -, h⟩ := bind_eq_ok.mp h
      obtain rfl := Except.ok.inj h
      rfl
    · contradiction
  · obtain rfl := Except.ok.inj h
    unfold bare
    rw [if_neg hname]
    split_ifs <;> rfl

theorem valueOf_net {v : Node} {x : Option OptDetails} (h : valueOf v "net" = .ok x) :
    ∃ details, x = some (.net details) := by
  unfold valueOf at h
  split at h
  · obtain ⟨details, -, h⟩ := bind_eq_ok.mp h
    exact ⟨details, (Except.ok.inj h).symm⟩
  · exact ⟨_, (Except.ok.inj h).symm⟩

theorem isSome_optionValues {v : Node} (h : Accepted v) {name : Str} :
    (optionValues v name).isSome = decide (name ∈ optionNames v) := by
  obtain ⟨x, hx⟩ := exists_valueOf h name
  unfold optionValues
  split
  · rename_i hname
    rw [hx, decide_eq_true hname]
    rfl
  · rename_i hname
    rw [decide_eq_false hname]
    rfl

/-- A name of the node has its value, and `net` the WAN beside `tor`. -/
theorem optionsOf_of_mem {v : Node} (h : Accepted v) {name : Str} (hname : name ∈ optionNames v)
    {x : Option OptDetails} (hx : valueOf v name = .ok x) :
    optionsOf (optionValues v) name = some (beside (hasTor v) x) := by
  have hvalue : optionValues v name = some x := by
    rw [optionValues, if_pos hname, hx]
    rfl
  unfold optionsOf
  rw [isSome_optionValues h]
  by_cases hnet : name = "net"
  · subst hnet
    obtain ⟨details, rfl⟩ := valueOf_net hx
    rw [hvalue]
    by_cases htor : ("tor" : Str) ∈ optionNames v
    · rw [if_pos ⟨rfl, decide_eq_true htor⟩, beside, hasTor, if_pos (decide_eq_true htor)]
      rfl
    · rw [if_neg (fun hcontra => htor (of_decide_eq_true hcontra.2)), beside, hasTor,
        if_neg (fun hcontra => htor (of_decide_eq_true hcontra))]
  · rw [if_neg (fun hcontra => hnet hcontra.1), hvalue, beside, openWan_of_ne hnet hx, ite_self]

/-- Other names have nothing, but `tor` brings `net` with it. -/
theorem optionsOf_of_not_mem {v : Node} (h : Accepted v) {name : Str}
    (hname : name ∉ optionNames v) :
    optionsOf (optionValues v) name =
      if name = "net" ∧ hasTor v then some (some (.net { outboundWan := true })) else none := by
  have hvalue : optionValues v name = none := if_neg hname
  unfold optionsOf
  rw [isSome_optionValues h]
  split
  · rename_i htor
    rw [htor.1] at hvalue
    rw [hvalue]
    exact (if_pos htor).symm
  · rename_i htor
    rw [hvalue]
    exact (if_neg htor).symm

/-! ## Documents of options only -/

/-- A document whose only top-level key is `options`. -/
def optionsDoc (v : Node) : Node := .map [(.scalar "options", v)]

theorem parse_optionsDoc {v : Node} {spec : Spec} :
    parseSpecFromNode (optionsDoc v) = .ok spec ↔
      ∃ update, readOptions v = .ok update ∧ spec = { options := update OrdMap.empty } := by
  have hkey : Section.ofKey "options" = some .options := rfl
  have hparts : ∀ m, ofParts (Function.update (parts {}) .options m) = { options := m } :=
    fun _ => rfl
  have hparse : parseSpecFromNode (optionsDoc v) = do
      let m ← options v OrdMap.empty
      return { options := m } := by
    simp only [parseSpecFromNode, optionsDoc, pairs, ok_bind, List.foldlM_cons, List.foldlM_nil,
      parseEntry, asString, hkey, bind_pure, Parts.runAll, sectionSteps, alsoOptions,
      Option.map_none, Option.toList_none, Parts.Step.run, bind_assoc, pure_bind, hparts]
    rfl
  rw [hparse, bind_eq_ok]
  constructor
  · rintro ⟨m, hm, h⟩
    obtain ⟨update, hupdate, rfl⟩ := options_eq_ok.mp hm
    exact ⟨update, hupdate, (Except.ok.inj h).symm⟩
  · rintro ⟨update, hupdate, rfl⟩
    exact ⟨_, options_eq_ok.mpr ⟨update, hupdate, rfl⟩, rfl⟩

end Reading

end Crate.SpecParser
