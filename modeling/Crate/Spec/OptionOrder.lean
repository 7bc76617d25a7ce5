import Crate.Foundation.Outcome
import Crate.Spec.OptionSection

/-!
# The order of `network`, `options` and `x11`

All three sections write the map of options.  `x11` makes an entry that nobody
else looks at, and so it commutes with the other two.  `network: auto` sets the
mode inside the entry `net`, while `options` replaces this entry when it names
`net`, and in the list form even when it does not.  So `network` and `options`
commute exactly when `options` is a map that leaves the mode alone or sets it
to `auto` itself.
-/

namespace Crate.SpecParser

open Crate.Foundation
open Crate.Spec
open Crate.Yaml

/-- `network: auto` on a map that does not object to it. -/
def setAuto (m : OptMap) : OptMap := setNet { netDetails m with mode := .auto } m

/-- The modes of `net` that `network: auto` may replace. -/
def Mild (m : OptMap) : Prop := (netDetails m).mode = .nat ∨ (netDetails m).mode = .auto

/-- The text of the last `mode` in the details of `net`, which is the one that counts. -/
def lastMode (entries : List Entry) : Option Str :=
  (entries.filter (keyIs "mode")).getLast?.bind (fun b =>
    match b.2 with
    | .scalar text => some text
    | _ => none)

/-- Options in the map form that name no `net`, or one whose mode is `auto`. -/
def keepsAuto : Node → Bool
  | .map entries =>
      match lookup entries "net" with
      | none => true
      | some (.map netEntries) => lastMode netEntries = some ("auto" : Str)
      | some _ => false
  | _ => false

/-! ## The map of options -/

section Map

variable (m : OptMap)

@[simp] theorem find?_touch_self (name : Str) :
    (touch name m).find? name = some ((m.find? name).getD none) := by
  unfold touch
  cases hfind : m.find? name <;> simp [hfind]

theorem find?_touch_ne {name key : Str} (hne : name ≠ key) :
    (touch name m).find? key = m.find? key := by
  unfold touch
  split
  · rfl
  · exact OrdMap.find?_insert_ne hne m none

theorem find?_setNet_self (d : NetOptDetails) : (setNet d m).find? "net" = some (some (.net d)) :=
  OrdMap.find?_insert_self _ _ _

theorem find?_setNet_ne {key : Str} (hne : ("net" : Str) ≠ key) (d : NetOptDetails) :
    (setNet d m).find? key = m.find? key :=
  OrdMap.find?_insert_ne hne m _

theorem netDetails_congr {m m' : OptMap} (h : m.find? "net" = m'.find? "net") :
    netDetails m = netDetails m' := by
  unfold netDetails
  rw [h]

@[simp] theorem netDetails_setNet (d : NetOptDetails) : netDetails (setNet d m) = d := by
  rw [netDetails, find?_setNet_self]

@[simp] theorem setNet_setNet (d d' : NetOptDetails) : setNet d (setNet d' m) = setNet d m := by
  apply OrdMap.ext_find?
  intro key
  by_cases hkey : ("net" : Str) = key
  · subst hkey
    rw [find?_setNet_self, find?_setNet_self]
  · rw [find?_setNet_ne _ hkey, find?_setNet_ne _ hkey, find?_setNet_ne _ hkey]

theorem netDetails_insert {name : Str} (hname : name ≠ "net") (x : Option OptDetails) :
    netDetails (m.insert name x) = netDetails m :=
  netDetails_congr (OrdMap.find?_insert_ne hname m x)

theorem netDetails_touch (name : Str) : netDetails (touch name m) = netDetails m := by
  by_cases hname : name = "net"
  · subst hname
    unfold netDetails
    rw [find?_touch_self]
    cases m.find? "net" <;> rfl
  · exact netDetails_congr (find?_touch_ne m hname)

theorem setNet_insert {name : Str} (hname : name ≠ "net") (x : Option OptDetails)
    (d : NetOptDetails) : setNet d (m.insert name x) = (setNet d m).insert name x := by
  apply OrdMap.ext_find?
  intro key
  by_cases hkey : ("net" : Str) = key
  · subst hkey
    rw [find?_setNet_self, OrdMap.find?_insert_ne hname, find?_setNet_self]
  · rw [find?_setNet_ne _ hkey, OrdMap.find?_insert, OrdMap.find?_insert, find?_setNet_ne _ hkey]

theorem setNet_touch {name : Str} (hname : name ≠ "net") (d : NetOptDetails) :
    setNet d (touch name m) = touch name (setNet d m) := by
  apply OrdMap.ext_find?
  intro key
  by_cases hkey : ("net" : Str) = key
  · subst hkey
    rw [find?_setNet_self, find?_touch_ne _ hname, find?_setNet_self]
  · rw [find?_setNet_ne _ hkey]
    by_cases hself : name = key
    · subst hself
      rw [find?_touch_self, find?_touch_self, find?_setNet_ne _ hkey]
    · rw [find?_touch_ne _ hself, find?_touch_ne _ hself, find?_setNet_ne _ hkey]

theorem touch_insert {name other : Str} (hne : name ≠ other) (x : Option OptDetails) :
    touch name (m.insert other x) = (touch name m).insert other x := by
  apply OrdMap.ext_find?
  intro key
  by_cases hkey : name = key
  · subst hkey
    rw [find?_touch_self, OrdMap.find?_insert_ne hne.symm, OrdMap.find?_insert_ne hne.symm,
      find?_touch_self]
  · rw [find?_touch_ne _ hkey, OrdMap.find?_insert, OrdMap.find?_insert, find?_touch_ne _ hkey]

theorem touch_comm (name other : Str) :
    touch name (touch other m) = touch other (touch name m) := by
  by_cases hne : name = other
  · rw [hne]
  apply OrdMap.ext_find?
  intro key
  by_cases hkey : name = key
  · subst hkey
    have hother : other ≠ name := fun h => hne h.symm
    rw [find?_touch_self, find?_touch_ne _ hother, find?_touch_ne _ hother, find?_touch_self]
  · rw [find?_touch_ne _ hkey]
    by_cases hother : other = key
    · subst hother
      rw [find?_touch_self, find?_touch_self, find?_touch_ne _ hkey]
    · rw [find?_touch_ne _ hother, find?_touch_ne _ hother, find?_touch_ne _ hkey]

@[simp] theorem netDetails_setAuto :
    netDetails (setAuto m) = { netDetails m with mode := .auto } := netDetails_setNet _ _

theorem mild_setAuto : Mild (setAuto m) := by
  right
  rw [netDetails_setAuto]

end Map

/-! ## Updates -/

/-- An update that keeps the mode of `net` and commutes with `network: auto`. -/
structure Quiet (update : OptMap → OptMap) : Prop where
  mode : ∀ m, (netDetails (update m)).mode = (netDetails m).mode
  auto : ∀ m, setAuto (update m) = update (setAuto m)

theorem quiet_id : Quiet id := ⟨fun _ => rfl, fun _ => rfl⟩

theorem quiet_touch {name : Str} (hname : name ≠ "net") : Quiet (touch name) := by
  constructor
  · intro m
    rw [netDetails_touch]
  · intro m
    rw [setAuto, netDetails_touch, setNet_touch m hname, setAuto]

theorem quiet_insert {name : Str} (hname : name ≠ "net") (x : Option OptDetails) :
    Quiet (fun m => m.insert name x) := by
  constructor
  · intro m
    rw [netDetails_insert m hname]
  · intro m
    rw [setAuto, netDetails_insert m hname, setNet_insert m hname, setAuto]

theorem quiet_setTor (controlPort : Bool) : Quiet (setTor controlPort) := by
  have hne : ("tor" : Str) ≠ "net" := by decide
  constructor
  · intro m
    simp only [setTor, netDetails_setNet, netDetails_insert m hne]
  · intro m
    simp only [setTor, setAuto, netDetails_setNet, setNet_setNet, setNet_insert _ hne,
      netDetails_insert _ hne]

theorem quiet_foldl {updates : List (OptMap → OptMap)} (h : ∀ u ∈ updates, Quiet u) :
    Quiet (fun m => updates.foldl (fun m update => update m) m) := by
  induction updates with
  | nil => exact quiet_id
  | cons u rest ih =>
      have hu := h u (by simp)
      have hrest := ih (fun w hw => h w (List.mem_cons_of_mem u hw))
      constructor
      · intro m
        exact (hrest.mode (u m)).trans (hu.mode m)
      · intro m
        refine (hrest.auto (u m)).trans ?_
        rw [hu.auto m]
        rfl

/-- An update that commutes with what `x11` does. -/
def PassesX11 (update : OptMap → OptMap) : Prop :=
  ∀ m, ensureX11 (update m) = update (ensureX11 m)

theorem passesX11_setNet (d : NetOptDetails) : PassesX11 (setNet d) :=
  fun m => (setNet_touch m (by decide) d).symm

theorem passesX11_insert {name : Str} (hname : name ≠ "x11") (x : Option OptDetails) :
    PassesX11 (fun m => m.insert name x) :=
  fun m => touch_insert m hname.symm x

theorem passesX11_setTor (controlPort : Bool) : PassesX11 (setTor controlPort) := by
  intro m
  have hne : ("tor" : Str) ≠ "net" := by decide
  simp only [setTor, ensureX11, netDetails_insert _ hne, netDetails_touch]
  rw [← touch_insert m (by decide), setNet_touch _ (by decide)]

theorem passesX11_foldl {updates : List (OptMap → OptMap)} (h : ∀ u ∈ updates, PassesX11 u) :
    PassesX11 (fun m => updates.foldl (fun m update => update m) m) := by
  intro m
  induction updates generalizing m with
  | nil => rfl
  | cons u rest ih =>
      simp only [List.foldl_cons]
      rw [ih (fun w hw => h w (List.mem_cons_of_mem u hw)), h u (by simp) m]

theorem setAuto_setNet {d : NetOptDetails} (h : d.mode = .auto) (m : OptMap) :
    setAuto (setNet d m) = setNet d (setAuto m) := by
  have hd : { d with mode := .auto } = d := by
    rw [← h]
  rw [setAuto, netDetails_setNet, setNet_setNet, hd, setAuto, setNet_setNet]

/-! ## The mode that the details of `net` ask for -/

theorem netMode_auto_iff {text : Str} {mode : NetOptDetails.Mode} (h : netMode text = .ok mode) :
    mode = .auto ↔ text = "auto" := by
  constructor
  · rintro rfl
    by_contra htext
    unfold netMode at h
    rw [if_neg htext] at h
    split_ifs at h <;> simp [err, raise] at h
  · rintro rfl
    have hauto : netMode "auto" = .ok .auto := rfl
    rw [hauto] at h
    exact (Except.ok.inj h).symm

theorem addOutbound_mode (size : Nat) (d : NetOptDetails) (word : Str) :
    Post (addOutbound size d word) (fun d' => d'.mode = d.mode) := by
  unfold addOutbound
  refine Post.ite (fun _ => Post.ite (fun _ => Post.error) fun _ => Post.ok rfl) fun _ => ?_
  refine Post.ite (fun _ => Post.ite (fun _ => Post.error) fun _ => Post.ok rfl) fun _ => ?_
  refine Post.ite (fun _ => Post.ok rfl) fun _ => ?_
  refine Post.ite (fun _ => Post.ok rfl) fun _ => ?_
  refine Post.ite (fun _ => Post.ok rfl) fun _ => ?_
  exact Post.ite (fun _ => Post.ok rfl) fun _ => Post.error

theorem netIpv6_mode (node : Node) (d : NetOptDetails) :
    Post (netIpv6 node d) (fun d' => d'.mode = d.mode) := by
  unfold netIpv6
  split
  · refine Post.ite (fun _ => Post.ok rfl) fun _ => ?_
    refine Post.ite (fun _ => Post.ok rfl) fun _ => ?_
    refine Post.ite (fun _ => Post.ok rfl) fun _ => ?_
    exact Post.ite (fun _ => Post.ok rfl) fun _ => Post.ok rfl
  · exact Post.error

theorem lastMode_snoc (entries : List Entry) (b : Entry) :
    lastMode (entries ++ [b]) =
      if keyIs "mode" b then (match b.2 with | .scalar text => some text | _ => none)
      else lastMode entries := by
  unfold lastMode
  rw [List.filter_append, List.filter_singleton]
  cases keyIs "mode" b <;> simp

theorem keepsAuto_map_of_none {entries : List Entry} (h : lookup entries "net" = none) :
    keepsAuto (.map entries) = true := by
  rw [keepsAuto, h]

theorem keepsAuto_map_iff {entries : List Entry} {val : Node}
    (h : lookup entries "net" = some val) :
    keepsAuto (.map entries) = true ↔
      ∃ netEntries, val = .map netEntries ∧ lastMode netEntries = some ("auto" : Str) := by
  rw [keepsAuto, h]
  cases val <;> simp

theorem isSome_find?_foldl_touch {key : Str} (names : List Str) {m : OptMap}
    (h : (m.find? key).isSome) :
    ((names.foldl (fun m name => touch name m) m).find? key).isSome := by
  induction names generalizing m with
  | nil => exact h
  | cons name rest ih =>
      apply ih
      by_cases hname : name = key
      · subst hname
        rw [find?_touch_self]
        rfl
      · rwa [find?_touch_ne _ hname]

/-- The list form forgets that the mode was `auto`, also when it does not name `net`. -/
theorem listUpdate_mode (names : List Str) {m : OptMap} (hauto : (netDetails m).mode = .auto) :
    (netDetails (listUpdate names m)).mode = .nat := by
  have hnet : (m.find? "net").isSome := by
    by_contra hnone
    rw [Option.not_isSome_iff_eq_none] at hnone
    rw [netDetails, hnone] at hauto
    contradiction
  simp only [listUpdate, if_pos (isSome_find?_foldl_touch names hnet)]
  split
  · rw [netDetails_setNet]
  · rw [netDetails_setNet]
    rfl

theorem passesX11_comp {first second : OptMap → OptMap} (hfirst : PassesX11 first)
    (hsecond : PassesX11 second) : PassesX11 (fun m => second (first m)) := by
  intro m
  rw [hsecond (first m), hfirst m]

theorem passesX11_ifHas {key : Str} (hkey : ("x11" : Str) ≠ key) {update : OptMap → OptMap}
    (h : PassesX11 update) : PassesX11 (fun m => if (m.find? key).isSome then update m else m) := by
  intro m
  simp only [ensureX11, find?_touch_ne m hkey]
  split
  · exact h m
  · rfl

theorem passesX11_listUpdate (names : List Str) : PassesX11 (listUpdate names) := by
  have hnames : PassesX11 (fun m => names.foldl (fun m name => touch name m) m) := by
    intro m
    induction names generalizing m with
    | nil => rfl
    | cons name rest ih =>
        simp only [List.foldl_cons]
        rw [ih, ensureX11, ensureX11, touch_comm]
  have htorName : ("tor" : Str) ≠ "x11" := by decide
  have htor := passesX11_comp (passesX11_insert htorName (some (.tor false)))
    (passesX11_setNet { outboundWan := true })
  have hnetName : ("x11" : Str) ≠ "net" := by decide
  have hnet := passesX11_ifHas hnetName (passesX11_setNet netDefault)
  have hall := passesX11_comp (passesX11_comp hnames hnet) (passesX11_ifHas htorName.symm htor)
  exact hall

section Reading

variable [yaml : YamlCpp]

theorem network_eq_ok {v : Node} {m m' : OptMap} :
    network v m = .ok m' ↔ v = .scalar "auto" ∧ Mild m ∧ m' = setAuto m := by
  cases v with
  | scalar text =>
      by_cases htext : text = "auto"
      · subst htext
        simp only [network, Node.isScalar, Bool.not_true, Bool.false_eq_true, if_false, asString,
          ok_bind, SpecPure.validateTopLevelNetwork, if_true, orErr, true_and, Mild]
        split
        · rename_i hmode
          simp only [err, raise, reduceCtorEq, false_iff, not_and]
          intro hmild
          exact absurd hmild (by tauto)
        · rename_i hmode
          simp only [pure_eq_ok, Except.ok.injEq, setAuto, eq_comm]
          tauto
      · have hcheck : ∃ e, SpecPure.validateTopLevelNetwork text = .error e := by
          unfold SpecPure.validateTopLevelNetwork
          rw [if_neg htext]
          split <;> exact ⟨_, rfl⟩
        obtain ⟨e, he⟩ := hcheck
        constructor
        · intro h
          simp [network, Node.isScalar, asString, he, orErr, err, raise, bind, Except.bind] at h
        · rintro ⟨hauto, -⟩
          exact absurd (Node.scalar.inj hauto) htext
  | null => simp [network, Node.isScalar, err, raise]
  | sequence items => simp [network, Node.isScalar, err, raise]
  | map entries => simp [network, Node.isScalar, err, raise]

theorem eq_scalar_of_asString {node : Node} {text : Str} (h : asString node = .ok text)
    (hnull : text ≠ "null") : node = .scalar text := by
  cases node with
  | scalar text' => simpa [asString] using h
  | null =>
      simp only [asString] at h
      split at h
      · exact absurd (by simpa using h.symm) hnull
      · contradiction
  | sequence items => simp [asString] at h
  | map entries => simp [asString] at h

theorem outbound_mode (node : Node) (d : NetOptDetails) :
    Post (outbound node d) (fun d' => d'.mode = d.mode) := by
  refine Post.bind (fun words _ => Post.foldlM ?_ rfl)
  intro word _ d' hd'
  exact (addOutbound_mode _ d' word).mono (fun _ h => h.trans hd')

/-- Only the key `mode` of `net` writes the mode. -/
theorem netOption_mode {key : Str} (hkey : key ≠ "mode") (b : Entry) (d : NetOptDetails) :
    Post (netOption key b d) (fun d' => d'.mode = d.mode) := by
  unfold netOption
  refine Post.ite (fun _ => outbound_mode b.2 d) fun _ => ?_
  refine Post.ite (fun _ => Post.bind fun _ _ => Post.ok rfl) fun _ => ?_
  refine Post.ite (fun _ => Post.bind fun _ _ => Post.ok rfl) fun _ => ?_
  refine Post.ite (fun _ => netIpv6_mode b.2 d) fun _ => ?_
  refine Post.ite (fun _ => Post.bind fun _ _ => Post.ok rfl) fun _ => ?_
  refine Post.ite (fun h => absurd h hkey) fun _ => ?_
  refine Post.ite (fun _ => Post.bind fun _ _ => Post.ok rfl) fun _ => ?_
  refine Post.ite (fun _ => Post.bind fun _ _ => Post.ok rfl) fun _ => ?_
  refine Post.ite (fun _ => Post.bind fun _ _ => Post.ok rfl) fun _ => ?_
  refine Post.ite (fun _ => Post.bind fun _ _ => Post.bind fun _ _ => Post.ok rfl) fun _ => ?_
  refine Post.ite (fun _ => Post.bind fun _ _ => Post.bind fun _ _ => Post.ok rfl) fun _ => ?_
  refine Post.ite (fun _ => Post.bind fun _ _ => Post.bind fun _ _ => Post.ok rfl) fun _ => ?_
  refine Post.ite (fun _ => Post.bind fun _ _ => Post.ok rfl) fun _ => ?_
  refine Post.ite (fun _ => Post.bind fun _ _ => Post.bind fun _ _ => Post.ok rfl) fun _ => ?_
  exact Post.ite (fun _ => Post.bind fun _ _ => Post.ok rfl) fun _ => Post.error

theorem netOption_auto {b : Entry} {d d' : NetOptDetails} (h : netOption "mode" b d = .ok d') :
    d'.mode = .auto ↔ b.2 = .scalar "auto" := by
  have hmode : netOption "mode" b d = (do
      let text ← asString b.2
      let mode ← netMode text
      return { d with mode := mode }) := rfl
  rw [hmode] at h
  obtain ⟨text, htext, h⟩ := bind_eq_ok.mp h
  obtain ⟨mode, hread, h⟩ := bind_eq_ok.mp h
  obtain rfl := Except.ok.inj h
  change mode = .auto ↔ _
  rw [netMode_auto_iff hread]
  constructor
  · rintro rfl
    exact eq_scalar_of_asString htext (by decide)
  · intro hnode
    rw [hnode] at htext
    exact (Except.ok.inj htext).symm

/-- The details of `net` have the mode `auto` when the last `mode` says so. -/
theorem netEntries_auto_iff {entries : List Entry} {d : NetOptDetails}
    (h : eachEntry (.map entries) {} netOption = .ok d) :
    d.mode = .auto ↔ lastMode entries = some ("auto" : Str) := by
  rw [eachEntry, pairs, ok_bind] at h
  -- The last entry decides if it is a `mode`; otherwise the ones before it do.
  induction entries using List.reverseRecOn generalizing d with
  | nil =>
      obtain rfl := Except.ok.inj h
      simp [lastMode]
  | append_singleton rest b ih =>
      rw [List.foldlM_append] at h
      obtain ⟨d', hrest, h⟩ := bind_eq_ok.mp h
      rw [List.foldlM_cons] at h
      obtain ⟨d'', hb, hnil⟩ := bind_eq_ok.mp h
      obtain rfl := Except.ok.inj hnil
      obtain ⟨key, hkey, hlast⟩ := bind_eq_ok.mp hb
      rw [lastMode_snoc]
      by_cases hmode : key = "mode"
      · subst hmode
        have hnode := eq_scalar_of_asString hkey (by decide)
        rw [netOption_auto hlast, if_pos (by simp [keyIs, hnode])]
        cases b.2 <;> simp
      · have hother : keyIs "mode" b = false := by
          unfold keyIs
          split
          · rename_i text htext
            rw [htext, asString, Except.ok.injEq] at hkey
            exact decide_eq_false (hkey ▸ hmode)
          · rfl
        rw [netOption_mode hmode b d' _ hlast, ih hrest, hother]
        simp

/-! ## The update that `options` makes -/

theorem optionUpdate_quiet {name : Str} (hname : name ≠ "net") (val : Node) :
    Post (optionUpdate name val) Quiet := by
  unfold optionUpdate
  refine Post.ite (fun h => absurd h hname) fun _ => ?_
  refine Post.ite (fun _ => Post.bind fun _ _ => Post.ok (quiet_setTor _)) fun _ => ?_
  refine Post.ite (fun _ => Post.bind fun _ _ => Post.ok (quiet_insert (by decide) _)) fun _ => ?_
  refine Post.ite (fun _ => Post.bind fun _ _ => Post.ok (quiet_insert (by decide) _)) fun _ => ?_
  exact Post.ite (fun _ => Post.error) fun _ => Post.ok (quiet_touch hname)

theorem optionUpdate_net (val : Node) :
    Post (optionUpdate "net" val) (fun update => ∃ d, update = setNet d ∧
      (d.mode = .auto ↔
        ∃ entries, val = .map entries ∧ lastMode entries = some ("auto" : Str))) := by
  unfold optionUpdate
  refine Post.ite (fun _ => ?_) fun h => absurd rfl h
  refine Post.ite (fun hmap => ?_) fun hmap => ?_
  · refine Post.bind fun d hd => Post.ok ⟨d, rfl, ?_⟩
    cases val with
    | map entries =>
        rw [netEntries_auto_iff hd]
        simp
    | null => simp [Node.isMap] at hmap
    | scalar text => simp [Node.isMap] at hmap
    | sequence items => simp [Node.isMap] at hmap
  · refine Post.ok ⟨netDefault, rfl, ?_⟩
    constructor
    · intro h
      simp [netDefault] at h
    · rintro ⟨entries, rfl, -⟩
      simp [Node.isMap] at hmap

theorem optionUpdate_passesX11 (name : Str) (val : Node) :
    Post (optionUpdate name val) PassesX11 := by
  unfold optionUpdate
  refine Post.ite (fun _ => ?_) fun _ => ?_
  · exact Post.ite (fun _ => Post.bind fun d _ => Post.ok (passesX11_setNet d))
      fun _ => Post.ok (passesX11_setNet netDefault)
  refine Post.ite (fun _ => Post.bind fun _ _ => Post.ok (passesX11_setTor _)) fun _ => ?_
  refine Post.ite (fun _ => Post.bind fun _ _ => Post.ok ?_) fun _ => ?_
  · exact passesX11_insert (by decide) _
  refine Post.ite (fun _ => Post.bind fun _ _ => Post.ok ?_) fun _ => ?_
  · exact passesX11_insert (by decide) _
  exact Post.ite (fun _ => Post.error) fun _ => Post.ok (fun m => touch_comm m _ _)

/-- Every name but `net` makes a quiet update, whether it is there or not. -/
theorem listedUpdate_quiet (entries : List Entry) {name : Str} (hname : name ≠ "net") :
    Post (match lookup entries name with
      | some val => optionUpdate name val
      | none => .ok id) Quiet := by
  split
  · exact optionUpdate_quiet hname _
  · exact Post.ok quiet_id

/-- The updates of the map form: `x11`, then `net`, then the others. -/
theorem mapUpdates_eq_ok {entries : List Entry} {updates : List (OptMap → OptMap)}
    (h : mapUpdates entries = .ok updates) :
    ∃ first net rest, updates = first :: net :: rest ∧ Quiet first ∧ (∀ u ∈ rest, Quiet u) ∧
      (lookup entries "net" = none ∧ net = id ∨
        ∃ val d, lookup entries "net" = some val ∧ net = setNet d ∧
          (d.mode = .auto ↔
            ∃ netEntries, val = .map netEntries ∧ lastMode netEntries = some ("auto" : Str))) := by
  obtain ⟨-, -, h⟩ := bind_eq_ok.mp h
  rw [allOptionsLst, List.mapM_cons] at h
  obtain ⟨first, hfirst, h⟩ := bind_eq_ok.mp h
  obtain ⟨tail, h, htail⟩ := bind_eq_ok.mp h
  rw [List.mapM_cons] at h
  obtain ⟨net, hnet, h⟩ := bind_eq_ok.mp h
  obtain ⟨rest, hrest, h⟩ := bind_eq_ok.mp h
  obtain rfl := Except.ok.inj h
  obtain rfl := Except.ok.inj htail
  have hx11 : ("x11" : Str) ≠ "net" := by decide
  refine ⟨first, net, rest, rfl, listedUpdate_quiet entries hx11 first hfirst, ?_, ?_⟩
  · refine Post.mapM (fun name hname => listedUpdate_quiet entries ?_) rest hrest
    rintro rfl
    revert hname
    decide
  · cases hval : lookup entries "net" with
    | none =>
        rw [hval] at hnet
        exact .inl ⟨rfl, (Except.ok.inj hnet).symm⟩
    | some val =>
        rw [hval] at hnet
        obtain ⟨d, hd, hmode⟩ := optionUpdate_net val net hnet
        exact .inr ⟨val, d, rfl, hd, hmode⟩

theorem readOptions_eq_ok {v : Node} {update : OptMap → OptMap}
    (h : readOptions v = .ok update) :
    (∃ names, update = listUpdate names ∧ keepsAuto v = false) ∨
      ∃ entries updates, v = .map entries ∧ mapUpdates entries = .ok updates ∧
        update = fun m => updates.foldl (fun m update => update m) m := by
  obtain ⟨words, hwords, h⟩ := bind_eq_ok.mp h
  cases v with
  | null =>
      obtain rfl := Except.ok.inj hwords
      simp [err, raise] at h
  | scalar text =>
      obtain rfl := Except.ok.inj hwords
      exact .inl ⟨_, (Except.ok.inj h).symm, rfl⟩
  | sequence items =>
      obtain ⟨names, -, hnames⟩ := bind_eq_ok.mp hwords
      obtain rfl := Except.ok.inj hnames
      exact .inl ⟨_, (Except.ok.inj h).symm, rfl⟩
  | map entries =>
      obtain rfl := Except.ok.inj hwords
      obtain ⟨updates, hupdates, h⟩ := bind_eq_ok.mp h
      exact .inr ⟨entries, updates, rfl, hupdates, (Except.ok.inj h).symm⟩

theorem readOptions_passesX11 (v : Node) : Post (readOptions v) PassesX11 := by
  intro update h
  obtain ⟨names, rfl, -⟩ | ⟨entries, updates, -, hupdates, rfl⟩ := readOptions_eq_ok h
  · exact passesX11_listUpdate names
  · apply passesX11_foldl
    obtain ⟨-, -, hupdates⟩ := bind_eq_ok.mp hupdates
    refine Post.mapM (fun name _ => ?_) updates hupdates
    split
    · exact optionUpdate_passesX11 name _
    · exact Post.ok (fun _ => rfl)

/-- Behind `network: auto` the options leave the mode alone only as `keepsAuto` says. -/
theorem readOptions_mode {v : Node} {update : OptMap → OptMap} (h : readOptions v = .ok update)
    {m : OptMap} (hauto : (netDetails m).mode = .auto) :
    (netDetails (update m)).mode = .auto ↔ keepsAuto v = true := by
  obtain ⟨names, rfl, hlist⟩ | ⟨entries, updates, rfl, hupdates, rfl⟩ := readOptions_eq_ok h
  · rw [listUpdate_mode names hauto, hlist]
    simp
  · obtain ⟨first, net, rest, rfl, hfirst, hrest, hnet⟩ := mapUpdates_eq_ok hupdates
    simp only [List.foldl_cons]
    rw [(quiet_foldl hrest).mode]
    obtain ⟨hnone, rfl⟩ | ⟨val, d, hval, rfl, hmode⟩ := hnet
    · rw [id, hfirst.mode, hauto, keepsAuto_map_of_none hnone]
      simp
    · rw [netDetails_setNet, keepsAuto_map_iff hval, hmode]

/-- Options that keep the mode `auto` may stand on either side of `network: auto`. -/
theorem readOptions_commutes {v : Node} {update : OptMap → OptMap}
    (h : readOptions v = .ok update) (hkeeps : keepsAuto v = true) (m : OptMap) :
    setAuto (update m) = update (setAuto m) ∧ (Mild m → Mild (update m)) := by
  obtain ⟨names, rfl, hlist⟩ | ⟨entries, updates, rfl, hupdates, rfl⟩ := readOptions_eq_ok h
  · rw [hkeeps] at hlist
    contradiction
  · obtain ⟨first, net, rest, rfl, hfirst, hrest, hnet⟩ := mapUpdates_eq_ok hupdates
    have hquiet := quiet_foldl hrest
    simp only [List.foldl_cons]
    obtain ⟨hnone, rfl⟩ | ⟨val, d, hval, rfl, hmode⟩ := hnet
    · constructor
      · exact (hquiet.auto (first m)).trans (by rw [hfirst.auto]; rfl)
      · unfold Mild
        rw [hquiet.mode, id, hfirst.mode]
        exact id
    · have hauto : d.mode = .auto := hmode.mpr ((keepsAuto_map_iff hval).mp hkeeps)
      constructor
      · refine (hquiet.auto _).trans ?_
        rw [setAuto_setNet hauto, hfirst.auto]
      · intro _
        right
        rw [hquiet.mode, netDetails_setNet, hauto]

end Reading

end Crate.SpecParser
