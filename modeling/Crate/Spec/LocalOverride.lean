import Crate.Spec.MergeYaml
import Crate.Spec.ShareItems

/-!
# What a local override may change

A `.local` override is meant to be unable to loosen the profile it is merged
into.  The guard in front of the merge looks at top-level keys and at one list
of shares per section, while the parser behind it knows second spellings of
the keys, a `securelevel` inside `security`, and further lists and forms of
shares.  An override that keeps away from these cannot loosen any profile.
-/

namespace Crate.Profile

open Crate.Foundation
open Crate.Spec
open Crate.Yaml
open Crate.SpecParser
open Crate.ProfilePure (forbiddenLocalKeys checkLocalShareHostPath homeDir)

/-! ## The specification an override must not loosen -/

/-- `$HOME` or the home directory, or below one of them, without going up. -/
def Confined (home host : Str) : Prop :=
  (AtOrBelow '/' host "$HOME" ∨
    (home.head? = some '/' ∧ home ≠ "/") ∧ AtOrBelow '/' host (homeDir home)) ∧
  (".." : Str) ∉ host.splitOn '/'

instance (home host : Str) : Decidable (Confined home host) :=
  decidable_of_iff
    ((((host = "$HOME" ∨ (host.length > 5 ∧ host.take 5 = "$HOME") ∧ host[5]? = some '/') ∨
      (home.head? = some '/' ∧ home ≠ "/") ∧
        (host = homeDir home ∨
          (host.length > (homeDir home).length ∧
            host.take (homeDir home).length = homeDir home) ∧
          host[(homeDir home).length]? = some '/')) ∧
      (".." : Str) ∉ host.splitOn '/'))
    (by rw [Confined, atOrBelow_iff_take, atOrBelow_iff_take]; rfl)

/-- `after` isolates as `before` does; its new shares are the caller's own files. -/
structure Tight (home : Str) (before after : Spec) : Prop where
  securityAdvanced : after.securityAdvanced = before.securityAdvanced
  dbusOptions : after.dbusOptions = before.dbusOptions
  baseKeep : after.baseKeep = before.baseKeep
  baseKeepWildcard : after.baseKeepWildcard = before.baseKeepWildcard
  baseRemove : after.baseRemove = before.baseRemove
  baseHostRo : after.baseHostRo = before.baseHostRo
  baseHostDirs : after.baseHostDirs = before.baseHostDirs
  baseContainer : after.baseContainer = before.baseContainer
  scripts : after.scripts = before.scripts
  encrypted : after.encrypted = before.encrypted
  encryptionMethod : after.encryptionMethod = before.encryptionMethod
  encryptionKeyformat : after.encryptionKeyformat = before.encryptionKeyformat
  encryptionCipher : after.encryptionCipher = before.encryptionCipher
  securelevel : after.securelevel = before.securelevel
  socketProxy : after.socketProxy = before.socketProxy
  dirs : ∀ share ∈ after.dirsShare, share ∉ before.dirsShare → Confined home share.host
  files : ∀ share ∈ after.filesShare, share ∉ before.filesShare → Confined home share.host

/-! ## The guard -/

theorem confined_of_check {home host : Str} (h : checkLocalShareHostPath host home = .ok ()) :
    Confined home host := by
  unfold checkLocalShareHostPath at h
  simp only [check_seq_eq_ok, reject_eq_ok] at h
  obtain ⟨-, -, hdotdot, -, h⟩ := h
  refine ⟨?_, by simpa [ProfilePure.hasDotDotComponent] using hdotdot⟩
  split at h
  · rename_i hhome
    left
    rcases hhome with rfl | hbelow
    · exact .inl rfl
    · obtain ⟨rest, rfl⟩ := List.isPrefixOf_iff_prefix.mp hbelow
      exact .inr ⟨rest, by simp⟩
  · simp only [check_seq_eq_ok, reject_eq_ok] at h
    obtain ⟨-, -, hknown, hbelow⟩ := h
    simp only [not_or, not_not] at hknown
    right
    refine ⟨hknown.2, ?_⟩
    rcases not_not.mp hbelow with rfl | hbelow
    · exact .inl rfl
    · obtain ⟨rest, rfl⟩ := List.isPrefixOf_iff_prefix.mp hbelow
      exact .inr ⟨rest, by simp⟩

section Guard

variable {home path : Str}

theorem check_of_checkShare {label : Str} {item : Node}
    (h : checkShare home label item = .ok ()) {host : Str} (hhost : guardedHost item = some host) :
    checkLocalShareHostPath (MountsPure.splitRoSuffix host).1 home = .ok () := by
  unfold checkShare at h
  rw [hhost] at h
  dsimp only at h
  split at h
  · assumption
  · simp [raise] at h

/-- What the guard has found out about a key of an override. -/
theorem checkEntry_eq_ok {k : Entry} (h : checkEntry home path k = .ok ()) :
    ∃ key, k.1 = .scalar key ∧ key ∉ forbiddenLocalKeys ∧
      (key = "dirs" ∨ key = "files" → ∀ item ∈ guardedShares k.2, ∀ host,
        guardedHost item = some host →
        checkLocalShareHostPath (MountsPure.splitRoSuffix host).1 home = .ok ()) := by
  unfold checkEntry at h
  split at h
  · rename_i key hkey
    have hallowed : key ∉ forbiddenLocalKeys := by
      intro hforbidden
      simp [ProfilePure.checkLocalTopLevelKey, reject, hforbidden, raise, bind, Except.bind] at h
    refine ⟨key, hkey, hallowed, ?_⟩
    intro hshares item hitem host hhost
    have hpass : ProfilePure.checkLocalTopLevelKey key = .ok () := reject_eq_ok.mpr hallowed
    rw [hpass] at h
    simp only [pure_eq_ok, if_pos hshares] at h
    exact check_of_checkShare (forM_eq_ok.mp h item hitem) hhost
  · simp [raise] at h

theorem checkLocalOverlay_eq_ok {o : Node} (h : checkLocalOverlay o home path = .ok ()) :
    o = .null ∨ ∃ entries, o = .map entries ∧ ∀ k ∈ entries, checkEntry home path k = .ok () := by
  cases o with
  | null => exact .inl rfl
  | map entries => exact .inr ⟨entries, rfl, forM_eq_ok.mp h⟩
  | scalar text => simp [checkLocalOverlay, raise] at h
  | sequence items => simp [checkLocalOverlay, raise] at h

end Guard

/-! ## What the parser finds -/

/-- The entries of the lists `share` of a section. -/
def shareItems (name : Str) (top : Node) : List Node := under name (under "share" itemsOf) top

/-- `shares` are `before` and the ones that `read` makes of the items. -/
def ReadFrom (read : Node → Parse Share) (items : List Node) (before shares : List Share) : Prop :=
  ∀ share, share ∈ shares ↔ share ∈ before ∨ ∃ item ∈ items, read item = .ok share

section ReadFrom

variable {read : Node → Parse Share} {items items' : List Node}
  {before first second third shares : List Share}

theorem ReadFrom.nil : ReadFrom read [] shares shares := by
  intro share
  simp

theorem ReadFrom.append (h : ReadFrom read items first second)
    (h' : ReadFrom read items' second third) : ReadFrom read (items ++ items') first third := by
  intro share
  rw [h' share, h share]
  simp only [List.mem_append, or_assoc, or_and_right, exists_or]

theorem readFrom_mapM (h : items.mapM read = .ok shares) :
    ReadFrom read items before (before ++ shares) := by
  intro share
  rw [List.mem_append, mem_of_mapM_eq_ok h]

/-- A loop over entries reads what each entry lists. -/
theorem readFrom_foldlM {itemsOf : Entry → List Node}
    {act : List Share → Entry → Parse (List Share)}
    (hact : ∀ b s s', act s b = .ok s' → ReadFrom read (itemsOf b) s s') {entries : List Entry}
    (h : entries.foldlM act first = .ok second) :
    ReadFrom read (entries.flatMap itemsOf) first second := by
  induction entries generalizing first with
  | nil =>
      obtain rfl := Except.ok.inj h
      exact .nil
  | cons b rest ih =>
      rw [List.foldlM_cons] at h
      obtain ⟨next, hnext, h⟩ := bind_eq_ok.mp h
      exact (hact b _ _ hnext).append (ih h)

end ReadFrom

theorem flatMap_filter_keyIs (name : Str) (c : Node → List Node) (doc : List Entry) :
    (doc.filter (keyIs name)).flatMap (fun k => c k.2) = under name c (.map doc) := by
  induction doc with
  | nil => rfl
  | cons k rest ih =>
      simp only [under, List.flatMap_cons] at ih ⊢
      rw [List.filter_cons]
      split
      · rw [List.flatMap_cons, ih]
      · exact ih


section Parser

variable [yaml : YamlCpp]

theorem eq_docOf_of_pairs {v : Node} {entries : List Entry} (h : pairs v = .ok entries) :
    entries = docOf v := by
  cases v with
  | map _ => exact (Except.ok.inj h).symm
  | null => exact (Except.ok.inj h).symm
  | scalar _ => exact (Except.ok.inj h).symm
  | sequence items =>
      cases items with
      | nil => exact (Except.ok.inj h).symm
      | cons _ _ => contradiction

theorem parse_docOf {top : Node} {spec : Spec} (h : parseSpecFromNode top = .ok spec) :
    parseSpecFromNode (.map (docOf top)) = .ok spec := by
  obtain ⟨entries, hentries, h⟩ := bind_eq_ok.mp h
  obtain rfl := eq_docOf_of_pairs hentries
  exact h

/-- A section with one spelling is found by its key. -/
theorem sectionOf_eq_keyIs {s : Section} {name : Str} (hkeys : s.keys = [name])
    (hof : Section.ofKey name = some s) :
    (fun k => decide (sectionOf k = some s)) = keyIs name := by
  funext k
  rw [Bool.eq_iff_iff, decide_eq_true_eq, keyIs_iff]
  constructor
  · intro h
    obtain ⟨key, hkey, hmem⟩ := asString_of_sectionOf h
    rw [hkeys, List.mem_singleton] at hmem
    rw [hkey, hmem]
  · intro h
    simp only [sectionOf, h, asString]
    exact hof

/-! ### The level of security -/

def isLevel (e : Entry) : Bool := keyIs "securelevel" e || keyIs "secure-level" e

/-- The entries of `security` that set the level. -/
def levelEntries (v : Node) : List Entry := (docOf v).filter isLevel

def readLevel (_ : Int) (b : Entry) : Parse Int := do
  SpecPure.parseIntInRange (← asString b.2) (-1) 3 "security/securelevel"

theorem securityField_of_level {key : Str} {b : Entry} {s s' : SecurityFields}
    (hlevel : key = "securelevel" ∨ key = "secure-level")
    (h : securityField key b s = .ok s') : readLevel s.securelevel b = .ok s'.securelevel := by
  unfold securityField at h
  unfold readLevel
  rcases hlevel with rfl | rfl
  all_goals
    simp at h
    obtain ⟨text, htext, h⟩ := bind_eq_ok.mp h
    obtain ⟨level, hlevel, h⟩ := bind_eq_ok.mp h
    obtain rfl := Except.ok.inj h
    rw [htext, ok_bind]
    exact hlevel

theorem securityField_of_not_level {key : Str} {b : Entry} {s s' : SecurityFields}
    (hlevel : ¬(key = "securelevel" ∨ key = "secure-level"))
    (h : securityField key b s = .ok s') : s'.securelevel = s.securelevel := by
  have hpost : Post (securityField key b s) (fun s' => s'.securelevel = s.securelevel) := by
    unfold securityField
    refine Post.ite (fun _ => ?_) (fun _ => ?_)
    · exact Post.bind (fun _ _ => Post.bind (fun _ _ => Post.ok rfl))
    refine Post.ite (fun _ => Post.bind (fun _ _ => Post.ok rfl)) (fun _ => ?_)
    refine Post.ite (fun _ => Post.bind (fun _ _ => Post.ok rfl)) (fun _ => ?_)
    refine Post.ite (fun _ => Post.bind (fun _ _ => Post.ok rfl)) (fun _ => ?_)
    refine Post.ite (fun _ => Post.bind (fun _ _ => Post.ok rfl)) (fun _ => ?_)
    refine Post.ite (fun hcontra => absurd hcontra hlevel) (fun _ => ?_)
    refine Post.ite (fun _ => ?_) (fun _ => ?_)
    · exact Post.bind (fun _ _ => Post.bind (fun _ _ => Post.ok rfl))
    exact Post.ite (fun _ => Post.bind (fun _ _ => Post.ok rfl)) (fun _ => Post.error)
  exact hpost s' h

theorem isLevel_iff {b : Entry} {key : Str} (hkey : asString b.1 = .ok key) :
    isLevel b = true ↔ key = "securelevel" ∨ key = "secure-level" := by
  simp only [isLevel, Bool.or_eq_true, keyIs_iff]
  constructor
  · rintro (h | h)
    · left
      simpa [h, asString, eq_comm] using hkey
    · right
      simpa [h, asString, eq_comm] using hkey
  · rintro (rfl | rfl)
    · exact .inl (eq_scalar_of_asString hkey (by decide))
    · exact .inr (eq_scalar_of_asString hkey (by decide))

theorem level_of_foldlM {entries : List Entry} {s s' : SecurityFields}
    (h : entries.foldlM (fun x b => do securityField (← asString b.1) b x) s = .ok s') :
    (entries.filter isLevel).foldlM readLevel s.securelevel = .ok s'.securelevel := by
  induction entries generalizing s with
  | nil =>
      obtain rfl := Except.ok.inj h
      rfl
  | cons b rest ih =>
      rw [List.foldlM_cons] at h
      obtain ⟨next, hnext, h⟩ := bind_eq_ok.mp h
      obtain ⟨key, hkey, hfield⟩ := bind_eq_ok.mp hnext
      rw [List.filter_cons]
      split
      · rename_i hlevel
        rw [List.foldlM_cons,
          securityField_of_level ((isLevel_iff hkey).mp hlevel) hfield, ok_bind]
        exact ih h
      · rename_i hlevel
        rw [← securityField_of_not_level (fun hcontra => hlevel ((isLevel_iff hkey).mpr hcontra))
          hfield]
        exact ih h

/-- After `security` the level is the one its level entries leave. -/
theorem security_level {v : Node} {s s' : SecurityFields} (h : security v s = .ok s') :
    (levelEntries v).foldlM readLevel s.securelevel = .ok s'.securelevel := by
  obtain ⟨-, -, h⟩ := bind_eq_ok.mp h
  obtain ⟨entries, hentries, h⟩ := bind_eq_ok.mp h
  rw [levelEntries, ← eq_docOf_of_pairs hentries]
  exact level_of_foldlM h

theorem securelevel_of_parse {top : Node} {spec : Spec} (h : parseSpecFromNode top = .ok spec) :
    (under "security" levelEntries (.map (docOf top))).foldlM readLevel (-1) =
      .ok spec.securelevel := by
  have hfold := foldlM_readSection (parse_docOf h) (s := .security) (by decide)
  rw [sectionOf_eq_keyIs rfl (by decide)] at hfold
  generalize docOf top = doc at hfold
  suffices hgeneral : ∀ x y : SecurityFields,
      (doc.filter (keyIs "security")).foldlM (fun x k => security k.2 x) x = .ok y →
      (under "security" levelEntries (.map doc)).foldlM readLevel x.securelevel =
        .ok y.securelevel from hgeneral _ _ hfold
  clear hfold
  induction doc with
  | nil =>
      intro x y hrun
      obtain rfl := Except.ok.inj hrun
      rfl
  | cons k rest ih =>
      intro x y hrun
      simp only [under, List.flatMap_cons] at ih ⊢
      rw [List.filter_cons] at hrun
      split
      · rename_i hkey
        rw [if_pos hkey, List.foldlM_cons] at hrun
        obtain ⟨next, hnext, hrun⟩ := bind_eq_ok.mp hrun
        rw [List.foldlM_append, security_level hnext, ok_bind]
        exact ih _ _ hrun
      · rename_i hkey
        rw [if_neg hkey] at hrun
        exact ih _ _ hrun

/-- One entry of `dirs` or `files`. -/
theorem readFrom_shareField {read : Node → Parse Share} {notList section_ : Str}
    {field : Str → Entry → List Share → Parse (List Share)}
    (hfield : ∀ key b s, field key b s =
      if key = "share" then
        match b.2 with
        | .sequence items => do return s ++ (← items.mapM read)
        | _ => err notList
      else unknownElement section_ b)
    {b : Entry} {s s' : List Share} (h : (do field (← asString b.1) b s) = Except.ok s') :
    ReadFrom read (if keyIs "share" b then itemsOf b.2 else []) s s' := by
  obtain ⟨key, hkey, h⟩ := bind_eq_ok.mp h
  rw [hfield] at h
  split at h
  · rename_i hshare
    subst hshare
    rw [if_pos (keyIs_iff.mpr (eq_scalar_of_asString hkey (by decide)))]
    split at h
    · rename_i items hitems
      obtain ⟨shares, hshares, h⟩ := bind_eq_ok.mp h
      obtain rfl := Except.ok.inj h
      rw [hitems]
      exact readFrom_mapM hshares
    · simp [err, raise] at h
  · simp [unknownElement, err, raise] at h

theorem readFrom_eachEntry {read : Node → Parse Share}
    {field : Str → Entry → List Share → Parse (List Share)}
    (hfield : ∀ b s s', (do field (← asString b.1) b s) = Except.ok s' →
      ReadFrom read (if keyIs "share" b then itemsOf b.2 else []) s s')
    {v : Node} {s s' : List Share} (h : eachEntry v s field = .ok s') :
    ReadFrom read (under "share" itemsOf v) s s' := by
  obtain ⟨entries, hentries, h⟩ := bind_eq_ok.mp h
  have hread := readFrom_foldlM hfield h
  obtain rfl := eq_docOf_of_pairs hentries
  cases v with
  | map entries => exact hread
  | _ => exact hread

theorem readFrom_dirs {v : Node} {s s' : List Share} (h : dirs v s = .ok s') :
    ReadFrom dirShare (under "share" itemsOf v) s s' :=
  readFrom_eachEntry (fun _ _ _ => readFrom_shareField (fun _ _ _ => rfl)) h

theorem readFrom_files {v : Node} {s s' : List Share} (h : files v s = .ok s') :
    ReadFrom fileShare (under "share" itemsOf v) s s' := by
  obtain ⟨-, -, h⟩ := bind_eq_ok.mp h
  exact readFrom_eachEntry (fun _ _ _ => readFrom_shareField (fun _ _ _ => rfl)) h

/-- The shared directories are those its lists name. -/
theorem mem_dirsShare {top : Node} {spec : Spec} (h : parseSpecFromNode top = .ok spec)
    {share : Share} :
    share ∈ spec.dirsShare ↔ ∃ item ∈ shareItems "dirs" (.map (docOf top)),
      dirShare item = .ok share := by
  have hfold := foldlM_readSection (parse_docOf h) (s := .dirs) (by decide)
  rw [sectionOf_eq_keyIs rfl (by decide)] at hfold
  have hstep : ∀ (b : Entry) s s', readSection .dirs b.2 s = .ok s' →
      ReadFrom dirShare (under "share" itemsOf b.2) s s' := fun _ _ _ => readFrom_dirs
  have hread := readFrom_foldlM hstep hfold share
  rw [flatMap_filter_keyIs] at hread
  refine hread.trans (or_iff_right ?_)
  exact List.not_mem_nil

theorem mem_filesShare {top : Node} {spec : Spec} (h : parseSpecFromNode top = .ok spec)
    {share : Share} :
    share ∈ spec.filesShare ↔ ∃ item ∈ shareItems "files" (.map (docOf top)),
      fileShare item = .ok share := by
  have hfold := foldlM_readSection (parse_docOf h) (s := .files) (by decide)
  rw [sectionOf_eq_keyIs rfl (by decide)] at hfold
  have hstep : ∀ (b : Entry) s s', readSection .files b.2 s = .ok s' →
      ReadFrom fileShare (under "share" itemsOf b.2) s s' := fun _ _ _ => readFrom_files
  have hread := readFrom_foldlM hstep hfold share
  rw [flatMap_filter_keyIs] at hread
  refine hread.trans (or_iff_right ?_)
  exact List.not_mem_nil

end Parser

/-! ## Overrides the guard sees through -/

/-- Second spellings and sections that are not on the list of the guard. -/
def unguardedKeys : List Str :=
  ["security-advanced", "socket-proxy", "base_container", "base-container"]

/-- The guard has looked at this item of a section, and at the host path that is read from it. -/
def Judged (v item : Node) (host : Str) : Prop :=
  item ∈ guardedShares v ∧ ∃ text, guardedHost item = some text ∧ SharePath text host

section Override

variable [yaml : YamlCpp] {home path : Str}

/-- An override that says nothing in a form that the guard does not know. -/
structure Guarded (home : Str) (o : Node) : Prop where
  keys : ∀ k ∈ docOf o, ∀ key, k.1 = .scalar key → key ∉ unguardedKeys
  security : ∀ v, (.scalar "security", v) ∈ docOf o →
    v = .null ∨ v.isMap = true ∧ levelEntries v = []
  dirs : ∀ v, (.scalar "dirs", v) ∈ docOf o → ∀ item ∈ under "share" itemsOf v, ∀ host,
    DirItem item host → Judged v item host ∨ Confined home host
  files : ∀ v, (.scalar "files", v) ∈ docOf o → ∀ item ∈ under "share" itemsOf v, ∀ host,
    FileItem item host → Judged v item host ∨ Confined home host

/-- No profile is loosened by this override. -/
def CannotLoosen (home : Str) (o : Node) : Prop :=
  ∀ b m before after, parseSpecFromNode b = .ok before → mergeYaml b o = .ok m →
    parseSpecFromNode m = .ok after → Tight home before after

/-- A section that the override does not name is read as in the profile. -/
theorem parts_mergeYaml {b m : Node} {entries : List Entry} {before after : Spec}
    (hbefore : parseSpecFromNode b = .ok before) (hmerge : mergeYaml b (.map entries) = .ok m)
    (hafter : parseSpecFromNode m = .ok after) {s : Section} (hoptions : s ≠ .options)
    (hs : ∀ k ∈ entries, sectionOf k ≠ some s) : parts after s = parts before s := by
  have hsame := filter_mergeYaml (p := fun k => sectionOf k = some s)
    (fun e he v => decide_eq_false (hs e he)) hmerge
  have hbefore' := foldlM_readSection (parse_docOf hbefore) hoptions
  have hafter' := foldlM_readSection (parse_docOf hafter) hoptions
  rw [hsame, hbefore'] at hafter'
  exact (Except.ok.inj hafter').symm

theorem securelevel_mergeYaml {b m : Node} {entries : List Entry} {before after : Spec}
    (hbefore : parseSpecFromNode b = .ok before) (hmerge : mergeYaml b (.map entries) = .ok m)
    (hafter : parseSpecFromNode m = .ok after)
    (hs : ∀ v, (.scalar "security", v) ∈ entries →
      v = .null ∨ v.isMap = true ∧ levelEntries v = []) :
    after.securelevel = before.securelevel := by
  have hsame : under "security" levelEntries m = under "security" levelEntries b := by
    refine under_mergeYaml (by decide) (fun v hv => ?_) hmerge
    rcases hs v hv with rfl | ⟨hmap, hnone⟩
    · refine ⟨rfl, fun old r hr => ?_⟩
      obtain rfl := Except.ok.inj hr
      rfl
    · refine ⟨hnone, fun old r hr => ?_⟩
      obtain ⟨rfl, -⟩ | ⟨-, hold, rfl⟩ | ⟨_, _, -, rfl, -⟩ | ⟨_, _, _, rfl, rfl, hentries, rfl⟩ :=
        mergeNode_eq_ok hr
      · contradiction
      · cases old with
        | map _ =>
            rw [hmap] at hold
            rcases hold with hold | hold <;> contradiction
        | _ => exact hnone
      · contradiction
      · rw [mergeEntries_eq_foldlM] at hentries
        refine filter_foldlM puts_of_mergeEntry (fun e he w => ?_) hentries
        have hnot := List.filter_eq_nil_iff.mp hnone e he
        exact Bool.eq_false_iff.mpr hnot
  have hdoc : ∀ v, under "security" levelEntries (.map (docOf v)) =
      under "security" levelEntries v := by
    intro v
    cases v <;> rfl
  have hbefore' := securelevel_of_parse hbefore
  have hafter' := securelevel_of_parse hafter
  rw [hdoc] at hbefore' hafter'
  rw [hsame, hbefore'] at hafter'
  exact (Except.ok.inj hafter').symm

omit yaml in
theorem confined_of_judged {name : Str} (hname : name = "dirs" ∨ name = "files")
    {entries : List Entry} (hcheck : ∀ k ∈ entries, checkEntry home path k = .ok ()) {v : Node}
    (hv : (.scalar name, v) ∈ entries) {item : Node} {host : Str}
    (h : Judged v item host) : Confined home host := by
  obtain ⟨hitem, text, htext, hpath⟩ := h
  obtain ⟨key, hkey, -, hshares⟩ := checkEntry_eq_ok (hcheck _ hv)
  obtain rfl := Node.scalar.inj hkey
  rw [← sharePath_iff.mp hpath]
  exact confined_of_check (hshares hname item hitem text htext)

/-- A share of the merged document is one of the profile, or an accepted one of the override. -/
theorem confined_of_new {name : Str} (hname : name = "dirs" ∨ name = "files")
    {read : Node → Parse Share} {b m : Node} {entries : List Entry}
    (hcheck : ∀ k ∈ entries, checkEntry home path k = .ok ())
    (hguarded : ∀ v, (.scalar name, v) ∈ entries → ∀ item ∈ under "share" itemsOf v, ∀ host,
      (∃ share, read item = .ok share ∧ share.host = host) →
      Judged v item host ∨ Confined home host)
    (hmerge : mergeYaml b (.map entries) = .ok m) {share : Share}
    (hnew : ∃ item ∈ shareItems name (.map (docOf m)), read item = .ok share)
    (hold : ¬∃ item ∈ shareItems name (.map (docOf b)), read item = .ok share) :
    Confined home share.host := by
  have hdoc : ∀ v, shareItems name (.map (docOf v)) = shareItems name v := by
    intro v
    cases v <;> rfl
  rw [hdoc] at hnew hold
  obtain ⟨item, hitem, hread⟩ := hnew
  have hoptions : name ≠ "options" := by
    rcases hname with rfl | rfl <;> decide
  have hgathers : Gathers (under "share" itemsOf) := gathers_under (by decide) gathers_itemsOf
  rcases mem_under_mergeYaml hoptions hgathers hmerge hitem with hb | ho
  · exact absurd ⟨item, hb, hread⟩ hold
  · obtain ⟨v, hv, hitem⟩ := mem_under.mp ho
    rcases hguarded v hv item hitem _ ⟨share, hread, rfl⟩ with hjudged | hconfined
    · exact confined_of_judged hname hcheck hv hjudged
    · exact hconfined

theorem Guarded.cannotLoosen {o : Node} (hcheck : checkLocalOverlay o home path = .ok ())
    (h : Guarded home o) : CannotLoosen home o := by
  intro b m before after hbefore hmerge hafter
  obtain rfl | ⟨entries, rfl, hentries⟩ := checkLocalOverlay_eq_ok hcheck
  · have hm : m = b := by
      cases b <;> exact (Except.ok.inj hmerge).symm
    obtain rfl := Except.ok.inj ((hm ▸ hafter).symm.trans hbefore)
    constructor <;> first | rfl | exact fun _ hnew hold => absurd hnew hold
  · -- A section whose spellings are all refused is one that the override does not name.
    have hpart : ∀ s : Section, s ≠ .options →
        (∀ key ∈ s.keys, key ∈ forbiddenLocalKeys ∨ key ∈ unguardedKeys) →
        parts after s = parts before s := by
      intro s hoptions hspellings
      refine parts_mergeYaml hbefore hmerge hafter hoptions (fun k hk hs => ?_)
      obtain ⟨key, hkey, hmem⟩ := asString_of_sectionOf hs
      obtain ⟨key', hkey', hallowed, -⟩ := checkEntry_eq_ok (hentries k hk)
      obtain rfl := Node.scalar.inj (hkey.symm.trans hkey')
      exact (hspellings key hmem).elim hallowed (h.keys k hk key hkey)
    have hbase := hpart .base (by decide) (by decide)
    have hencrypted := hpart .encrypted (by decide) (by decide)
    exact {
      securityAdvanced := hpart .securityAdvanced (by decide) (by decide)
      dbusOptions := hpart .dbus (by decide) (by decide)
      baseKeep := congrArg BaseFields.baseKeep hbase
      baseKeepWildcard := congrArg BaseFields.baseKeepWildcard hbase
      baseRemove := congrArg BaseFields.baseRemove hbase
      baseHostRo := congrArg BaseFields.baseHostRo hbase
      baseHostDirs := congrArg BaseFields.baseHostDirs hbase
      baseContainer := hpart .baseContainer (by decide) (by decide)
      scripts := hpart .scripts (by decide) (by decide)
      encrypted := congrArg EncryptionFields.encrypted hencrypted
      encryptionMethod := congrArg EncryptionFields.encryptionMethod hencrypted
      encryptionKeyformat := congrArg EncryptionFields.encryptionKeyformat hencrypted
      encryptionCipher := congrArg EncryptionFields.encryptionCipher hencrypted
      securelevel := securelevel_mergeYaml hbefore hmerge hafter h.security
      socketProxy := hpart .socketProxy (by decide) (by decide)
      dirs := by
        intro share hnew hold
        rw [mem_dirsShare hafter] at hnew
        rw [mem_dirsShare hbefore] at hold
        refine confined_of_new (.inl rfl) hentries (fun v hv item hitem host hread => ?_) hmerge
          hnew hold
        exact h.dirs v hv item hitem host (dirItem_iff.mpr hread)
      files := by
        intro share hnew hold
        rw [mem_filesShare hafter] at hnew
        rw [mem_filesShare hbefore] at hold
        refine confined_of_new (.inr rfl) hentries (fun v hv item hitem host hread => ?_) hmerge
          hnew hold
        exact h.files v hv item hitem host (fileItem_iff.mpr hread) }

/-! ## Overrides that do loosen -/

/-- An override that is a specification by itself and repeats no key. -/
structure Readable (o : Node) : Prop where
  accepted : ∃ spec, parseSpecFromNode o = .ok spec
  distinct : DistinctKeys (docOf o)
  security : ∀ v, (.scalar "security", v) ∈ docOf o → DistinctKeys (docOf v)

/-- On top of the empty profile an override is the specification. -/
theorem CannotLoosen.tight_alone {o : Node} (h : CannotLoosen home o) {spec : Spec}
    (hspec : parseSpecFromNode o = .ok spec) : Tight home {} spec := by
  have hmerge : mergeYaml .null o = .ok o := by
    cases o <;> rfl
  exact h .null o {} spec rfl hmerge hspec

omit yaml in
theorem ne_none_of_foldlM {α : Type} {f : Node → Parse α} {l : List Entry} (hl : l ≠ [])
    {x y : Option α} (h : l.foldlM (fun _ k => (f k.2).map some) x = .ok y) : y ≠ none := by
  obtain ⟨front, last, rfl⟩ := (List.eq_nil_or_concat l).resolve_left hl
  rw [List.concat_eq_append] at h
  obtain ⟨_, -, hlast⟩ := exists_of_foldlM_snoc h
  obtain ⟨a, -, rfl⟩ := map_eq_ok.mp hlast
  simp

theorem filter_sectionOf_ne_nil {doc : List Entry} {k : Entry} (hk : k ∈ doc) {key : Str}
    (hkey : k.1 = .scalar key) {s : Section} (hs : Section.ofKey key = some s) :
    doc.filter (fun k => sectionOf k = some s) ≠ [] := by
  refine List.ne_nil_of_mem (List.mem_filter.mpr ⟨hk, decide_eq_true ?_⟩)
  simp only [sectionOf, hkey, asString]
  exact hs

/-- A key that the guard does not know sets what the empty profile does not. -/
theorem CannotLoosen.keys {o : Node} (h : CannotLoosen home o) {spec : Spec}
    (hspec : parseSpecFromNode o = .ok spec) {k : Entry} (hk : k ∈ docOf o) {key : Str}
    (hkey : k.1 = .scalar key) : key ∉ unguardedKeys := by
  have htight := h.tight_alone hspec
  have hadvanced : Section.ofKey key ≠ some .securityAdvanced := by
    intro hs
    have hfold := foldlM_readSection (s := .securityAdvanced) (parse_docOf hspec) (by decide)
    exact ne_none_of_foldlM (f := securityAdvanced) (filter_sectionOf_ne_nil hk hkey hs) hfold
      htight.securityAdvanced
  have hproxy : Section.ofKey key ≠ some .socketProxy := by
    intro hs
    have hfold := foldlM_readSection (s := .socketProxy) (parse_docOf hspec) (by decide)
    exact ne_none_of_foldlM (f := socketProxy) (filter_sectionOf_ne_nil hk hkey hs) hfold
      htight.socketProxy
  have hcontainer : Section.ofKey key ≠ some .baseContainer := by
    intro hs
    have hfold := foldlM_readSection (s := .baseContainer) (parse_docOf hspec) (by decide)
    exact ne_none_of_foldlM (f := baseContainer) (filter_sectionOf_ne_nil hk hkey hs) hfold
      htight.baseContainer
  intro hmem
  simp only [unguardedKeys, List.mem_cons, List.not_mem_nil, or_false] at hmem
  rcases hmem with rfl | rfl | rfl | rfl
  · exact hadvanced (by decide)
  · exact hproxy (by decide)
  · exact hcontainer (by decide)
  · exact hcontainer (by decide)

theorem CannotLoosen.dirs {o : Node} (h : CannotLoosen home o) {spec : Spec}
    (hspec : parseSpecFromNode o = .ok spec) {v : Node} (hv : (.scalar "dirs", v) ∈ docOf o)
    {item : Node} (hitem : item ∈ under "share" itemsOf v) {share : Share}
    (hshare : dirShare item = .ok share) : Confined home share.host := by
  refine (h.tight_alone hspec).dirs share ?_ List.not_mem_nil
  exact (mem_dirsShare hspec).mpr ⟨item, mem_under.mpr ⟨v, hv, hitem⟩, hshare⟩

theorem CannotLoosen.files {o : Node} (h : CannotLoosen home o) {spec : Spec}
    (hspec : parseSpecFromNode o = .ok spec) {v : Node} (hv : (.scalar "files", v) ∈ docOf o)
    {item : Node} (hitem : item ∈ under "share" itemsOf v) {share : Share}
    (hshare : fileShare item = .ok share) : Confined home share.host := by
  refine (h.tight_alone hspec).files share ?_ List.not_mem_nil
  exact (mem_filesShare hspec).mpr ⟨item, mem_under.mpr ⟨v, hv, hitem⟩, hshare⟩

/-! ### A level on top of another -/

theorem securityField_total {key : Str} {b : Entry} {s₀ s₁ : SecurityFields}
    (h : securityField key b s₀ = .ok s₁) (s : SecurityFields) :
    ∃ s', securityField key b s = .ok s' := by
  unfold securityField at h ⊢
  split_ifs at h ⊢
  case neg => simp [unknownElement, err, raise] at h
  all_goals
    obtain ⟨a, ha, h⟩ := bind_eq_ok.mp h
    rw [ha, ok_bind]
    first
      | exact ⟨_, rfl⟩
      | obtain ⟨a', ha', -⟩ := bind_eq_ok.mp h
        rw [ha', ok_bind]
        exact ⟨_, rfl⟩

/-- What `security` accepts is a map of fields. -/
theorem security_entries {v : Node} {s s' : SecurityFields} (h : security v s = .ok s') :
    v = .map (docOf v) ∧ ∀ b ∈ docOf v, ∃ key s₀ s₁,
      b.1 = .scalar key ∧ securityField key b s₀ = .ok s₁ := by
  obtain ⟨⟨⟩, hmap, h⟩ := bind_eq_ok.mp h
  obtain ⟨entries, hentries, h⟩ := bind_eq_ok.mp h
  obtain rfl := eq_docOf_of_pairs hentries
  constructor
  · cases v with
    | map entries => rfl
    | _ => simp [requireMap, Node.isMap, err, raise] at hmap
  · intro b hb
    obtain ⟨s₀, s₁, hstep⟩ := exists_step_of_foldlM_eq_ok h hb
    obtain ⟨key, hkey, hfield⟩ := bind_eq_ok.mp hstep
    refine ⟨key, s₀, s₁, eq_scalar_of_asString hkey ?_, hfield⟩
    rintro rfl
    simp [securityField, unknownElement, err, raise] at hfield

/-- A map of the same fields in another order is accepted as well. -/
theorem security_of_perm {entries entries' : List Entry} {s₀ s₁ : SecurityFields}
    (h : security (.map entries) s₀ = .ok s₁) (hperm : entries'.Perm entries)
    (s : SecurityFields) : ∃ s', security (.map entries') s = .ok s' := by
  have hfields := (security_entries h).2
  suffices hfold : ∃ s', entries'.foldlM (fun x b => do securityField (← asString b.1) b x) s =
      .ok s' from hfold
  refine exists_foldlM_eq_ok (P := fun l _ => ∀ b ∈ l, b ∈ entries) ?_ (fun b => hperm.mem_iff.mp)
  intro b l s hl
  obtain ⟨key, s₀, s₁, hkey, hfield⟩ := hfields b (hl b (by simp))
  obtain ⟨s', hs'⟩ := securityField_total hfield s
  refine ⟨s', ?_, fun b' hb' => hl b' (List.mem_cons_of_mem b hb')⟩
  rw [hkey, asString, ok_bind]
  exact hs'

/-- A profile that does nothing but set the level. -/
def levelBase (key level : Str) : Node :=
  .map [(.scalar "security", .map [(.scalar key, .scalar level)])]

theorem parse_levelBase {key : Str} (hkey : key = "securelevel" ∨ key = "secure-level") :
    (∃ spec, parseSpecFromNode (levelBase key "0") = .ok spec ∧ spec.securelevel = 0) ∧
      ∃ spec, parseSpecFromNode (levelBase key "1") = .ok spec ∧ spec.securelevel = 1 := by
  rcases hkey with rfl | rfl
  · exact ⟨⟨_, rfl, rfl⟩, _, rfl, rfl⟩
  · exact ⟨⟨_, rfl, rfl⟩, _, rfl, rfl⟩

theorem exists_text_of_readLevel {b : Entry} {x level : Int} (h : readLevel x b = .ok level) :
    ∃ text, b.2 = .scalar text := by
  obtain ⟨text, htext, h⟩ := bind_eq_ok.mp h
  refine ⟨text, eq_scalar_of_asString htext ?_⟩
  rintro rfl
  have hnull : SpecPure.parseIntInRange "null" (-1) 3 "security/securelevel" =
      .error "spec: security/securelevel: 'null' is not an integer" := rfl
  rw [hnull] at h
  contradiction

/-- On top of a profile that sets the level under the same key, the override has its way. -/
theorem mergeNode_level {key level text : Str} {front back : List Entry}
    (hscalar : ∀ e ∈ front ++ (.scalar key, .scalar text) :: back, ∃ key, e.1 = .scalar key)
    (hkeys : DistinctKeys (front ++ (.scalar key, .scalar text) :: back)) :
    mergeNode (.map [(.scalar key, .scalar level)])
        (.map (front ++ (.scalar key, .scalar text) :: back)) =
      .ok (.map ((.scalar key, .scalar text) :: (front ++ back))) := by
  have hover : ∀ rest, mergeEntry ((.scalar key, .scalar level) :: rest)
      (.scalar key, .scalar text) = .ok ((.scalar key, .scalar text) :: rest) := by
    intro rest
    simp [mergeEntry, lookup, keyIs, mergeNode, setKey]
  have hnew : ∀ result e key, e.1 = .scalar key → lookup result key = none →
      mergeEntry result e = .ok (setKey key e.2 result) := by
    intro result e key hkey hnone
    simp [mergeEntry, hkey, hnone]
  rw [mergeNode, mergeEntries_eq_foldlM, foldlM_over hnew hover hscalar hkeys]
  rfl

/-- On top of a profile with nothing but `security`, this section is merged and comes first. -/
theorem mergeYaml_security {old v new : Node} {front back : List Entry}
    (hmerge : mergeNode old v = .ok new)
    (hscalar : ∀ e ∈ front ++ (.scalar "security", v) :: back, ∃ key, e.1 = .scalar key)
    (hkeys : DistinctKeys (front ++ (.scalar "security", v) :: back)) :
    mergeYaml (.map [(.scalar "security", old)])
        (.map (front ++ (.scalar "security", v) :: back)) =
      .ok (.map ((.scalar "security", new) :: (front ++ back))) := by
  have hover : ∀ rest, mergeTopEntry ((.scalar "security", old) :: rest)
      (.scalar "security", v) = .ok ((.scalar "security", new) :: rest) := by
    intro rest
    simp [mergeTopEntry, lookup, keyIs, hmerge, setKey]
  have hnew : ∀ result e key, e.1 = .scalar key → lookup result key = none →
      mergeTopEntry result e = .ok (setKey key e.2 result) := by
    intro result e key hkey hnone
    simp [mergeTopEntry, hkey, hnone]
  rw [mergeYaml, foldlM_over hnew hover hscalar hkeys]
  rfl

theorem onSection_of_security {k : Entry} (h : sectionOf k = some .security) {s : Section}
    (hs : s ≠ .security) (x : s.Fields) : onSection s x k = .ok x := by
  by_cases hoptions : s = .options
  · subst hoptions
    exact onSection_other h (by decide) (by decide) (by decide) x
  · exact onSection_of_ne h hs.symm hoptions x

/-- The section `security` may be replaced and moved to the front. -/
theorem parse_security_front {v new : Node} {front back : List Entry} {spec : Spec}
    (hspec : parseSpecFromNode (.map (front ++ (.scalar "security", v) :: back)) = .ok spec)
    (hkeys : DistinctKeys (front ++ (.scalar "security", v) :: back)) {fields : SecurityFields}
    (hnew : security new (parts {} .security) = .ok fields) :
    ∃ after, parseSpecFromNode (.map ((.scalar "security", new) :: (front ++ back))) = .ok after ∧
      after.securelevel = fields.securelevel := by
  have hsection : ∀ w, sectionOf (.scalar "security", w) = some .security := fun _ => rfl
  refine ⟨ofParts (Function.update (parts spec) .security fields), ?_, ?_⟩
  · rw [parseSpecFromNode_eq_ok, parts_ofParts]
    intro s
    by_cases hs : s = .security
    · subst hs
      have hrest : ∀ k ∈ front ++ back, ∀ x, onSection .security x k = .ok x := by
        intro k hk x
        obtain ⟨t, ht⟩ := exists_sectionOf hspec (k := k) (by
          simp only [List.mem_append, List.mem_cons] at hk ⊢
          tauto)
        refine onSection_of_ne ht ?_ (by decide) x
        rintro rfl
        have hmiddle : DistinctKeys ((.scalar "security", v) :: (front ++ back)) :=
          DistinctKeys.perm List.perm_middle hkeys
        exact hmiddle.head_ne hk (eq_of_single_spelling (hsection v) ht rfl)
      rw [List.foldlM_cons, onSection_self (hsection new) (by decide), Function.update_self]
      refine bind_eq_ok.mpr ⟨fields, hnew, ?_⟩
      exact foldlM_eq_ok_self (fun k hk => hrest k hk fields)
    · have hneutral : ∀ doc : List Entry, ∀ k ∈ doc, decide (sectionOf k ≠ some .security) = false →
          ∀ x, onSection s x k = .ok x := by
        intro doc k _ hk x
        exact onSection_of_security (by simpa using hk) hs x
      have hgone : ∀ w, ¬decide (sectionOf (.scalar "security", w) ≠ some .security) = true := by
        intro w
        rw [hsection w]
        simp
      rw [Function.update_of_ne hs, ← parseSpecFromNode_eq_ok.mp hspec s,
        ← foldlM_filter (hneutral _), ← foldlM_filter (hneutral (front ++ _)),
        List.filter_cons_of_neg (p := fun k => sectionOf k ≠ some .security) (hgone new),
        List.filter_append, List.filter_append,
        List.filter_cons_of_neg (p := fun k => sectionOf k ≠ some .security) (hgone v)]
  · rfl

theorem CannotLoosen.security {entries : List Entry} (h : CannotLoosen home (.map entries))
    (hscalar : ∀ e ∈ entries, ∃ key, e.1 = .scalar key) (hreadable : Readable (.map entries))
    {v : Node} (hv : (.scalar "security", v) ∈ entries) : v.isMap = true ∧ levelEntries v = [] := by
  obtain ⟨spec, hspec⟩ := hreadable.accepted
  -- The value is a map of fields, because the override is accepted by itself.
  have hfold := foldlM_readSection hspec (s := .security) (by decide)
  obtain ⟨s₀, s₁, hread⟩ := exists_step_of_foldlM_eq_ok hfold (b := (.scalar "security", v))
    (List.mem_filter.mpr ⟨hv, rfl⟩)
  change SpecParser.security v s₀ = .ok s₁ at hread
  obtain ⟨hmap, hfields⟩ := security_entries hread
  refine ⟨by rw [hmap]; rfl, ?_⟩
  rw [levelEntries, List.filter_eq_nil_iff]
  intro b hb hlevel
  obtain ⟨key, s₂, s₃, hkey, hfield⟩ := hfields b hb
  have hkeyLevel := (isLevel_iff (show asString b.1 = .ok key by rw [hkey]; rfl)).mp hlevel
  obtain ⟨text, htext⟩ := exists_text_of_readLevel (securityField_of_level hkeyLevel hfield)
  obtain ⟨front', back', hsplit'⟩ := List.append_of_mem hb
  have hb' : b = (.scalar key, .scalar text) := Prod.ext hkey htext
  have hdistinct' := hreadable.security v hv
  rw [hb'] at hsplit'
  rw [hsplit'] at hmap hfields hdistinct'
  -- Merged on top of a profile that sets the level, it gives a specification whose level `f`
  -- does not depend on that of the profile.
  rw [hmap] at hread
  obtain ⟨f, hf⟩ := security_of_perm hread List.perm_middle.symm (parts {} .security)
  obtain ⟨front, back, rfl⟩ := List.append_of_mem hv
  obtain ⟨after, hafter, hlevelAfter⟩ := parse_security_front hspec hreadable.distinct hf
  have htight : ∀ level before, parseSpecFromNode (levelBase key level) = .ok before →
      f.securelevel = before.securelevel := by
    intro level before hbefore
    have hmerge : mergeNode (.map [(.scalar key, .scalar level)]) v =
        .ok (.map ((.scalar key, .scalar text) :: (front' ++ back'))) := by
      rw [hmap]
      refine mergeNode_level (fun e he => ?_) hdistinct'
      obtain ⟨key', -, -, hkey', -⟩ := hfields e he
      exact ⟨key', hkey'⟩
    have hmergeYaml := mergeYaml_security hmerge hscalar hreadable.distinct
    rw [← hlevelAfter]
    exact (h _ _ before after hbefore hmergeYaml hafter).securelevel
  obtain ⟨⟨zero, hzero, hzeroLevel⟩, one, hone, honeLevel⟩ := parse_levelBase hkeyLevel
  have hboth := (htight "0" zero hzero).symm.trans (htight "1" one hone)
  omega

/--
An accepted override that stays within what the guard looks at loosens no
profile.  For overrides that are specifications by themselves, without repeated
keys, no others do.
-/
theorem cannotLoosen_iff_guarded {o : Node} (hcheck : checkLocalOverlay o home path = .ok ()) :
    (Guarded home o → CannotLoosen home o) ∧
      (Readable o → (CannotLoosen home o ↔ Guarded home o)) := by
  refine ⟨Guarded.cannotLoosen hcheck, fun hreadable => ⟨fun h => ?_, Guarded.cannotLoosen hcheck⟩⟩
  obtain ⟨spec, hspec⟩ := hreadable.accepted
  refine ⟨fun k hk key hkey => h.keys hspec hk hkey, ?_, ?_, ?_⟩
  · obtain rfl | ⟨entries, rfl, hentries⟩ := checkLocalOverlay_eq_ok hcheck
    · exact fun v hv => absurd hv List.not_mem_nil
    · intro v hv
      refine .inr (h.security (fun e he => ?_) hreadable hv)
      obtain ⟨key, hkey, -⟩ := checkEntry_eq_ok (hentries e he)
      exact ⟨key, hkey⟩
  · intro v hv item hitem host hhost
    obtain ⟨share, hshare, rfl⟩ := dirItem_iff.mp hhost
    exact .inr (h.dirs hspec hv hitem hshare)
  · intro v hv item hitem host hhost
    obtain ⟨share, hshare, rfl⟩ := fileItem_iff.mp hhost
    exact .inr (h.files hspec hv hitem hshare)

end Override

/-- Shares in the home directory, and a right that the profile may leave open. -/
def workOverride : Node :=
  .map
    [(.scalar "dirs", .map [(.scalar "share", .sequence
        [.scalar "/home/u/src:ro", .sequence [.scalar "/work", .scalar "$HOME/work"]])]),
      (.scalar "security", .map [(.scalar "allow_quotas", .scalar "true")])]

theorem workOverride_cannotLoosen :
    checkLocalOverlay workOverride "/home/u" "work.local" = .ok () ∧
      @CannotLoosen plainYaml "/home/u" workOverride := by
  let _ := plainYaml
  have hcheck : checkLocalOverlay workOverride "/home/u" "work.local" = .ok () := rfl
  refine ⟨hcheck, (cannotLoosen_iff_guarded hcheck).1 ⟨?_, ?_, ?_, ?_⟩⟩
  · simp only [workOverride, docOf, List.mem_cons, List.not_mem_nil, or_false, forall_eq_or_imp,
      forall_eq, Node.scalar.injEq, forall_eq']
    decide
  · intro v hv
    simp [workOverride, docOf] at hv
    subst hv
    exact .inr ⟨rfl, rfl⟩
  · intro v hv item hitem host hhost
    simp [workOverride, docOf] at hv
    subst hv
    have hitems : item = .scalar "/home/u/src:ro" ∨
        item = .sequence [.scalar "/work", .scalar "$HOME/work"] := by
      simpa [under, keyIs, itemsOf] using hitem
    left
    rcases hitems with rfl | rfl
    · cases hhost with
      | path hpath => exact ⟨by simp [guardedShares, lookup, keyIs], _, rfl, hpath⟩
    · cases hhost with
      | pair _ htext hpath =>
          obtain rfl := Except.ok.inj htext
          exact ⟨by simp [guardedShares, lookup, keyIs], _, rfl, hpath⟩
  · intro v hv
    simp [workOverride, docOf] at hv

/-- What passes the guard: other spellings, a level, a second list, a suffix that is kept. -/
def looseOverrides : List Node :=
  [.map [(.scalar "security-advanced", .map [(.scalar "hide-other-jails", .scalar "false")])],
    .map [(.scalar "socket-proxy", .map [(.scalar "share", .scalar "/var/run/dbus/socket")])],
    .map [(.scalar "security", .map [(.scalar "securelevel", .scalar "-1")])],
    .map [(.scalar "dirs", .map [(.scalar "share", .sequence []),
      (.scalar "share", .sequence [.scalar "/etc"])])],
    .map [(.scalar "files", .map [(.scalar "share", .sequence
      [.sequence [.scalar "/note", .scalar "$HOME:ro"]])])]]

theorem looseOverrides_loosen :
    looseOverrides.Forall (fun o => checkLocalOverlay o "/home/u" "work.local" = .ok () ∧
      ¬@CannotLoosen plainYaml "/home/u" o) := by
  let _ := plainYaml
  rw [List.forall_iff_forall_mem]
  simp only [looseOverrides, List.mem_cons, List.not_mem_nil, or_false, forall_eq_or_imp, forall_eq]
  refine ⟨⟨rfl, fun h => ?_⟩, ⟨rfl, fun h => ?_⟩, ⟨rfl, fun h => ?_⟩, ⟨rfl, fun h => ?_⟩,
    rfl, fun h => ?_⟩
  · have hadvanced := (h.tight_alone rfl).securityAdvanced
    contradiction
  · have hproxy := (h.tight_alone rfl).socketProxy
    contradiction
  · -- The profile sets the level to 1, the override to -1.
    have hlevel := (h (levelBase "securelevel" "1") _ _ _ rfl rfl rfl).securelevel
    contradiction
  · have hitem : (.scalar "/etc" : Node) ∈ under "share" itemsOf (.map
        [(.scalar "share", .sequence []), (.scalar "share", .sequence [.scalar "/etc"])]) := by
      simp [under, keyIs, itemsOf]
    have hconfined := h.dirs rfl (.head _) hitem rfl
    exact absurd hconfined (by decide)
  · have hitem : (.sequence [.scalar "/note", .scalar "$HOME:ro"] : Node) ∈
        under "share" itemsOf (.map [(.scalar "share", .sequence
          [.sequence [.scalar "/note", .scalar "$HOME:ro"]])]) := by
      simp [under, keyIs, itemsOf]
    have hconfined := h.files rfl (.head _) hitem rfl
    exact absurd hconfined (by decide)

end Crate.Profile
