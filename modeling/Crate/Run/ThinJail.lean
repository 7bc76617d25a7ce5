import Crate.Foundation.Outcome
import Crate.Foundation.PathTree
import Crate.Foundation.Sort
import Crate.Spec.FieldChecks

/-!
# What a thin jail mounts

`mountPlan` and the `+CRATE.THIN` manifest of `lib/thin_jail_pure.cpp`.  A thin
jail holds its writable directories only; the host's directories are mounted
over the rest of its tree.
-/

namespace Crate.ThinJailPure

open Crate.Foundation

/-- Target under the jail and host source of each mount. -/
def mountPlan (impl : StdSort) (jailPath : Str) (hostDirs : List Str) : List (Str × Str) :=
  (impl.sort (fun a b => decide (a < b)) hostDirs).map fun d => (jailPath ++ d, d)

structure Manifest where
  mode : Str := "host-ro"
  osrelease : Str := []
  hostDirs : List Str := []
  deriving DecidableEq, Repr

def kManifestMaxBytes : Nat := 64 * 1024

def kHeader : Str := "# crate thin jail v1"

def manifestLines (m : Manifest) : List Str :=
  [kHeader, "mode\t" ++ m.mode, "osrelease\t" ++ m.osrelease] ++
    m.hostDirs.map fun d => ("hostdir\t" : Str) ++ d

def serializeManifest (m : Manifest) : Str :=
  (manifestLines m).flatMap fun line => line ++ ['\n']

structure Progress where
  lineNo : Nat := 0
  header : Bool := false
  out : Manifest := { mode := [] }

def atLine (lineNo : Nat) (what : Str) : Str := "line " ++ decimal lineNo ++ ": " ++ what

def setField (lineNo : Nat) (out : Manifest) (key val : Str) : Except Str Manifest :=
  if key = "mode" then do
    reject (out.mode ≠ []) (atLine lineNo "duplicate mode")
    reject (val ≠ "host-ro") ("unsupported thin jail mode '" ++ val ++ "'")
    return { out with mode := val }
  else if key = "osrelease" then do
    reject (out.osrelease ≠ []) (atLine lineNo "duplicate osrelease")
    reject (val.any (· ∈ [' ', '\t', '/'])) ("osrelease '" ++ val ++ "' is not a release string")
    return { out with osrelease := val }
  else if key = "hostdir" then do
    labelled "hostdir: " (validateHostDir val)
    return { out with hostDirs := out.hostDirs ++ [val] }
  else .error (atLine lineNo ("unknown key '" ++ key ++ "'"))

/-- A line with a key and a value. -/
def parseField (lineNo : Nat) (out : Manifest) (line : Str) : Except Str Manifest := do
  reject ('\t' ∉ line) (atLine lineNo "no tab separator")
  let key := line.takeWhile (· ≠ '\t')
  let val := (line.dropWhile (· ≠ '\t')).tail
  reject (val = []) (atLine lineNo ("empty value for '" ++ key ++ "'"))
  setField lineNo out key val

def parseLine (st : Progress) (raw : Str) : Except Str Progress :=
  let line := dropCarriageReturn raw
  let lineNo := st.lineNo + 1
  if line = [] then .ok { st with lineNo }
  else if line.head? = some '#' then
    .ok { st with lineNo, header := if lineNo = 1 then line = kHeader else st.header }
  else do
    let out ← parseField lineNo st.out line
    return { st with lineNo, out }

/-- The line `std::getline` does not deliver behind the last line break is empty. -/
def parseManifest (content : Str) : Except Str Manifest := do
  reject (content.length > kManifestMaxBytes) "manifest is too large"
  let st ← (content.splitOn '\n').foldlM parseLine {}
  reject (!st.header) "missing '# crate thin jail v1' header"
  reject (st.out.mode = []) "missing mode"
  reject (st.out.osrelease = []) "missing osrelease"
  validateHostDirs st.out.hostDirs
  return st.out

/-! ## What the validator excludes -/

theorem isOrUnder_iff {path top : Str} : isOrUnder path top = true ↔ AtOrBelow '/' path top := by
  rw [isOrUnder, Bool.or_eq_true, decide_eq_true_eq, List.isPrefixOf_iff_prefix]
  apply or_congr_right
  constructor
  · rintro ⟨rest, rfl⟩
    exact ⟨rest, by simp⟩
  · rintro ⟨rest, rfl⟩
    exact ⟨rest, by simp⟩

/-- A directory above a writable one is the root or `/usr`. -/
theorem above_writable {d w : Str} (hw : w ∈ writableLayer) (h : AtOrBelow '/' w d) :
    d = w ∨ d = [] ∨ d = "/usr" := by
  rcases h with rfl | ⟨rest, hrest⟩
  · exact .inl rfl
  · right
    have hinits : ∀ w ∈ writableLayer, ∀ d ∈ w.inits, (d ++ ['/']).isPrefixOf w = true →
        d = [] ∨ d = "/usr" := by
      decide
    apply hinits w hw d
    · rw [List.mem_inits, hrest]
      exact List.prefix_append d _
    · rw [List.isPrefixOf_iff_prefix, hrest]
      exact ⟨rest, by simp⟩

/-- What `validateHostDir` is used for below. -/
structure HostDir (d : Str) : Prop where
  absolute : d.head? = some '/'
  clean : ∀ c ∈ d, c ≠ '\t' ∧ c ≠ '\n' ∧ c ≠ '\r'
  not_usr : d ≠ "/usr"
  outside : ∀ w ∈ writableLayer, isOrUnder d w = false

theorem hostDir_of_validate {d : Str} (h : validateHostDir d = .ok ()) : HostDir d := by
  simp only [validateHostDir, check_seq_eq_ok, reject_eq_ok, forM_eq_ok] at h
  obtain ⟨-, habsolute, -, -, hclean, -, husr, houtside⟩ := h
  refine ⟨by simpa using habsolute, ?_, husr, ?_⟩
  · intro c hc
    simp only [List.any_eq_true, decide_eq_true_eq, not_exists, not_and] at hclean
    simpa using hclean c hc
  · intro w hw
    simpa using houtside w hw

theorem HostDir.ne_nil {d : Str} (h : HostDir d) : d ≠ [] := by
  rintro rfl
  exact absurd h.absolute (by simp)

/-- No containment in either direction. -/
def Apart (p q : Str) : Prop := ¬AtOrBelow '/' p q ∧ ¬AtOrBelow '/' q p

theorem HostDir.apart {d w : Str} (h : HostDir d) (hw : w ∈ writableLayer) : Apart d w := by
  have hunder : ¬AtOrBelow '/' d w := by
    rw [← isOrUnder_iff, h.outside w hw]
    exact Bool.false_ne_true
  refine ⟨hunder, ?_⟩
  intro habove
  rcases above_writable hw habove with rfl | rfl | rfl
  · exact hunder (.inl rfl)
  · exact h.ne_nil rfl
  · exact h.not_usr rfl

/-- The same path in front changes nothing. -/
theorem atOrBelow_append_iff {front p q : Str} :
    AtOrBelow '/' (front ++ p) (front ++ q) ↔ AtOrBelow '/' p q := by
  simp [AtOrBelow]

theorem Apart.append {p q : Str} (h : Apart p q) (front : Str) : Apart (front ++ p) (front ++ q) :=
  ⟨mt atOrBelow_append_iff.mp h.1, mt atOrBelow_append_iff.mp h.2⟩

theorem checkHostDirs_eq_ok {dirs seen : List Str} (h : checkHostDirs dirs seen = .ok ()) :
    (∀ d ∈ dirs, validateHostDir d = .ok () ∧ d ∉ seen) ∧ dirs.Nodup := by
  induction dirs generalizing seen with
  | nil => simp
  | cons d rest ih =>
      simp only [checkHostDirs, check_seq_eq_ok, reject_eq_ok] at h
      obtain ⟨hd, hseen, hrest⟩ := h
      obtain ⟨hall, hnodup⟩ := ih hrest
      constructor
      · intro e he
        rcases List.mem_cons.mp he with rfl | he
        · exact ⟨hd, hseen⟩
        · exact ⟨(hall e he).1, fun hmem => (hall e he).2 (List.mem_cons_of_mem d hmem)⟩
      · refine List.nodup_cons.mpr ⟨?_, hnodup⟩
        intro hmem
        exact (hall d hmem).2 List.mem_cons_self

structure HostDirs (dirs : List Str) : Prop where
  valid : ∀ d ∈ dirs, validateHostDir d = .ok ()
  nodup : dirs.Nodup
  apart : ∀ a ∈ dirs, ∀ b ∈ dirs, a ≠ b → Apart a b

theorem hostDirs_of_validate {dirs : List Str} (h : validateHostDirs dirs = .ok ()) :
    HostDirs dirs := by
  simp only [validateHostDirs, check_seq_eq_ok, reject_eq_ok, forM_eq_ok] at h
  obtain ⟨-, hcheck, hnested⟩ := h
  obtain ⟨heach, hnodup⟩ := checkHostDirs_eq_ok hcheck
  have hone : ∀ a ∈ dirs, ∀ b ∈ dirs, a ≠ b → ¬AtOrBelow '/' b a := by
    intro a ha b hb hne hunder
    exact hnested a ha b hb ⟨hne, isOrUnder_iff.mpr hunder⟩
  refine ⟨fun d hd => (heach d hd).1, hnodup, ?_⟩
  intro a ha b hb hne
  exact ⟨hone b hb a ha hne.symm, hone a ha b hb hne⟩

/-! ## The plan -/

/-- What a plan may mount under a jail: each entry alone, and two of them together. -/
structure SafePlan (jailPath : Str) (hostDirs : List Str) (plan : List (Str × Str)) : Prop where
  sources : ∀ entry ∈ plan, entry.2 ∈ hostDirs ∧ entry.1 = jailPath ++ entry.2
  complete : ∀ d ∈ hostDirs, (jailPath ++ d, d) ∈ plan
  distinct : (plan.map Prod.fst).Nodup
  apart : plan.Pairwise fun a b => Apart a.1 b.1
  writable : ∀ entry ∈ plan, ∀ w ∈ writableLayer, Apart entry.1 (jailPath ++ w)

theorem safePlan {dirs : List Str} (h : HostDirs dirs) (impl : StdSort) (jailPath : Str) :
    SafePlan jailPath dirs (mountPlan impl jailPath dirs) := by
  have horder : StrictWeak fun a b : Str => decide (a < b) :=
    StrictWeak.of_key_iff id fun _ _ => decide_eq_true_iff
  have hmem : ∀ d, d ∈ impl.sort (fun a b : Str => decide (a < b)) dirs ↔ d ∈ dirs := fun d =>
    impl.mem_sort horder
  have hnodup : (impl.sort (fun a b : Str => decide (a < b)) dirs).Nodup :=
    (impl.perm horder dirs).nodup_iff.mpr h.nodup
  refine ⟨?_, ?_, ?_, ?_, ?_⟩
  · intro entry hentry
    obtain ⟨d, hd, rfl⟩ := List.mem_map.mp hentry
    exact ⟨(hmem d).mp hd, rfl⟩
  · intro d hd
    exact List.mem_map.mpr ⟨d, (hmem d).mpr hd, rfl⟩
  · rw [mountPlan, List.map_map]
    exact hnodup.map fun a b hab => List.append_cancel_left hab
  · rw [mountPlan, List.pairwise_map]
    refine hnodup.imp_of_mem ?_
    intro a b ha hb hne
    exact (h.apart a ((hmem a).mp ha) b ((hmem b).mp hb) hne).append jailPath
  · intro entry hentry w hw
    obtain ⟨d, hd, rfl⟩ := List.mem_map.mp hentry
    have hdir := hostDir_of_validate (h.valid d ((hmem d).mp hd))
    exact (hdir.apart hw).append jailPath

theorem validate_of_parseManifest {content : Str} {m : Manifest}
    (h : parseManifest content = .ok m) : validateHostDirs m.hostDirs = .ok () := by
  rw [parseManifest, reject_bind_eq_ok, bind_eq_ok] at h
  obtain ⟨-, st, -, h⟩ := h
  rw [reject_bind_eq_ok, reject_bind_eq_ok, reject_bind_eq_ok, bind_eq_ok] at h
  obtain ⟨-, -, -, _, hdirs, hout⟩ := h
  cases hout
  exact hdirs

/-! ## The manifest is read back -/

section ReadBack

variable {st : Progress} {key val : Str}

/-- A line of a key and a value without line breaks. -/
theorem parseLine_field {out : Manifest} (hkey : '\t' ∉ key)
    (hhead : key.head?.any (· ≠ '#') = true) (hval : val ≠ [])
    (hreturn : '\r' ∉ key ++ '\t' :: val)
    (hset : setField (st.lineNo + 1) st.out key val = .ok out) :
    parseLine st (key ++ '\t' :: val) = .ok { st with lineNo := st.lineNo + 1, out } := by
  have hline : (key ++ '\t' :: val).head? ≠ some '#' := by
    cases key with
    | nil => simp at hhead
    | cons c key => simpa using hhead
  have hfield : parseField (st.lineNo + 1) st.out (key ++ '\t' :: val) = .ok out := by
    rw [parseField, takeWhile_append_cons hkey, dropWhile_append_cons hkey, List.tail_cons,
      reject_bind_eq_ok, reject_bind_eq_ok]
    exact ⟨by simp, hval, hset⟩
  rw [parseLine, dropCarriageReturn_eq_self hreturn, if_neg (by simp), if_neg hline, hfield]
  rfl

theorem parse_mode (hnone : st.out.mode = []) :
    parseLine st "mode\thost-ro" =
      .ok { st with lineNo := st.lineNo + 1, out := { st.out with mode := "host-ro" } } := by
  have hline : ("mode\thost-ro" : Str) = ("mode" : Str) ++ '\t' :: ("host-ro" : Str) := rfl
  rw [hline]
  apply parseLine_field (by decide) rfl (by decide) (by decide)
  rw [setField, if_pos rfl, reject_bind_eq_ok, reject_bind_eq_ok]
  exact ⟨by simpa using hnone, by simp, rfl⟩

theorem parse_osrelease (hnone : st.out.osrelease = []) (hval : val ≠ [])
    (hchars : ∀ c ∈ val, c ∉ [' ', '\t', '/', '\n', '\r']) :
    parseLine st ("osrelease\t" ++ val) =
      .ok { st with lineNo := st.lineNo + 1, out := { st.out with osrelease := val } } := by
  have hline : ("osrelease\t" : Str) ++ val = ("osrelease" : Str) ++ '\t' :: val := rfl
  have hreturn : '\r' ∉ ("osrelease" : Str) ++ '\t' :: val := by
    rw [List.mem_append, List.mem_cons]
    rintro (hkey | htab | hmem)
    · exact absurd hkey (by decide)
    · exact absurd htab (by decide)
    · exact hchars _ hmem (by simp)
  have hblank : ¬val.any (· ∈ [' ', '\t', '/']) = true := by
    rw [List.any_eq_true]
    rintro ⟨c, hc, hbad⟩
    apply hchars c hc
    simp only [decide_eq_true_eq, List.mem_cons, List.not_mem_nil, or_false] at hbad ⊢
    tauto
  rw [hline]
  apply parseLine_field (by decide) rfl hval hreturn
  rw [setField, if_neg (by decide), if_pos rfl, reject_bind_eq_ok, reject_bind_eq_ok]
  exact ⟨by simpa using hnone, hblank, rfl⟩

theorem parse_hostdir {d : Str} (hvalid : validateHostDir d = .ok ()) :
    parseLine st ("hostdir\t" ++ d) =
      .ok { st with
        lineNo := st.lineNo + 1
        out := { st.out with hostDirs := st.out.hostDirs ++ [d] } } := by
  have hdir := hostDir_of_validate hvalid
  have hline : ("hostdir\t" : Str) ++ d = ("hostdir" : Str) ++ '\t' :: d := rfl
  have hreturn : '\r' ∉ ("hostdir" : Str) ++ '\t' :: d := by
    rw [List.mem_append, List.mem_cons]
    rintro (hkey | htab | hmem)
    · exact absurd hkey (by decide)
    · exact absurd htab (by decide)
    · exact (hdir.clean _ hmem).2.2 rfl
  rw [hline]
  apply parseLine_field (by decide) rfl hdir.ne_nil hreturn
  rw [setField, if_neg (by decide), if_neg (by decide), if_pos rfl, bind_eq_ok]
  exact ⟨(), labelled_eq_ok.mpr hvalid, rfl⟩

theorem parse_hostdirs {dirs : List Str} (h : ∀ d ∈ dirs, validateHostDir d = .ok ()) :
    (dirs.map fun d => ("hostdir\t" : Str) ++ d).foldlM parseLine st =
      .ok { st with
        lineNo := st.lineNo + dirs.length
        out := { st.out with hostDirs := st.out.hostDirs ++ dirs } } := by
  induction dirs generalizing st with
  | nil => simp
  | cons d dirs ih =>
      rw [List.map_cons, List.foldlM_cons, parse_hostdir (h d (by simp)), ok_bind,
        ih fun e he => h e (List.mem_cons_of_mem d he)]
      simp [Nat.add_assoc, Nat.add_comm 1]

end ReadBack

theorem newline_not_mem_manifestLines {m : Manifest} (hdirs : HostDirs m.hostDirs)
    (hmode : m.mode = "host-ro") (hchars : '\n' ∉ m.osrelease) :
    ∀ line ∈ manifestLines m, '\n' ∉ line := by
  intro line hline
  rcases List.mem_append.mp hline with hline | hline
  · simp only [List.mem_cons, List.not_mem_nil, or_false] at hline
    rcases hline with rfl | rfl | rfl
    · decide
    · rw [hmode]
      decide
    · rw [List.mem_append, not_or]
      exact ⟨by decide, hchars⟩
  · obtain ⟨d, hd, rfl⟩ := List.mem_map.mp hline
    rw [List.mem_append, not_or]
    refine ⟨by decide, ?_⟩
    intro hmem
    exact ((hostDir_of_validate (hdirs.valid d hd)).clean _ hmem).2.1 rfl

theorem parseManifest_serializeManifest {m : Manifest} (hvalid : validateHostDirs m.hostDirs = .ok ())
    (hmode : m.mode = "host-ro") (hrelease : m.osrelease ≠ [])
    (hchars : ∀ c ∈ m.osrelease, c ∉ [' ', '\t', '/', '\n', '\r'])
    (hsize : (serializeManifest m).length ≤ kManifestMaxBytes) :
    parseManifest (serializeManifest m) = .ok m := by
  have hdirs := hostDirs_of_validate hvalid
  have hnewline : '\n' ∉ m.osrelease := fun hmem => hchars _ hmem (by simp)
  have hlines : (serializeManifest m).splitOn '\n' = manifestLines m ++ [[]] := by
    have hsplit := splitOn_flatMap_snoc id (manifestLines m)
      (newline_not_mem_manifestLines hdirs hmode hnewline)
    simpa [serializeManifest] using hsplit
  have hheader : parseLine {} kHeader = .ok { lineNo := 1, header := true } := rfl
  have hlast : ∀ st, parseLine st [] = .ok { st with lineNo := st.lineNo + 1 } := fun _ => rfl
  obtain ⟨mode, osrelease, hostDirs⟩ := m
  obtain rfl : mode = "host-ro" := hmode
  have hmodeLine : parseLine { lineNo := 1, header := true } ("mode\t" ++ "host-ro") =
      .ok { lineNo := 2, header := true, out := { mode := "host-ro" } } := parse_mode rfl
  have hreleaseLine : parseLine { lineNo := 2, header := true, out := { mode := "host-ro" } }
      ("osrelease\t" ++ osrelease) =
      .ok { lineNo := 3, header := true, out := { mode := "host-ro", osrelease } } :=
    parse_osrelease rfl hrelease hchars
  have hloop : ((serializeManifest ⟨"host-ro", osrelease, hostDirs⟩).splitOn '\n').foldlM
      parseLine {} =
      .ok { lineNo := 3 + hostDirs.length + 1, header := true,
            out := ⟨"host-ro", osrelease, hostDirs⟩ } := by
    rw [hlines, manifestLines, List.foldlM_append, List.foldlM_append, List.foldlM_cons, hheader,
      ok_bind, List.foldlM_cons, hmodeLine, ok_bind, List.foldlM_cons, hreleaseLine, ok_bind,
      List.foldlM_nil, pure_eq_ok, ok_bind, parse_hostdirs hdirs.valid, ok_bind, List.foldlM_cons,
      hlast, ok_bind]
    rfl
  rw [parseManifest, reject_bind_eq_ok, hloop]
  refine ⟨not_lt.mpr hsize, ?_⟩
  rw [ok_bind, reject_bind_eq_ok, reject_bind_eq_ok, reject_bind_eq_ok]
  refine ⟨by simp, by simp, hrelease, ?_⟩
  rw [hvalid]
  rfl

/--
What `parseManifest` accepts is mounted without any two of the mounts, or a
mount and a writable directory, containing each other; and what
`serializeManifest` writes is read back.
-/
theorem thin_jail_mounts_apart (impl : StdSort) :
    (∀ content m, parseManifest content = .ok m →
      ∀ jailPath, SafePlan jailPath m.hostDirs (mountPlan impl jailPath m.hostDirs)) ∧
    ∀ m : Manifest, validateHostDirs m.hostDirs = .ok () → m.mode = "host-ro" →
      m.osrelease ≠ [] → (∀ c ∈ m.osrelease, c ∉ [' ', '\t', '/', '\n', '\r']) →
      (serializeManifest m).length ≤ kManifestMaxBytes →
      parseManifest (serializeManifest m) = .ok m := by
  constructor
  · intro content m h jailPath
    exact safePlan (hostDirs_of_validate (validate_of_parseManifest h)) impl jailPath
  · intro m hvalid hmode hrelease hchars hsize
    exact parseManifest_serializeManifest hvalid hmode hrelease hchars hsize

def smallManifest : Manifest :=
  { osrelease := "14.2-RELEASE", hostDirs := ["/usr/lib", "/bin"] }

theorem smallManifest_mounts :
    parseManifest (serializeManifest smallManifest) = .ok smallManifest ∧
      SafePlan "/jails/web" smallManifest.hostDirs
        (mountPlan StdSort.insertionSort "/jails/web" smallManifest.hostDirs) := by
  have hlength : (serializeManifest smallManifest).length = 87 := rfl
  have hsize : (serializeManifest smallManifest).length ≤ kManifestMaxBytes := by
    rw [hlength]
    decide
  have hall : smallManifest.osrelease.all
      (fun c => decide (c ∉ [' ', '\t', '/', '\n', '\r'])) = true := rfl
  have hchars : ∀ c ∈ smallManifest.osrelease, c ∉ [' ', '\t', '/', '\n', '\r'] :=
    fun c hc => of_decide_eq_true (List.all_eq_true.mp hall c hc)
  have hread := (thin_jail_mounts_apart StdSort.insertionSort).2 smallManifest rfl rfl
    (by decide) hchars hsize
  exact ⟨hread, (thin_jail_mounts_apart StdSort.insertionSort).1 _ _ hread "/jails/web"⟩

end Crate.ThinJailPure
