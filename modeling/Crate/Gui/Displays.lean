import Crate.Foundation.Run
import Crate.Gui.Registry

/-!
# Display numbers

A container with an X server of its own takes a display number under the lock of
the registry and enters it under a second lock, after the server has come up.
Between the two the number is held and nobody can see it.
-/

namespace Crate.RunGui

open Crate.Foundation
open Crate.Ctx (GuiEntry)
open Crate.Ctx.GuiRegistry

structure Pid where
  val : Int
  pos : 0 < val
  max : val ≤ JailQuery.intMax

/-- What `setupVncAndRegister` enters beside the owner and the display. -/
structure Session where
  xServerPid : Int
  vncPort : Nat
  wsPort : Nat
  mode : Str
  jailName : Str
  xServerPid_nonneg : 0 ≤ xServerPid
  xServerPid_max : xServerPid ≤ JailQuery.intMax
  vncPort_max : vncPort < 2 ^ 32
  wsPort_max : wsPort < 2 ^ 32
  mode_word : isWord mode = true ∧ '\x00' ∉ mode
  jailName_word : isWord jailName = true ∧ '\x00' ∉ jailName

def Session.entry (s : Session) (pid : Pid) (displayNum : UInt32) : GuiEntry :=
  { ownerPid := pid.val
    displayNum := displayNum
    xServerPid := s.xServerPid
    vncPort := s.vncPort
    wsPort := s.wsPort
    mode := s.mode
    jailName := s.jailName }

/-- Where a process stands; `other` is any process that does not hold a display. -/
inductive Phase where
  | dead
  | other
  | allocated (displayNum : UInt32)
  | registered (displayNum : UInt32)
  deriving DecidableEq, Repr

/-- The registry file and the processes by their pid. -/
structure World where
  file : Str
  procs : Int → Phase

def World.alive (w : World) (pid : Int) : Bool := w.procs pid ≠ .dead

inductive Action where
  | spawn (pid : Pid)
  | allocate (pid : Pid)
  | register (pid : Pid) (session : Session)
  | unregister (pid : Pid)
  /-- The X server does not come up, and the container ends without an entry. -/
  | abandon (pid : Pid)
  /-- The process ends without a cleanup; its pid is free again. -/
  | die (pid : Pid)
  /-- `crate gui list` and the like. -/
  | list

def enter (w : World) (pid : Pid) (phase : Phase) : World :=
  { w with procs := Function.update w.procs pid.val phase }

/-- `setupX11`: the first lock. -/
def allocateStep (w : World) (pid : Pid) : World :=
  let (displayNum, reg) := allocateDisplay lock w.file w.alive
  enter { w with file := unlock reg w.file } pid (.allocated displayNum)

/-- `setupVncAndRegister`: the second lock. -/
def registerStep (w : World) (pid : Pid) (session : Session) (displayNum : UInt32) : World :=
  let reg := registerEntry lock w.file w.alive (session.entry pid displayNum)
  enter { w with file := unlock reg w.file } pid (.registered displayNum)

def unregisterStep (w : World) (pid : Pid) : World :=
  enter { w with file := unlock (unregisterEntry lock w.file pid.val) w.file } pid .other

def step (w : World) : Action → World
  | .spawn pid =>
      match w.procs pid.val with
      | .dead => enter w pid .other
      | _ => w
  | .allocate pid =>
      match w.procs pid.val with
      | .other => allocateStep w pid
      | _ => w
  | .register pid session =>
      match w.procs pid.val with
      | .allocated displayNum => registerStep w pid session displayNum
      | _ => w
  | .unregister pid =>
      match w.procs pid.val with
      | .registered _ => unregisterStep w pid
      | _ => w
  | .abandon pid =>
      match w.procs pid.val with
      | .allocated _ => enter w pid .other
      | _ => w
  | .die pid => enter w pid .dead
  | .list => { w with file := unlock (getEntries lock w.file w.alive).2 w.file }

def start : World := { file := [], procs := fun _ => .dead }

/-! ## What is held and what is registered -/

/-- The container has taken the display and not exited. -/
def Holds (w : World) (pid : Int) (displayNum : UInt32) : Prop :=
  w.procs pid = .allocated displayNum ∨ w.procs pid = .registered displayNum

def Held (w : World) (n : Nat) : Prop :=
  ∃ pid displayNum, Holds w pid displayNum ∧ displayNum.toNat = n

/-- The registry has an entry with the display and a process with its pid lives. -/
def Registered (w : World) (n : Nat) : Prop :=
  ∃ pid e, (live w.file w.alive).find? pid = some e ∧ e.displayNum.toNat = n

def Separate (w : World) : Prop :=
  ∀ p q displayNum, Holds w p displayNum → Holds w q displayNum → p = q

/-- A display that is taken is the lowest, from ten on, that nobody holds. -/
def TakesLowest (w : World) : Action → Prop
  | .allocate pid => w.procs pid.val = .other →
      IsLowestFree (Held w) firstDisplay (allocateDisplay lock w.file w.alive).1.toNat
  | _ => True

/--
A display is taken only while every number on which the registry is wrong, one
that is held and not registered or registered and not held, lies above a number
that the registry does not have.
-/
def RegistryAgrees (w : World) : Action → Prop
  | .allocate pid => w.procs pid.val = .other →
      ∀ n, firstDisplay ≤ n → ¬(Registered w n ↔ Held w n) →
        ∃ k, firstDisplay ≤ k ∧ k < n ∧ ¬Registered w k
  | _ => True

/-! ## The registry through a run -/

structure Inv (w : World) : Prop where
  writable : ∀ kv ∈ (stored w.file).entries, Writable kv
  registered : ∀ pid displayNum, w.procs pid = .registered displayNum →
    ∃ e, (stored w.file).find? pid = some e ∧ e.displayNum = displayNum

theorem Session.writable (s : Session) (pid : Pid) (displayNum : UInt32) :
    Writable (pid.val, s.entry pid displayNum) where
  key := rfl
  pid_pos := pid.pos
  pid_max := pid.max
  xServerPid_nonneg := s.xServerPid_nonneg
  xServerPid_max := s.xServerPid_max
  vncPort := s.vncPort_max
  wsPort := s.wsPort_max
  mode := s.mode_word.1
  jailName := s.jailName_word.1
  zero := ⟨s.mode_word.2, s.jailName_word.2⟩

theorem writable_live {w : World} (h : Inv w) : ∀ kv ∈ (live w.file w.alive).entries, Writable kv :=
  fun kv hkv => h.writable kv (List.mem_filter.mp hkv).1

/-- Whoever is registered lives, so a garbage collection keeps the entry. -/
theorem Inv.registered_live {w : World} (h : Inv w) {pid : Int} {displayNum : UInt32}
    (hproc : w.procs pid = .registered displayNum) :
    ∃ e, (live w.file w.alive).find? pid = some e ∧ e.displayNum = displayNum := by
  obtain ⟨e, he, hdisplay⟩ := h.registered pid displayNum hproc
  exact ⟨e, find?_live.mpr ⟨he, by simp [World.alive, hproc]⟩, hdisplay⟩

theorem inv_start : Inv start where
  writable := by
    intro kv hkv
    exact absurd hkv List.not_mem_nil
  registered := by
    intro pid displayNum h
    contradiction

theorem Inv.enter {w : World} (h : Inv w) {file : Str} {pid : Pid} {phase : Phase}
    (hwritable : ∀ kv ∈ (stored file).entries, Writable kv)
    (hothers : ∀ p e, p ≠ pid.val → w.alive p = true → (stored w.file).find? p = some e →
      (stored file).find? p = some e)
    (hmine : ∀ displayNum, phase = .registered displayNum →
      ∃ e, (stored file).find? pid.val = some e ∧ e.displayNum = displayNum) :
    Inv (enter { w with file := file } pid phase) where
  writable := hwritable
  registered p displayNum hproc := by
    simp only [RunGui.enter] at hproc
    by_cases hp : p = pid.val
    · subst hp
      rw [Function.update_self] at hproc
      exact hmine displayNum hproc
    · rw [Function.update_of_ne hp] at hproc
      obtain ⟨e, he, hdisplay⟩ := h.registered p displayNum hproc
      exact ⟨e, hothers p e hp (by simp [World.alive, hproc]) he, hdisplay⟩

theorem inv_allocateStep {w : World} (h : Inv w) (pid : Pid) : Inv (allocateStep w pid) := by
  have hstored : stored (unlock (garbageCollect (load lock w.file) w.alive) w.file) =
      live w.file w.alive := stored_unlock_garbageCollect h.writable
  refine h.enter ?_ ?_ (fun _ hphase => by cases hphase)
  · rw [hstored]
    exact writable_live h
  · intro p e _ halive he
    rw [hstored]
    exact find?_live.mpr ⟨he, halive⟩

theorem inv_registerStep {w : World} (h : Inv w) (pid : Pid) (session : Session)
    (displayNum : UInt32) : Inv (registerStep w pid session displayNum) := by
  have hall : ∀ kv ∈ ((live w.file w.alive).insert pid.val (session.entry pid displayNum)).entries,
      Writable kv := by
    intro kv hkv
    rcases OrdMap.mem_insertEntry hkv with rfl | hkv
    · exact session.writable pid displayNum
    · exact writable_live h kv hkv
  have hstored : stored (unlock (registerEntry lock w.file w.alive (session.entry pid displayNum))
      w.file) = (live w.file w.alive).insert pid.val (session.entry pid displayNum) :=
    stored_writeToFile hall
  refine h.enter (fun kv hkv => hall kv (hstored ▸ hkv)) ?_ ?_
  · intro p e hp halive he
    rw [hstored, OrdMap.find?_insert_ne (Ne.symm hp)]
    exact find?_live.mpr ⟨he, halive⟩
  · intro d hphase
    cases hphase
    rw [hstored, OrdMap.find?_insert_self]
    exact ⟨_, rfl, rfl⟩

theorem inv_unregisterStep {w : World} (h : Inv w) (pid : Pid) : Inv (unregisterStep w pid) := by
  have hall : ∀ kv ∈ ((stored w.file).erase pid.val).entries, Writable kv :=
    fun kv hkv => h.writable kv (List.mem_filter.mp hkv).1
  have hstored : stored (unlock (unregisterEntry lock w.file pid.val) w.file) =
      (stored w.file).erase pid.val := stored_writeToFile hall
  refine h.enter (fun kv hkv => hall kv (hstored ▸ hkv)) ?_ (fun _ hphase => by cases hphase)
  intro p e hp _ he
  rw [hstored, OrdMap.find?_erase, if_neg hp]
  exact he

theorem inv_list {w : World} (h : Inv w) :
    Inv { w with file := unlock (getEntries lock w.file w.alive).2 w.file } := by
  have hstored : stored (unlock (getEntries lock w.file w.alive).2 w.file) =
      live w.file w.alive := stored_unlock_garbageCollect h.writable
  constructor
  · intro kv hkv
    exact writable_live h kv (hstored ▸ hkv)
  · intro pid displayNum hproc
    rw [hstored]
    exact h.registered_live hproc

theorem inv_step (w : World) (a : Action) (h : Inv w) : Inv (step w a) := by
  have hidle : ∀ (pid : Pid) (phase : Phase), (∀ d, phase ≠ .registered d) →
      Inv (enter w pid phase) := fun pid phase hphase =>
    h.enter h.writable (fun _ _ _ _ he => he) (fun d hd => absurd hd (hphase d))
  cases a with
  | spawn pid =>
      unfold step
      dsimp only
      split
      · exact hidle pid .other (fun _ => by simp)
      · exact h
  | allocate pid =>
      unfold step
      dsimp only
      split
      · exact inv_allocateStep h pid
      · exact h
  | register pid session =>
      unfold step
      dsimp only
      split
      · exact inv_registerStep h pid session _
      · exact h
  | unregister pid =>
      unfold step
      dsimp only
      split
      · exact inv_unregisterStep h pid
      · exact h
  | abandon pid =>
      unfold step
      dsimp only
      split
      · exact hidle pid .other (fun _ => by simp)
      · exact h
  | die pid => exact hidle pid .dead (fun _ => by simp)
  | list => exact inv_list h

/-! ## What is taken -/

/-- The number is the lowest that the registry does not have, and it does not wrap. -/
theorem allocateDisplay_lowest {w : World} (h : Inv w) :
    IsLowestFree (Registered w) firstDisplay (allocateDisplay lock w.file w.alive).1.toNat := by
  let usedDisplays := (live w.file w.alive).entries.map (fun kv => kv.2.displayNum.toNat)
  obtain ⟨hlowest, hle⟩ := lowestFree_spec usedDisplays firstDisplay
  have hlength : (live w.file w.alive).entries.length ≤ 2 ^ 31 - 1 := by
    apply OrdMap.length_le_of_keys
    intro kv hkv
    have hkv := writable_live h kv hkv
    have hmax := hkv.pid_max
    simp only [JailQuery.intMax] at hmax
    exact ⟨hkv.pid_pos, by omega⟩
  have hsmall : lowestFree usedDisplays firstDisplay < 2 ^ 32 := by
    simp only [usedDisplays, List.length_map, firstDisplay] at hle ⊢
    omega
  have hvalue : (allocateDisplay lock w.file w.alive).1.toNat =
      lowestFree usedDisplays firstDisplay := UInt32.toNat_ofNat_of_lt' hsmall
  rw [hvalue]
  apply hlowest.congr
  intro n
  rw [List.mem_map]
  constructor
  · rintro ⟨⟨pid, e⟩, hmem, hn⟩
    exact ⟨pid, e, OrdMap.find?_eq_some_iff.mpr hmem, hn⟩
  · rintro ⟨pid, e, hfind, hn⟩
    exact ⟨(pid, e), OrdMap.find?_eq_some_iff.mp hfind, hn⟩

theorem takesLowest_iff (w : World) (a : Action) (h : Inv w) :
    TakesLowest w a ↔ RegistryAgrees w a := by
  cases a with
  | allocate pid => exact imp_congr_right (fun _ => (allocateDisplay_lowest h).held_iff)
  | spawn | register | unregister | abandon | die | list => exact Iff.rfl

/-! ## Who holds what -/

/-- Who holds a display after a process has changed its phase. -/
theorem separate_enter {w : World} (h : Separate w) {file : Str} {pid : Pid} {phase : Phase}
    (hmine : ∀ displayNum, phase = .allocated displayNum ∨ phase = .registered displayNum →
      ∀ q, q ≠ pid.val → ¬Holds w q displayNum) :
    Separate (enter { w with file := file } pid phase) := by
  have hself : ∀ d, Holds (enter { w with file := file } pid phase) pid.val d ↔
      (phase = .allocated d ∨ phase = .registered d) := by
    intro d
    simp only [Holds, enter, Function.update_self]
  have hother : ∀ q d, q ≠ pid.val →
      (Holds (enter { w with file := file } pid phase) q d ↔ Holds w q d) := by
    intro q d hq
    simp only [Holds, enter, Function.update_of_ne hq]
  intro p q d hp hq
  by_cases hpid : p = pid.val
  · subst hpid
    by_contra hne
    exact hmine d ((hself d).mp hp) q (Ne.symm hne) ((hother q d (Ne.symm hne)).mp hq)
  · by_cases hqid : q = pid.val
    · subst hqid
      exact absurd ((hother p d hpid).mp hp) (hmine d ((hself d).mp hq) p hpid)
    · exact h p q d ((hother p d hpid).mp hp) ((hother q d hqid).mp hq)

theorem separate_step (w : World) (a : Action) (h : Separate w) (hlowest : TakesLowest w a) :
    Separate (step w a) := by
  have hidle : ∀ (file : Str) (pid : Pid) (phase : Phase), (∀ d, phase ≠ .allocated d) →
      (∀ d, phase ≠ .registered d) → Separate (enter { w with file := file } pid phase) := by
    intro file pid phase hallocated hregistered
    apply separate_enter h
    rintro d (hd | hd)
    · exact absurd hd (hallocated d)
    · exact absurd hd (hregistered d)
  cases a with
  | spawn pid =>
      unfold step
      dsimp only
      split
      · exact hidle w.file pid .other (fun _ => by simp) (fun _ => by simp)
      · exact h
  | allocate pid =>
      unfold step
      dsimp only
      split
      · rename_i hproc
        apply separate_enter h
        rintro d (hd | hd) q _ hq
        · cases hd
          exact (hlowest hproc).free ⟨q, _, hq, rfl⟩
        · cases hd
      · exact h
  | register pid session =>
      unfold step
      dsimp only
      split
      · rename_i displayNum hproc
        apply separate_enter h
        rintro d (hd | hd) q hne hq
        · cases hd
        · cases hd
          exact hne (h q pid.val displayNum hq (.inl hproc))
      · exact h
  | unregister pid =>
      unfold step
      dsimp only
      split
      · exact hidle _ pid .other (fun _ => by simp) (fun _ => by simp)
      · exact h
  | abandon pid =>
      unfold step
      dsimp only
      split
      · exact hidle w.file pid .other (fun _ => by simp) (fun _ => by simp)
      · exact h
  | die pid => exact hidle w.file pid .dead (fun _ => by simp) (fun _ => by simp)
  | list => exact h

theorem separate_start : Separate start := by
  intro p q d hp
  rcases hp with hp | hp <;> contradiction

/--
In a run no two containers ever hold one display, and each takes the lowest that
is free, exactly when the registry is right, up to its first gap, each time a
display is taken.
-/
theorem displays_separate_iff (actions : List Action) :
    ((∀ before, before <+: actions → Separate (run step start before)) ∧
        StepsMeet step TakesLowest start actions) ↔
      StepsMeet step RegistryAgrees start actions := by
  rw [← stepsMeet_congr inv_step takesLowest_iff inv_start actions]
  constructor
  · exact And.right
  · intro hmeet
    exact ⟨fun before hbefore => forall_prefix_good separate_step separate_start hmeet hbefore,
      hmeet⟩

def firstPid : Pid := ⟨100, by decide, by decide⟩

def secondPid : Pid := ⟨200, by decide, by decide⟩

/-- A nested X server with VNC. -/
def webSession : Session where
  xServerPid := 101
  vncPort := 5910
  wsPort := 6080
  mode := "nested"
  jailName := "web"
  xServerPid_nonneg := by decide
  xServerPid_max := by decide
  vncPort_max := by decide
  wsPort_max := by decide
  mode_word := by decide
  jailName_word := by decide

/-- The second container starts when the first is entered. -/
def oneAfterAnother : List Action :=
  [.spawn firstPid, .allocate firstPid, .register firstPid webSession, .spawn secondPid,
    .allocate secondPid]

/-- When the second container takes its display, the registry has what is held. -/
theorem registered_iff_held_before_second (n : Nat) :
    Registered (run step start (oneAfterAnother.take 4)) n ↔
      Held (run step start (oneAfterAnother.take 4)) n := by
  have hentries : (live (run step start (oneAfterAnother.take 4)).file
      (run step start (oneAfterAnother.take 4)).alive).entries =
        [(100, webSession.entry firstPid 10)] := by
    decide
  have hprocs : (run step start (oneAfterAnother.take 4)).procs =
      Function.update (Function.update (Function.update (Function.update (fun _ => .dead) 100
        .other) 100 (.allocated 10)) 100 (.registered 10)) 200 .other := rfl
  constructor
  · rintro ⟨pid, e, hfind, rfl⟩
    have hmem := OrdMap.find?_eq_some_iff.mp hfind
    rw [hentries, List.mem_singleton, Prod.mk.injEq] at hmem
    obtain ⟨rfl, rfl⟩ := hmem
    exact ⟨100, 10, .inr (congrFun hprocs 100), rfl⟩
  · rintro ⟨pid, displayNum, hholds, rfl⟩
    have hheld : displayNum = 10 := by
      simp only [Holds, hprocs, Function.update_apply] at hholds
      split_ifs at hholds
      · simp at hholds
      · simpa [eq_comm] using hholds
      · simp at hholds
    refine ⟨100, webSession.entry firstPid 10, OrdMap.find?_eq_some_iff.mpr ?_, by rw [hheld]; rfl⟩
    rw [hentries]
    exact List.mem_singleton_self _

theorem registryAgrees_oneAfterAnother : StepsMeet step RegistryAgrees start oneAfterAnother := by
  refine ⟨trivial, ?_, trivial, trivial, ?_, trivial⟩
  · have hprocs : (step start (.spawn firstPid)).procs =
        Function.update (fun _ => .dead) 100 .other := rfl
    intro _ n _ hwrong
    refine absurd (iff_of_false ?_ ?_) hwrong
    · rintro ⟨pid, e, hfind, -⟩
      cases hfind
    · rintro ⟨pid, displayNum, hholds, -⟩
      simp only [Holds, hprocs, Function.update_apply] at hholds
      split_ifs at hholds <;> simp at hholds
  · intro _ n _ hwrong
    exact absurd (registered_iff_held_before_second n) hwrong

/-- The second container takes the next display. -/
theorem displays_apart :
    ((∀ before, before <+: oneAfterAnother → Separate (run step start before)) ∧
        StepsMeet step TakesLowest start oneAfterAnother) ∧
      (run step start oneAfterAnother).procs 200 = .allocated 11 :=
  ⟨(displays_separate_iff oneAfterAnother).mpr registryAgrees_oneAfterAnother, by decide⟩

/-- Two containers that start together: the second takes its display before the first is entered. -/
theorem displays_shared :
    ¬∀ actions, (∀ before, before <+: actions → Separate (run step start before)) ∧
      StepsMeet step TakesLowest start actions := by
  intro hall
  let together : List Action :=
    [.spawn firstPid, .spawn secondPid, .allocate firstPid, .allocate secondPid]
  obtain ⟨hseparate, -⟩ := hall together
  have h := hseparate _ (List.prefix_refl _) 100 200 10
  have hfirst : (run step start together).procs 100 = .allocated 10 := by decide
  have hsecond : (run step start together).procs 200 = .allocated 10 := by decide
  have heq := h (.inl hfirst) (.inl hsecond)
  contradiction

end Crate.RunGui
