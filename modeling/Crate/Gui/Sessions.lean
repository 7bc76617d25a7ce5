import Crate.Daemon.Routes
import Crate.Gui.Registry

/-!
# Finding a GUI session

`crate gui focus`, `attach` and `url` and the route `/containers/{name}/gui` take
a target and look it up in the registry.  The commands list the entries first,
which fills the registry they look in; the route does not.
-/

namespace Crate.Ctx.GuiRegistry

open Crate.Foundation

/-- The target names the jail, or a part of it, or is the number of the display or of the owner. -/
def Matches (target : Str) (e : GuiEntry) : Prop :=
  e.jailName = target ∨ (("jail-" : Str) ++ target) <+: e.jailName ∨
    ∃ num, stoi target = some num ∧ (e.displayNum.toInt32.toInt = num ∨ e.ownerPid = num)

theorem findByTarget_exact {reg : GuiRegistry} {target : Str} {e : GuiEntry}
    (h : e ∈ reg.entries.entries.map Prod.snd) (hname : e.jailName = target) :
    ∃ found, reg.findByTarget target = some found ∧ found.jailName = target := by
  unfold findByTarget
  dsimp only
  split
  · rename_i found hfind
    exact ⟨found, rfl, by simpa using List.find?_some hfind⟩
  · rename_i hnone
    have hno := List.find?_eq_none.mp hnone e h
    exact absurd hname (by simpa using hno)

/-- The passes over the entries, each of which looks only where the ones before found nothing. -/
theorem findByTarget_eq_or (reg : GuiRegistry) (target : Str) :
    reg.findByTarget target =
      let entries := reg.entries.entries.map Prod.snd
      (entries.find? (fun e => e.jailName = target)).or <|
        (entries.find? (fun e => ("jail-" ++ target).isPrefixOf e.jailName)).or <|
          (stoi target).bind fun num =>
            (entries.find? (fun e => e.displayNum.toInt32.toInt = num)).or
              (entries.find? (fun e => e.ownerPid = num)) := by
  unfold findByTarget
  dsimp only
  split
  · rename_i hexact
    rw [hexact, Option.some_or]
  · rename_i hexact
    rw [hexact, Option.none_or]
    split
    · rename_i hpart
      rw [hpart, Option.some_or]
    · rename_i hpart
      rw [hpart, Option.none_or]
      split
      · rename_i hnum
        rw [hnum, Option.bind_none]
      · rename_i hnum
        rw [hnum, Option.bind_some]
        split
        · rename_i hdisplay
          rw [hdisplay, Option.some_or]
        · rename_i hdisplay
          rw [hdisplay, Option.none_or]

theorem findByTarget_eq_none_iff {reg : GuiRegistry} {target : Str} :
    reg.findByTarget target = none ↔
      ∀ e ∈ reg.entries.entries.map Prod.snd, ¬Matches target e := by
  rw [findByTarget_eq_or]
  simp only [Option.or_eq_none_iff, List.find?_eq_none, Option.bind_eq_none_iff, decide_eq_true_eq,
    List.isPrefixOf_iff_prefix]
  constructor
  · rintro ⟨hname, hpart, hnum⟩ e he (h | h | ⟨num, hsome, h | h⟩)
    · exact hname e he h
    · exact hpart e he h
    · exact (hnum num hsome).1 e he h
    · exact (hnum num hsome).2 e he h
  · intro hall
    refine ⟨fun e he h => hall e he (.inl h), fun e he h => hall e he (.inr (.inl h)), ?_⟩
    intro num hsome
    exact ⟨fun e he h => hall e he (.inr (.inr ⟨num, hsome, .inl h⟩)),
      fun e he h => hall e he (.inr (.inr ⟨num, hsome, .inr h⟩))⟩

end Crate.Ctx.GuiRegistry

namespace Crate.Gui

open Crate.Foundation
open Crate.Ctx (GuiEntry)
open Crate.Ctx.GuiRegistry
open Crate.Routes

/-- `getEntries` and `findByTarget` on one registry, and the file when the lock is released. -/
def lookupSession (file : Str) (alive : Int → Bool) (target : Str) : Except Str GuiEntry × Str :=
  let (_, reg) := getEntries lock file alive
  let answer := match reg.findByTarget target with
    | none => raise "gui" ("GUI session not found for target '" ++ target ++ "'")
    | some e => .ok e
  (answer, unlock reg file)

/-- The programs the commands run. -/
structure Tools where
  /-- The windows of a process, one a line, or why there is no answer. -/
  searchWindows : Int → Except Str Str
  activateWindow : Str → Except Str Unit
  hasViewer : Bool

/-- What a command comes to with the session it has found. -/
inductive Answer where
  | prints (lines : List Str)
  /-- The process becomes a VNC viewer for this address. -/
  | executes (message host : Str)
  deriving DecidableEq, Repr

def focusWindow (tools : Tools) (e : GuiEntry) : Except Str Answer := do
  let windowId ← tools.searchWindows e.xServerPid
  let wid := windowId.takeWhile (· ≠ '\n')
  if wid.isEmpty then
    raise "gui" ("could not find X window for Xephyr PID " ++ integerText e.xServerPid)
  else do
    tools.activateWindow wid
    return .prints ["Focused: " ++ e.jailName ++ " (display :" ++ decimal e.displayNum.toNat ++ ")"]

def focusSession (tools : Tools) (e : GuiEntry) : Except Str Answer :=
  if e.mode ≠ "nested" then
    raise "gui" ("'gui focus' is only supported for nested (Xephyr) sessions, but '" ++ e.jailName ++
      "' uses mode '" ++ e.mode ++ "'")
  else
    match focusWindow tools e with
    | .error what => raise "gui" ("failed to focus window: " ++ what)
    | .ok answer => .ok answer

def attachSession (tools : Tools) (e : GuiEntry) : Except Str Answer :=
  if e.vncPort = 0 then
    raise "gui" ("no VNC server running for '" ++ e.jailName ++ "' (mode=" ++ e.mode ++ ")")
  else if tools.hasViewer then
    .ok (.executes ("Connecting VNC viewer to :" ++ decimal e.displayNum.toNat ++ " (port " ++
      decimal e.vncPort ++ ")...") ("localhost:" ++ decimal e.vncPort))
  else raise "gui" "no VNC viewer found (install: pkg install tigervnc-viewer)"

def urlOfSession (e : GuiEntry) : Except Str Answer :=
  if e.vncPort = 0 then raise "gui" ("no VNC server running for '" ++ e.jailName ++ "'")
  else
    .ok (.prints ["VNC:   vnc://localhost:" ++ decimal e.vncPort,
      if e.wsPort ≠ 0 then
        "noVNC: http://localhost:" ++ decimal e.wsPort ++ "/vnc.html?autoconnect=true&port=" ++
          decimal e.wsPort
      else "noVNC: not running (enable with gui/novnc: true)"])

def guiFocus (tools : Tools) (file : Str) (alive : Int → Bool) (target : Str) :
    Except Str Answer × Str :=
  let (found, file) := lookupSession file alive target
  (found >>= focusSession tools, file)

def guiAttach (tools : Tools) (file : Str) (alive : Int → Bool) (target : Str) :
    Except Str Answer × Str :=
  let (found, file) := lookupSession file alive target
  (found >>= attachSession tools, file)

def guiUrl (file : Str) (alive : Int → Bool) (target : Str) : Except Str Answer × Str :=
  let (found, file) := lookupSession file alive target
  (found >>= urlOfSession, file)

/-! ## The session of a target -/

/-- The target looked up among the entries of the file whose owners live. -/
def sessionOf (file : Str) (alive : Int → Bool) (target : Str) : Option GuiEntry :=
  { entries := live file alive, inMemory := true, changed := false : Ctx.GuiRegistry }.findByTarget
    target

/-- What a command that goes on with `next` makes of the session, or of its absence. -/
def commandOn {α : Type} (next : GuiEntry → Except Str α) (target : Str) :
    Option GuiEntry → Except Str α
  | none => raise "gui" ("GUI session not found for target '" ++ target ++ "'")
  | some e => next e

/-- The session that a response of the API reports. -/
def reported (answer : Outcome) : Option GuiEntry :=
  answer.effects.findSome? fun
    | .session e => some e
    | _ => none

/-- The commands and the route agree on the session, and an exact name comes before the rest. -/
structure SameSession (env : Env) (tools : Tools) (file : Str) (alive : Int → Bool)
    (target : Str) : Prop where
  focus : (guiFocus tools file alive target).1 =
    commandOn (focusSession tools) target (sessionOf file alive target)
  attach : (guiAttach tools file alive target).1 =
    commandOn (attachSession tools) target (sessionOf file alive target)
  url : (guiUrl file alive target).1 = commandOn urlOfSession target (sessionOf file alive target)
  route : reported (handleContainerGui { env with guiLockError := none } target) =
    sessionOf file alive target
  notFound : (handleContainerGui { env with guiLockError := none } target).status = 404 ↔
    sessionOf file alive target = none
  exact : ∀ e ∈ (live file alive).entries.map Prod.snd, e.jailName = target →
    ∃ found, sessionOf file alive target = some found ∧ found.jailName = target

theorem lookupSession_eq (file : Str) (alive : Int → Bool) (target : Str) :
    (lookupSession file alive target).1 = commandOn .ok target (sessionOf file alive target) := by
  have hreg : (getEntries lock file alive).2.findByTarget target = sessionOf file alive target := rfl
  unfold lookupSession commandOn
  dsimp only
  rw [hreg]

theorem commandOn_bind (next : GuiEntry → Except Str Answer) (target : Str)
    (found : Option GuiEntry) :
    commandOn .ok target found >>= next = commandOn next target found := by
  cases found <;> rfl

theorem handleContainerGui_eq (env : Env) (target : Str) :
    handleContainerGui { env with guiLockError := none } target =
      jsonError 404 ("no GUI session for container '" ++ target ++ "'") := by
  unfold handleContainerGui
  dsimp only
  rw [findByTarget_lock]

theorem sessionOf_eq_none_iff {file : Str} {alive : Int → Bool} {target : Str} :
    sessionOf file alive target = none ↔
      ∀ pid e, (stored file).find? pid = some e → alive pid = true → ¬Matches target e := by
  rw [sessionOf, findByTarget_eq_none_iff]
  constructor
  · intro hall pid e hfind halive
    have hlive := OrdMap.find?_eq_some_iff.mp (find?_live.mpr ⟨hfind, halive⟩)
    exact hall e (List.mem_map.mpr ⟨(pid, e), hlive, rfl⟩)
  · intro hall e he
    obtain ⟨⟨pid, e⟩, hmem, rfl⟩ := List.mem_map.mp he
    obtain ⟨hfind, halive⟩ := find?_live.mp (OrdMap.find?_eq_some_iff.mpr hmem)
    exact hall pid e hfind halive

/--
The route and the commands find the same session exactly when there is none to
be found: no entry of a process that lives matches the target.
-/
theorem sameSession_iff (env : Env) (tools : Tools) (file : Str) (alive : Int → Bool)
    (target : Str) :
    SameSession env tools file alive target ↔
      ∀ pid e, (stored file).find? pid = some e → alive pid = true → ¬Matches target e := by
  rw [← sessionOf_eq_none_iff]
  constructor
  · intro h
    have hroute := h.route
    rw [handleContainerGui_eq] at hroute
    exact hroute.symm
  · intro hnone
    have hcommand : ∀ next : GuiEntry → Except Str Answer,
        (lookupSession file alive target).1 >>= next =
          commandOn next target (sessionOf file alive target) := by
      intro next
      rw [lookupSession_eq, commandOn_bind]
    constructor
    · exact hcommand _
    · exact hcommand _
    · exact hcommand _
    · rw [handleContainerGui_eq, hnone]
      rfl
    · rw [handleContainerGui_eq]
      exact iff_of_true rfl hnone
    · intro e he hname
      exact findByTarget_exact he hname

/-- One container runs: `crate gui url web` prints its ports, the route answers 404. -/
theorem web_not_found :
    ¬SameSession { registry := .missing, pathExists := fun _ => false }
      ⟨fun _ => .ok [], fun _ => .ok (), true⟩ "100 10 101 5910 6080 headless web\n"
      (fun pid => pid = 100) "web" := by
  rw [sameSession_iff]
  intro hall
  have hfind : (stored "100 10 101 5910 6080 headless web\n").find? 100 =
      some ⟨100, 10, 101, 5910, 6080, "headless", "web"⟩ := by decide
  exact hall 100 _ hfind rfl (.inl rfl)

end Crate.Gui
