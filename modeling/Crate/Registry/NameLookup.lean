import Crate.Registry.World

/-!
# Looking a live jail up by name

The map is keyed by jid, so a jail that died outside the daemon can leave an
entry with the name of a jail that runs now.  A name lookup takes the first
entry in jid order, evicts it when it is stale and stops: the live jail is
found exactly when no leftover with its name has a smaller jid.
-/

namespace Crate.World

open Crate.Foundation
open Crate.JidOwnerRegistryPure (Entry)

/-- Every registered live jail is found by its name, with its recorded owner. -/
def AnswersByName (w : World) : Prop :=
  ∀ jid e, w.LiveEntry jid e →
    (w.reg.lookupByName w.probe e.name).1 = { known := true, uid := e.uid }

/-- No entry with the name of a registered live jail has a smaller jid. -/
def Unshadowed (w : World) : Prop :=
  ∀ jid e, w.LiveEntry jid e →
    ∀ j e', w.reg.entries.find? j = some e' → e'.name = e.name → jid ≤ j

theorem lookupByName_eq_some_iff {w : World} {name : Str} {jid : Nat} {e : Entry} :
    JidOwnerRegistryPure.lookupByName w.reg.entries name = some (jid, e) ↔
      w.reg.entries.find? jid = some e ∧ e.name = name ∧
        ∀ j e', w.reg.entries.find? j = some e' → e'.name = name → jid ≤ j := by
  simp [JidOwnerRegistryPure.lookupByName, OrdMap.find?_entries_eq_some_iff]

theorem exists_lookupByName {w : World} {jid : Nat} {e : Entry}
    (h : w.reg.entries.find? jid = some e) :
    ∃ found, JidOwnerRegistryPure.lookupByName w.reg.entries e.name = some found := by
  apply Option.isSome_iff_exists.mp
  rw [JidOwnerRegistryPure.lookupByName, List.find?_isSome]
  exact ⟨_, OrdMap.find?_eq_some_iff.mp h, by simp⟩

theorem answersByName_iff_unshadowed (w : World) : w.AnswersByName ↔ w.Unshadowed := by
  constructor
  · intro hanswers jid e hlive
    obtain ⟨⟨j₀, e₀⟩, hfound⟩ := exists_lookupByName hlive.1
    obtain ⟨_, hname, hleast⟩ := lookupByName_eq_some_iff.mp hfound
    have hanswer := hanswers jid e hlive
    rw [JidOwnerRegistry.lookupByName, hfound] at hanswer
    have hprobe : w.probe j₀ e₀ = true := by
      by_contra hstale
      rw [Bool.not_eq_true] at hstale
      simp [JidOwnerRegistry.answer, JidOwnerRegistry.stale, hstale] at hanswer
    have heq : jid = j₀ := by
      refine w.live.unique hlive.2 ?_
      rw [← hname]
      simpa [probe] using hprobe
    rw [heq]
    exact hleast
  · intro hunshadowed jid e hlive
    have hfound : JidOwnerRegistryPure.lookupByName w.reg.entries e.name = some (jid, e) :=
      lookupByName_eq_some_iff.mpr ⟨hlive.1, rfl, hunshadowed jid e hlive⟩
    have hprobe : w.probe jid e = true := by simpa [probe] using hlive.2
    simp [JidOwnerRegistry.lookupByName, hfound, JidOwnerRegistry.answer,
      JidOwnerRegistry.stale, hprobe]

/--
The action does not put a leftover in front of a live jail: a jail is not
recorded, and does not start, while an entry with its name and a smaller jid
is still there, and no leftover is recorded in front of a live entry.
-/
def CastsNoShadow (w : World) : Action → Prop
  | .recordCreate jid _ name _ =>
      (w.live.jails.find? jid = some name →
        ∀ j e, w.reg.entries.find? j = some e → e.name = name → jid ≤ j) ∧
      ∀ j e, w.LiveEntry j e → e.name = name → j ≤ jid
  | .appear jid name =>
      w.live.free jid name = true → ∀ e, w.reg.entries.find? jid = some e → e.name = name →
        ∀ j e', w.reg.entries.find? j = some e' → e'.name = name → jid ≤ j
  | _ => True

theorem Unshadowed.mono {w w' : World} (h : w.Unshadowed) (hreg : w.reg.Shrinks w'.reg)
    (hlive : ∀ j n, w'.live.jails.find? j = some n → w.live.jails.find? j = some n) :
    w'.Unshadowed := by
  rintro jid e ⟨hentry, hrun⟩ j e' hj hname
  exact h jid e ⟨hreg _ _ hentry, hlive _ _ hrun⟩ j e' (hreg _ _ hj) hname

theorem find?_recordCreate (w : World) (jid j : Nat) (uid : UInt32) (name path : Str) :
    (w.step (.recordCreate jid uid name path)).reg.entries.find? j =
      if jid = j then some { uid := uid, name := name, path := path }
      else w.reg.entries.find? j :=
  OrdMap.find?_insert _ _ _ _

theorem unshadowed_recordCreate_iff {w : World} (h : w.Unshadowed) (jid : Nat) (uid : UInt32)
    (name path : Str) :
    (w.step (.recordCreate jid uid name path)).Unshadowed ↔
      w.CastsNoShadow (.recordCreate jid uid name path) := by
  have hfind := fun j => find?_recordCreate w jid j uid name path
  have hself := (hfind jid).trans (if_pos rfl)
  constructor
  · intro hnext
    constructor
    · intro hrun j e hj hname
      by_cases heq : jid = j
      · omega
      · exact hnext jid _ ⟨hself, hrun⟩ j e ((hfind j).trans (by simpa [heq] using hj)) hname
    · rintro j e ⟨hentry, hrun⟩ hname
      by_cases heq : jid = j
      · omega
      · exact hnext j e ⟨(hfind j).trans (by simpa [heq] using hentry), hrun⟩ jid _ hself
          hname.symm
  · rintro ⟨hrecord, hbehind⟩ j₁ e₁ ⟨hentry, hrun⟩ j e' hj hname
    rw [hfind] at hentry hj
    by_cases heq₁ : jid = j₁
    · rw [if_pos heq₁, Option.some.injEq] at hentry
      by_cases heq : jid = j
      · omega
      · rw [if_neg heq] at hj
        subst heq₁ hentry
        exact hrecord hrun j e' hj hname
    · rw [if_neg heq₁] at hentry
      by_cases heq : jid = j
      · rw [if_pos heq, Option.some.injEq] at hj
        subst heq hj
        exact hbehind j₁ e₁ ⟨hentry, hrun⟩ hname.symm
      · rw [if_neg heq] at hj
        exact h j₁ e₁ ⟨hentry, hrun⟩ j e' hj hname

theorem unshadowed_appear_iff {w : World} (h : w.Unshadowed) (jid : Nat) (name : Str) :
    (w.step (.appear jid name)).Unshadowed ↔ w.CastsNoShadow (.appear jid name) := by
  by_cases hfree : w.live.free jid name = true
  · have hlive : ∀ j, (w.step (.appear jid name)).live.jails.find? j =
        if jid = j then some name else w.live.jails.find? j :=
      fun j => LiveJails.find?_appear_of_free hfree
    constructor
    · intro hnext _ e hentry hename j e' hj hname
      have hrun : (w.step (.appear jid name)).live.jails.find? jid = some e.name := by
        rw [hlive, if_pos rfl, hename]
      exact hnext jid e ⟨hentry, hrun⟩ j e' hj (hname.trans hename.symm)
    · rintro hcast j₁ e₁ ⟨hentry, hrun⟩ j e' hj hname
      rw [hlive] at hrun
      by_cases heq : jid = j₁
      · rw [if_pos heq, Option.some.injEq] at hrun
        subst heq
        exact hcast hfree e₁ hentry hrun.symm j e' hj (hname.trans hrun.symm)
      · rw [if_neg heq] at hrun
        exact h j₁ e₁ ⟨hentry, hrun⟩ j e' hj hname
  · have hsame : w.step (.appear jid name) = w := by
      simp [step, LiveJails.appear_of_not_free (Bool.eq_false_iff.mpr hfree)]
    rw [hsame]
    exact ⟨fun _ hfree' => absurd hfree' hfree, fun _ => h⟩

theorem unshadowed_step_iff (w : World) (a : Action) (h : w.Unshadowed) :
    (w.step a).Unshadowed ↔ w.CastsNoShadow a := by
  have same : ∀ j n, w.live.jails.find? j = some n → w.live.jails.find? j = some n :=
    fun _ _ hrun => hrun
  cases a with
  | recordCreate jid uid name path => exact unshadowed_recordCreate_iff h jid uid name path
  | forgetByJid jid =>
      exact iff_of_true (h.mono JidOwnerRegistry.forgetByJid_shrinks same) trivial
  | forgetByName name =>
      exact iff_of_true (h.mono (JidOwnerRegistry.forgetByName_shrinks name) same) trivial
  | lookupByJid jid =>
      exact iff_of_true (h.mono JidOwnerRegistry.lookupByJid_shrinks same) trivial
  | lookupByName name =>
      exact iff_of_true (h.mono (JidOwnerRegistry.lookupByName_shrinks name) same) trivial
  | lookupByPath path => exact iff_of_true h trivial
  | reconcile => exact iff_of_true (h.mono JidOwnerRegistry.reconcile_shrinks same) trivial
  | appear jid name => exact unshadowed_appear_iff h jid name
  | die jid =>
      exact iff_of_true (h.mono .refl fun _ _ hrun => LiveJails.find?_of_die hrun) trivial

theorem Reconciled.unshadowed {w : World} (h : w.Reconciled) : w.Unshadowed := by
  intro jid e hlive j e' hj hname
  have hlive' := h j e' hj
  refine (w.live.unique hlive.2 ?_).le
  rw [← hname]
  exact hlive'.2

/--
Along a run from a reconciled registry, every registered live jail is found by
its name in every state exactly when no action of the run casts a shadow.
-/
theorem answersByName_run_iff {w : World} (h : w.Reconciled) (actions : List Action) :
    (∀ before, before <+: actions → (run step w before).AnswersByName) ↔
      StepsMeet step CastsNoShadow w actions := by
  simp only [answersByName_iff_unshadowed]
  exact forall_prefix_good_iff unshadowed_step_iff h.unshadowed actions

/-- Two jails side by side, of which one ends. -/
def webAndApi : List Action :=
  [.appear 5 "web", .recordCreate 5 1000 "web" "/jails/1000/web", .appear 9 "api",
    .recordCreate 9 1001 "api" "/jails/1001/api", .lookupByName "web", .die 5, .lookupByName "web"]

theorem answersByName_two_jails :
    initial.Reconciled ∧
      (∀ before, before <+: webAndApi → (run step initial before).AnswersByName) ∧
      (run step initial webAndApi).LiveEntry 9
        { uid := 1001, name := "api", path := "/jails/1001/api" } := by
  have hweb : ∀ j e, (run step initial (webAndApi.take 3)).reg.entries.find? j = some e →
      e.name ≠ "api" := by
    intro j e hj
    have hj' := (find?_recordCreate (initial.step (.appear 5 "web")) 5 j 1000 "web"
      "/jails/1000/web").symm.trans hj
    split at hj'
    · obtain rfl := Option.some.inj hj'
      decide
    · cases hj'
  have hmeet : StepsMeet step CastsNoShadow initial webAndApi := by
    refine ⟨?_, ⟨?_, ?_⟩, ?_, ⟨?_, ?_⟩, trivial, trivial, trivial, trivial⟩
    · intro _ e he
      cases he
    · intro _ j e hj
      cases hj
    · rintro j e ⟨hj, -⟩
      cases hj
    · intro _ e he
      cases he
    · intro _ j e hj hname
      exact absurd hname (hweb j e hj)
    · rintro j e ⟨hj, -⟩ hname
      exact absurd hname (hweb j e hj)
  refine ⟨initial_reconciled, (answersByName_run_iff initial_reconciled webAndApi).mpr hmeet, ?_⟩
  unfold LiveEntry
  decide

/-- A jail restarted under a larger jid hides behind the leftover of its first run. -/
def restartActions : List Action :=
  [.appear 5 "web", .recordCreate 5 1000 "web" "/jails/1000/web", .die 5, .appear 9 "web",
    .recordCreate 9 1001 "web" "/jails/1001/web"]

theorem live_jail_unknown_behind_leftover :
    (run step initial restartActions).LiveEntry 9
        { uid := 1001, name := "web", path := "/jails/1001/web" } ∧
      ((run step initial restartActions).reg.lookupByName
        (run step initial restartActions).probe "web").1 = {} ∧
      ¬(run step initial restartActions).AnswersByName := by
  have hlive : (run step initial restartActions).LiveEntry 9
      { uid := 1001, name := "web", path := "/jails/1001/web" } := by
    unfold LiveEntry
    decide
  have hanswer : ((run step initial restartActions).reg.lookupByName
      (run step initial restartActions).probe "web").1 = {} := by
    decide
  refine ⟨hlive, hanswer, fun hanswers => ?_⟩
  have hknown := hanswers 9 _ hlive
  rw [hanswer] at hknown
  simp at hknown

end Crate.World
