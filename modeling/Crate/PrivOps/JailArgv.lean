import Crate.Foundation.Outcome
import Crate.PrivOps.ValidateReq
import Crate.PrivOps.WireParse

/-!
# The arguments of `jail -c`

`handleCreateJail` composes the command line of `jail(8)` from a request that
`validateCreateJail` let through, and cuts the free-text field `parameters` at
white space a second time.  Whatever that text is, each of its words is a
whitelisted `key=value`, and none of them can stand for an argument that the
handler writes itself.
-/

namespace Crate.PrivOpsHandlers

open Crate.Foundation
open Crate.PrivOpsPure
open Crate.PrivOpsWirePure (DispatchResult formatHandlerError)

/-! ## The handler -/

/-- What the handler asks the host: path resolution, and a command to be run. -/
structure JailHost where
  /-- `CRATE_PATH_JAIL`. -/
  jailPath : Str
  nonCanonicalReason : Str → Str → Str
  /-- The text of the exception, when the command cannot be run or fails. -/
  execCommand : List Str → Str → Option Str

def formatCreateJailSuccess (name path : Str) : Str :=
  "\x7b\"created\":true" ++ (",\"name\":\"" ++ JsonPure.escape name ++ "\"") ++
    (",\"path\":\"" ++ JsonPure.escape path ++ "\"") ++ "\x7d"

def rejectNonCanonical (reason : Str) : DispatchResult :=
  ⟨400, formatHandlerError "path_not_canonical" reason⟩

/-- The arguments behind the command's own name. -/
def createJailArgs (r : CreateJailReq) : List Str :=
  (["-c", ("name=" : Str) ++ r.name, ("path=" : Str) ++ r.path] : List Str) ++
    (if r.hostname ≠ [] then [("host.hostname=" : Str) ++ r.hostname] else []) ++
    (if r.vnet then [("vnet" : Str)] else []) ++
    (if r.parameters ≠ [] then tokens r.parameters else []) ++ [("persist" : Str)]

/-- The command that was run, if any, and the reply. -/
structure JailOutcome where
  executed : Option (List Str)
  reply : DispatchResult

def handleCreateJail (host : JailHost) (r : CreateJailReq) : JailOutcome :=
  let reason := host.nonCanonicalReason r.path "path"
  if reason ≠ [] then ⟨none, rejectNonCanonical reason⟩
  else
    let argv := host.jailPath :: createJailArgs r
    match host.execCommand argv "privops create_jail" with
    | some what => ⟨some argv, ⟨500, formatHandlerError "jail_failed" what⟩⟩
    | none => ⟨some argv, ⟨200, formatCreateJailSuccess r.name r.path⟩⟩

theorem executed_handleCreateJail {host : JailHost} {r : CreateJailReq} {argv : List Str}
    (h : (handleCreateJail host r).executed = some argv) :
    argv = host.jailPath :: createJailArgs r := by
  simp only [handleCreateJail] at h
  split at h
  · contradiction
  · split at h <;> exact (Option.some.inj h).symm

/-! ## What a whitelisted argument is -/

/-- The shape of a value, for each kind of parameter. -/
def HasShape : ParamKind → Str → Prop
  | .bool, v => v ∈ (["0", "1", "true", "false"] : List Str)
  | .enforceStatfs, v => v ∈ (["0", "1", "2"] : List Str)
  | .securelevel, v => v ∈ (["-1", "0", "1", "2", "3"] : List Str)
  | .unsigned, v => allDigits v = true ∧ v.length ≤ 9
  | .uint32, v => allDigits v = true ∧ v.length ≤ 10 ∧ decimalValue v ≤ 4294967295
  | .uuid, v => v.length = 36 ∧
      ∀ i c, v[i]? = some c → if i ∈ [8, 13, 18, 23] then c = '-' else isHexDigit c = true

def Whitelisted (arg : Str) : Prop :=
  ∃ key kind value, (key, kind) ∈ kJailParamWhitelist ∧ arg = key ++ '=' :: value ∧
    HasShape kind value

theorem uuidLoop_eq_ok {v : Str} {start : Nat} (h : uuidLoop start v = .ok ()) (i : Nat) (c : Char)
    (hc : v[i]? = some c) :
    if start + i ∈ [8, 13, 18, 23] then c = '-' else isHexDigit c = true := by
  induction v generalizing start i with
  | nil => simp at hc
  | cons d rest ih =>
      have hstep : (if start ∈ [8, 13, 18, 23] then d = '-' else isHexDigit d = true) ∧
          uuidLoop (start + 1) rest = .ok () := by
        rw [uuidLoop] at h
        split at h
        · rename_i hdash
          rw [if_pos hdash]
          simpa using h
        · rename_i hdash
          rw [if_neg hdash]
          simpa using h
      cases i with
      | zero =>
          obtain rfl : d = c := by simpa using hc
          exact hstep.1
      | succ i =>
          have hrest := ih hstep.2 i (by simpa using hc)
          rwa [Nat.add_right_comm] at hrest

theorem mem_of_reject_contains {values : List Str} {v message : Str}
    (h : reject (!values.contains v) message = .ok ()) : v ∈ values := by
  rw [reject_eq_ok, Bool.not_eq_true', Bool.not_eq_false] at h
  exact List.contains_iff_mem.mp h

theorem hasShape_of_validateJailParamValue {kind : ParamKind} {v : Str}
    (h : validateJailParamValue kind v = .ok ()) : HasShape kind v := by
  cases kind with
  | bool => exact mem_of_reject_contains h
  | enforceStatfs => exact mem_of_reject_contains h
  | securelevel => exact mem_of_reject_contains h
  | unsigned => simpa [validateJailParamValue, HasShape] using h
  | uint32 =>
      simp only [validateJailParamValue, reject_eq_ok, Bool.not_eq_true', Bool.not_eq_false,
        Bool.and_eq_true, decide_eq_true_eq] at h
      exact ⟨h.1.1, h.1.2, h.2⟩
  | uuid =>
      rw [validateJailParamValue, check_seq_eq_ok, reject_eq_ok, not_not] at h
      refine ⟨h.1, fun i c hc => ?_⟩
      have hshape := uuidLoop_eq_ok h.2 i c hc
      rwa [Nat.zero_add] at hshape

theorem mem_of_lookup {key : Str} {kind : ParamKind} {table : List (Str × ParamKind)}
    (h : table.lookup key = some kind) : (key, kind) ∈ table := by
  induction table with
  | nil => contradiction
  | cons entry rest ih =>
      rw [List.lookup_cons] at h
      split at h
      · rename_i hkey
        obtain rfl : entry.2 = kind := Option.some.inj h
        rw [beq_iff_eq] at hkey
        rw [hkey]
        exact List.mem_cons_self
      · exact List.mem_cons_of_mem _ (ih h)

theorem whitelisted_of_checkJailParameter {tok : Str} (h : checkJailParameter tok = .ok ()) :
    Whitelisted tok := by
  simp only [checkJailParameter] at h
  split at h
  · contradiction
  · rename_i hshape
    rw [not_or, not_or, not_not] at hshape
    split at h
    · contradiction
    · rename_i kind hlookup
      rw [labelled_eq_ok] at h
      refine ⟨_, kind, _, mem_of_lookup hlookup, ?_, hasShape_of_validateJailParamValue h⟩
      exact (takeWhile_append_tail hshape.1).symm

theorem whitelisted_of_validateJailParameters {parameters : Str}
    (h : validateJailParameters parameters = .ok ()) :
    ∀ arg ∈ tokens parameters, Whitelisted arg := by
  unfold validateJailParameters at h
  split at h
  · rename_i hempty
    subst hempty
    intro arg harg
    simp [tokens] at harg
  · rw [check_seq_eq_ok, check_seq_eq_ok] at h
    intro arg harg
    exact whitelisted_of_checkJailParameter (forM_eq_ok.mp h.2.2 arg harg)

/-! ## What no whitelisted argument can begin with -/

/-- What the handler writes itself, and the parameters that reach outside the jail. -/
def reservedStarts : List Str :=
  ["name=", "path=", "host.hostname=", "exec.", "mount.", "devfs_ruleset", "ip4.addr"]

theorem not_isPrefix_key {key start : Str} {kind : ParamKind}
    (hkey : (key, kind) ∈ kJailParamWhitelist) (hstart : start ∈ reservedStarts) :
    ¬start <+: key ++ ['='] ∧ ¬key ++ ['='] <+: start := by
  have hall : ∀ entry ∈ kJailParamWhitelist, ∀ start ∈ reservedStarts,
      ¬start <+: entry.1 ++ ['='] ∧ ¬entry.1 ++ ['='] <+: start := by decide
  exact hall _ hkey _ hstart

theorem Whitelisted.not_reserved {arg start : Str} (h : Whitelisted arg)
    (hstart : start ∈ reservedStarts) : ¬start <+: arg := by
  obtain ⟨key, kind, value, hkey, rfl, -⟩ := h
  intro hpre
  obtain ⟨hshort, hlong⟩ := not_isPrefix_key hkey hstart
  have hown : key ++ ['='] <+: key ++ '=' :: value := ⟨value, by simp⟩
  rcases List.prefix_or_prefix_of_prefix hpre hown with hle | hle
  · exact hshort hle
  · exact hlong hle

/-! ## The whole command line -/

def startingWith (start : Str) (args : List Str) : List Str :=
  args.filter (fun arg => start.isPrefixOf arg)

theorem startingWith_append (start : Str) (a b : List Str) :
    startingWith start (a ++ b) = startingWith start a ++ startingWith start b :=
  List.filter_append a b

/-- The parameters add nothing to what the handler writes itself. -/
theorem startingWith_parameters {r : CreateJailReq} {start : Str}
    (h : validateJailParameters r.parameters = .ok ()) (hstart : start ∈ reservedStarts) :
    startingWith start (if r.parameters ≠ [] then tokens r.parameters else []) = [] := by
  split
  · rw [startingWith, List.filter_eq_nil_iff]
    intro arg harg
    rw [List.isPrefixOf_iff_prefix]
    exact (whitelisted_of_validateJailParameters h arg harg).not_reserved hstart
  · rfl

theorem startingWith_createJailArgs {r : CreateJailReq} {start : Str}
    (h : validateJailParameters r.parameters = .ok ()) (hstart : start ∈ reservedStarts) :
    startingWith start (createJailArgs r) =
      startingWith start [("-c" : Str), ("name=" : Str) ++ r.name, ("path=" : Str) ++ r.path] ++
        startingWith start
          (if r.hostname ≠ [] then [("host.hostname=" : Str) ++ r.hostname] else []) ++
        startingWith start (if r.vnet then [("vnet" : Str)] else []) ++
        startingWith start [("persist" : Str)] := by
  rw [createJailArgs, startingWith_append, startingWith_append, startingWith_append,
    startingWith_append, startingWith_parameters h hstart, List.append_nil]

theorem startingWith_optional {start arg : Str} {given : Prop} [Decidable given]
    (h : start.isPrefixOf arg = false) :
    startingWith start (if given then [arg] else []) = [] := by
  split
  · rw [startingWith, List.filter_cons_of_neg (by rw [h]; exact Bool.false_ne_true)]
    rfl
  · rfl

theorem startingWith_name {r : CreateJailReq} (h : validateJailParameters r.parameters = .ok ()) :
    startingWith "name=" (createJailArgs r) = [("name=" : Str) ++ r.name] := by
  rw [startingWith_createJailArgs h (by simp [reservedStarts]), startingWith_optional rfl,
    startingWith_optional rfl]
  rfl

theorem startingWith_path {r : CreateJailReq} (h : validateJailParameters r.parameters = .ok ()) :
    startingWith "path=" (createJailArgs r) = [("path=" : Str) ++ r.path] := by
  rw [startingWith_createJailArgs h (by simp [reservedStarts]), startingWith_optional rfl,
    startingWith_optional rfl]
  rfl

theorem startingWith_hostname {r : CreateJailReq}
    (h : validateJailParameters r.parameters = .ok ()) :
    startingWith "host.hostname=" (createJailArgs r) =
      if r.hostname ≠ [] then [("host.hostname=" : Str) ++ r.hostname] else [] := by
  rw [startingWith_createJailArgs h (by simp [reservedStarts])]
  have hvnet : startingWith "host.hostname=" (if r.vnet then [("vnet" : Str)] else []) = [] :=
    startingWith_optional rfl
  rw [hvnet]
  split <;> rfl

/-- The parameters of `jail(8)` that run commands on the host or reach outside the jail. -/
def foreignStarts : List Str := ["exec.", "mount.", "devfs_ruleset", "ip4.addr"]

theorem startingWith_foreign {r : CreateJailReq} {start : Str}
    (h : validateJailParameters r.parameters = .ok ()) (hstart : start ∈ foreignStarts) :
    startingWith start (createJailArgs r) = [] := by
  have hreserved : start ∈ reservedStarts :=
    List.mem_append_right (["name=", "path=", "host.hostname="] : List Str) hstart
  rw [startingWith_createJailArgs h hreserved]
  simp only [foreignStarts, List.mem_cons, List.not_mem_nil, or_false] at hstart
  rcases hstart with rfl | rfl | rfl | rfl
  all_goals
    rw [startingWith_optional rfl, startingWith_optional rfl]
    rfl

theorem mem_createJailArgs {r : CreateJailReq} (h : validateJailParameters r.parameters = .ok ())
    {arg : Str} (harg : arg ∈ createJailArgs r) :
    arg ∈ (["-c", "vnet", "persist"] : List Str) ∨
      arg ∈ [("name=" : Str) ++ r.name, ("path=" : Str) ++ r.path,
        ("host.hostname=" : Str) ++ r.hostname] ∨ Whitelisted arg := by
  simp only [createJailArgs, List.mem_append, List.mem_cons, List.not_mem_nil, or_false] at harg ⊢
  rcases harg with (((hfixed | hhost) | hvnet) | hparam) | hpersist
  · rcases hfixed with rfl | rfl | rfl
    · exact .inl (.inl rfl)
    · exact .inr (.inl (.inl rfl))
    · exact .inr (.inl (.inr (.inl rfl)))
  · split at hhost
    · exact .inr (.inl (.inr (.inr (List.mem_singleton.mp hhost))))
    · contradiction
  · split at hvnet
    · exact .inl (.inr (.inl (List.mem_singleton.mp hvnet)))
    · contradiction
  · split at hparam
    · exact .inr (.inr (whitelisted_of_validateJailParameters h arg hparam))
    · contradiction
  · exact .inl (.inr (.inr hpersist))

/-- The whole command line of an accepted request, whatever the layout of its parameters. -/
theorem create_jail_argv {host : JailHost} {r : CreateJailReq} {argv : List Str}
    (h : validateCreateJail r = .ok ()) (hrun : (handleCreateJail host r).executed = some argv) :
    ∃ args, argv = host.jailPath :: args ∧
      (validateJailName r.name = .ok () ∧
        startingWith "name=" args = [("name=" : Str) ++ r.name]) ∧
      (validateAbsolutePath r.path = .ok () ∧
        startingWith "path=" args = [("path=" : Str) ++ r.path]) ∧
      (startingWith "host.hostname=" args).length ≤ 1 ∧
      (∀ arg ∈ args, arg ∈ (["-c", "vnet", "persist"] : List Str) ∨
        arg ∈ [("name=" : Str) ++ r.name, ("path=" : Str) ++ r.path,
          ("host.hostname=" : Str) ++ r.hostname] ∨ Whitelisted arg) ∧
      ∀ start ∈ foreignStarts, startingWith start args = [] := by
  simp only [validateCreateJail, check_seq_eq_ok] at h
  obtain ⟨hname, hpath, -, hparams⟩ := h
  refine ⟨createJailArgs r, executed_handleCreateJail hrun,
    ⟨hname, startingWith_name hparams⟩, ⟨hpath, startingWith_path hparams⟩, ?_,
    fun arg harg => mem_createJailArgs hparams harg,
    fun start hstart => startingWith_foreign hparams hstart⟩
  rw [startingWith_hostname hparams]
  split
  · exact le_rfl
  · exact Nat.zero_le 1

/-- A request whose parameters are laid out with a tab and a form feed. -/
def spacedRequest : CreateJailReq :=
  ⟨"web", "/jails/web", [], true, "allow.mount=1 	 enforce_statfs=2"⟩

def plainHost : JailHost := ⟨"/usr/sbin/jail", fun _ _ => [], fun _ _ => none⟩

theorem spaced_create_jail_argv :
    ∃ args, createJailArgs spacedRequest = args ∧
      ∀ start ∈ foreignStarts, startingWith start args = [] := by
  have hvalid : validateCreateJail spacedRequest = .ok () := by decide
  have hrun : (handleCreateJail plainHost spacedRequest).executed =
      some (plainHost.jailPath :: createJailArgs spacedRequest) := rfl
  obtain ⟨args, hargv, -, -, -, -, hforeign⟩ := create_jail_argv hvalid hrun
  exact ⟨args, (List.cons.inj hargv).2, hforeign⟩

end Crate.PrivOpsHandlers
