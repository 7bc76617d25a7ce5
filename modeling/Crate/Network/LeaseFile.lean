import Crate.Foundation.Check
import Crate.Foundation.Run
import Crate.Foundation.Text

/-!
# A file of leases

The scheme that `lib/network_lease.cpp` and `lib/network_lease6.cpp` share: a
text file with one lease in a line, read and rewritten by every call under a
lock.  The address family gives the text of a line and the pool to take from.
-/

namespace Crate.LeaseFile

open Crate.Foundation

structure Lease (α : Type) where
  name : Str
  ip : α
  deriving DecidableEq, Repr

/-- How the leases of one family are written. -/
structure Format (α : Type) where
  loc : Str
  header : List Str
  parseLeaseLine : Str → Except Str (Lease α)
  formatLeaseLine : Lease α → Str

/-- Where the addresses come from; `zero` is the answer of `allocateNext` when there is none. -/
structure Pool (α : Type) where
  allocateNext : List α → α
  zero : α
  exhausted : Nat → Str

/-! ## The calls -/

section Calls

variable {α : Type} (f : Format α)

/-- The loop over the lines; the line `std::getline` does not deliver is empty and skipped. -/
def parseLines : Nat → List Str → List (Lease α) → Except Str (List (Lease α))
  | _, [], out => .ok out
  | lineNo, raw :: rest, out =>
      let line := dropCarriageReturn raw
      if line.isEmpty || line.head? = some '#' then parseLines (lineNo + 1) rest out
      else
        match f.parseLeaseLine line with
        | .error err =>
            raise f.loc ("line " ++ decimal lineNo ++ ": " ++ err ++ " (line: '" ++ line ++ "')")
        | .ok l => parseLines (lineNo + 1) rest (out ++ [l])

def parseAll (buf : Str) : Except Str (List (Lease α)) := parseLines f 1 (buf.splitOn '\n') []

/-- The content that `writeAllAtomic` puts in the place of the file. -/
def writeAll (leases : List (Lease α)) : Str :=
  f.header.flatMap (fun line => line ++ ['\n']) ++
    leases.flatMap (fun l => f.formatLeaseLine l ++ ['\n'])

variable [DecidableEq α]

def allocateFor (jail : Str) (pool : Pool α) (file : Str) : Except Str (α × Str) := do
  let leases ← parseAll f file
  match leases.find? (fun l => l.name = jail) with
  | some l => return (l.ip, file)
  | none =>
      let addr := pool.allocateNext (leases.map Lease.ip)
      if addr = pool.zero then raise f.loc (pool.exhausted leases.length)
      else return (addr, writeAll f (leases ++ [⟨jail, addr⟩]))

def releaseFor (jail : Str) (file : Str) : Except Str Str := do
  let leases ← parseAll f file
  let kept := leases.filter (fun l => l.name ≠ jail)
  if leases.any (fun l => l.name = jail) then return writeAll f kept else return file

inductive Call where
  | allocate (jail : Str)
  | release (jail : Str)

def Call.jail : Call → Str
  | .allocate jail => jail
  | .release jail => jail

end Calls

/-- The file behind a call; a call that fails leaves it as it is. -/
def step {α : Type} (allocate : Str → Str → Except Str (α × Str))
    (release : Str → Str → Except Str Str) (file : Str) : Call → Str
  | .allocate jail =>
      match allocate jail file with
      | .ok (_, file') => file'
      | .error _ => file
  | .release jail =>
      match release jail file with
      | .ok file' => file'
      | .error _ => file

/-! ## What a family has to give -/

/-- Names for which a lease is read back as it was written. -/
structure Format.Lawful {α : Type} (f : Format α) (Name : Str → Prop) : Prop where
  comment : ∀ line ∈ f.header, line.head? = some '#' ∧ '\n' ∉ line ∧ '\r' ∉ line
  read_back : ∀ l, Name l.name → f.parseLeaseLine (f.formatLeaseLine l) = .ok l
  one_line : ∀ l, Name l.name → '\n' ∉ f.formatLeaseLine l ∧ '\r' ∉ f.formatLeaseLine l
  no_comment : ∀ l, Name l.name →
    f.formatLeaseLine l ≠ [] ∧ (f.formatLeaseLine l).head? ≠ some '#'

/-- A pool gives out usable addresses that are free, and gives up when all it tries are taken. -/
structure Pool.Lawful {α : Type} (pool : Pool α) (Usable Tried : α → Prop) : Prop where
  usable : ∀ taken, pool.allocateNext taken ≠ pool.zero → Usable (pool.allocateNext taken)
  free : ∀ taken, pool.allocateNext taken ≠ pool.zero → pool.allocateNext taken ∉ taken
  full : ∀ taken, pool.allocateNext taken = pool.zero → ∀ a, Tried a → a ∈ taken

theorem Pool.lawful_of_spec {α : Type} {pool : Pool α} {Usable Tried : α → Prop}
    (h : ∀ taken, (pool.allocateNext taken = pool.zero ∧ ∀ a, Tried a → a ∈ taken) ∨
      (pool.allocateNext taken ≠ pool.zero ∧ Usable (pool.allocateNext taken) ∧
        pool.allocateNext taken ∉ taken)) : pool.Lawful Usable Tried := by
  refine ⟨fun taken hne => ?_, fun taken hne => ?_, fun taken hzero => ?_⟩
  all_goals rcases h taken with ⟨heq, hall⟩ | ⟨hfound, husable, hfree⟩
  · exact absurd heq hne
  · exact husable
  · exact absurd heq hne
  · exact hfree
  · exact hall
  · exact absurd hzero hfound

/-! ## The file is read back -/

variable {α : Type} {f : Format α} {Name : Str → Prop} {Usable Tried : α → Prop} {pool : Pool α}
  {file : Str} {leases : List (Lease α)}

theorem parseLines_comment {line : Str} (h : line.head? = some '#') (hcr : '\r' ∉ line)
    (lineNo : Nat) (rest : List Str) (out : List (Lease α)) :
    parseLines f lineNo (line :: rest) out = parseLines f (lineNo + 1) rest out := by
  rw [parseLines, dropCarriageReturn_eq_self hcr, if_pos (by simp [h])]

theorem parseLines_header (h : ∀ line ∈ f.header, line.head? = some '#' ∧ '\r' ∉ line)
    (lineNo : Nat) (rest : List Str) (out : List (Lease α)) :
    parseLines f lineNo (f.header ++ rest) out =
      parseLines f (lineNo + f.header.length) rest out := by
  generalize f.header = header at h ⊢
  induction header generalizing lineNo with
  | nil => rfl
  | cons line header ih =>
      obtain ⟨⟨hhead, hcr⟩, hrest⟩ := List.forall_mem_cons.mp h
      have hcount : lineNo + (line :: header).length = lineNo + 1 + header.length := by
        rw [List.length_cons]
        omega
      rw [List.cons_append, parseLines_comment hhead hcr, ih (lineNo + 1) hrest, hcount]

theorem parseLines_leases (hf : f.Lawful Name) (h : ∀ l ∈ leases, Name l.name) (lineNo : Nat)
    (out : List (Lease α)) :
    parseLines f lineNo (leases.map f.formatLeaseLine ++ [[]]) out = .ok (out ++ leases) := by
  induction leases generalizing lineNo out with
  | nil => simp [parseLines, dropCarriageReturn]
  | cons l leases ih =>
      obtain ⟨hl, hrest⟩ := List.forall_mem_cons.mp h
      obtain ⟨hne, hhead⟩ := hf.no_comment l hl
      have hline : ¬((f.formatLeaseLine l).isEmpty ||
          decide ((f.formatLeaseLine l).head? = some '#')) = true := by
        simp [hne, hhead]
      rw [List.map_cons, List.cons_append, parseLines,
        dropCarriageReturn_eq_self (hf.one_line l hl).2, if_neg hline, hf.read_back l hl]
      dsimp only
      rw [ih hrest, List.append_assoc]
      rfl

theorem parseAll_writeAll (hf : f.Lawful Name) (h : ∀ l ∈ leases, Name l.name) :
    parseAll f (writeAll f leases) = .ok leases := by
  have hsplit : (writeAll f leases).splitOn '\n' =
      f.header ++ (leases.map f.formatLeaseLine ++ [[]]) := by
    have hcomment := hf.comment
    unfold writeAll
    generalize f.header = header at hcomment ⊢
    induction header with
    | nil =>
        exact splitOn_flatMap_snoc f.formatLeaseLine leases
          (fun l hl => (hf.one_line l (h l hl)).1)
    | cons line header ih =>
        obtain ⟨⟨-, hnl, -⟩, hrest⟩ := List.forall_mem_cons.mp hcomment
        rw [List.flatMap_cons, List.append_assoc, List.append_assoc, List.singleton_append,
          List.splitOn_append_cons_self_of_not_mem hnl, ih hrest]
        rfl
  rw [parseAll, hsplit, parseLines_header (fun line hline =>
    ⟨(hf.comment line hline).1, (hf.comment line hline).2.2⟩), parseLines_leases hf h]
  rfl

theorem parseAll_nil : parseAll f [] = .ok [] := by
  simp [parseAll, parseLines, dropCarriageReturn]

/-! ## What every call keeps -/

/-- The file holds the leases, as the calls have written them. -/
structure Holds (f : Format α) (Name : Str → Prop) (Usable : α → Prop) (file : Str)
    (leases : List (Lease α)) : Prop where
  written : file = [] ∧ leases = [] ∨ file = writeAll f leases
  valid : ∀ l ∈ leases, Name l.name
  names : (leases.map Lease.name).Nodup
  addresses : (leases.map Lease.ip).Nodup
  usable : ∀ l ∈ leases, Usable l.ip

theorem holds_nil : Holds f Name Usable [] [] :=
  ⟨.inl ⟨rfl, rfl⟩, List.forall_mem_nil _, List.nodup_nil, List.nodup_nil, List.forall_mem_nil _⟩

theorem Holds.parseAll_eq (hf : f.Lawful Name) (h : Holds f Name Usable file leases) :
    parseAll f file = .ok leases := by
  rcases h.written with ⟨rfl, rfl⟩ | rfl
  · exact parseAll_nil
  · exact parseAll_writeAll hf h.valid

theorem Holds.add (h : Holds f Name Usable file leases) {jail : Str} (hname : Name jail)
    (hnew : ∀ l ∈ leases, l.name ≠ jail) {a : α} (ha : Usable a)
    (hfree : a ∉ leases.map Lease.ip) :
    Holds f Name Usable (writeAll f (leases ++ [⟨jail, a⟩])) (leases ++ [⟨jail, a⟩]) := by
  refine ⟨.inr rfl, ?_, ?_, ?_, ?_⟩
  · exact List.forall_mem_append.mpr ⟨h.valid, List.forall_mem_singleton.mpr hname⟩
  · rw [List.map_append, List.nodup_append]
    refine ⟨h.names, List.nodup_singleton _, ?_⟩
    intro n hn m hm hsame
    obtain ⟨l, hl, rfl⟩ := List.mem_map.mp hn
    exact hnew l hl (hsame.trans (List.mem_singleton.mp hm))
  · rw [List.map_append, List.nodup_append]
    refine ⟨h.addresses, List.nodup_singleton _, ?_⟩
    intro b hb c hc hsame
    have ha : b = a := hsame.trans (List.mem_singleton.mp hc)
    exact hfree (ha ▸ hb)
  · exact List.forall_mem_append.mpr ⟨h.usable, List.forall_mem_singleton.mpr ha⟩

theorem Holds.filter (h : Holds f Name Usable file leases) (p : Lease α → Bool) :
    Holds f Name Usable (writeAll f (leases.filter p)) (leases.filter p) := by
  refine ⟨.inr rfl, ?_, ?_, ?_, ?_⟩
  · exact fun l hl => h.valid l (List.mem_of_mem_filter hl)
  · exact h.names.sublist (List.filter_sublist.map _)
  · exact h.addresses.sublist (List.filter_sublist.map _)
  · exact fun l hl => h.usable l (List.mem_of_mem_filter hl)

variable [DecidableEq α]

/-- An allocation from the leases that the file holds. -/
theorem Holds.allocateFor_eq (hf : f.Lawful Name) (h : Holds f Name Usable file leases)
    (jail : Str) : allocateFor f jail pool file =
      match leases.find? (fun l => l.name = jail) with
      | some l => .ok (l.ip, file)
      | none =>
          let addr := pool.allocateNext (leases.map Lease.ip)
          if addr = pool.zero then raise f.loc (pool.exhausted leases.length)
          else .ok (addr, writeAll f (leases ++ [⟨jail, addr⟩])) := by
  rw [allocateFor, h.parseAll_eq hf]
  rfl

/-- An allocation that succeeds answers with the lease of the jail, which is in the file behind it;
the leases of the other jails are as they were. -/
theorem Holds.allocateFor_ok (hf : f.Lawful Name) (hpool : pool.Lawful Usable Tried)
    (h : Holds f Name Usable file leases) {jail file' : Str} {addr : α} (hname : Name jail)
    (hok : allocateFor f jail pool file = .ok (addr, file')) :
    ∃ leases', Holds f Name Usable file' leases' ∧ ⟨jail, addr⟩ ∈ leases' ∧
      leases'.filter (fun l => l.name ≠ jail) = leases.filter (fun l => l.name ≠ jail) := by
  rw [h.allocateFor_eq hf] at hok
  cases hfind : leases.find? (fun l => l.name = jail) with
  | some l =>
      rw [hfind] at hok
      obtain ⟨rfl, rfl⟩ := Prod.mk.inj (Except.ok.inj hok)
      have hjail : l.name = jail := by simpa using List.find?_some hfind
      subst hjail
      exact ⟨leases, h, List.mem_of_find?_eq_some hfind, rfl⟩
  | none =>
      rw [hfind] at hok
      dsimp only at hok
      split at hok
      · contradiction
      · rename_i hfound
        obtain ⟨rfl, rfl⟩ := Prod.mk.inj (Except.ok.inj hok)
        have hnew : ∀ l ∈ leases, l.name ≠ jail := by
          intro l hl
          simpa using List.find?_eq_none.mp hfind l hl
        refine ⟨_, h.add hname hnew (hpool.usable _ hfound) (hpool.free _ hfound), by simp, ?_⟩
        rw [List.filter_append, List.filter_cons_of_neg (by simp), List.filter_nil, List.append_nil]

omit [DecidableEq α] in
/-- A release takes the lease of the jail out of the file, and no other. -/
theorem Holds.releaseFor_ok (hf : f.Lawful Name) (h : Holds f Name Usable file leases)
    (jail : Str) :
    ∃ file', releaseFor f jail file = .ok file' ∧
      Holds f Name Usable file' (leases.filter (fun l => l.name ≠ jail)) := by
  rw [releaseFor, h.parseAll_eq hf]
  dsimp only [bind, Except.bind]
  split
  · exact ⟨_, rfl, h.filter _⟩
  · rename_i hnone
    have hkept : leases.filter (fun l => l.name ≠ jail) = leases := by
      rw [List.filter_eq_self]
      intro l hl
      simp only [Bool.not_eq_true, List.any_eq_false, decide_eq_true_eq] at hnone
      exact decide_eq_true (hnone l hl)
    exact ⟨_, rfl, hkept.symm ▸ h⟩

theorem Holds.step (hf : f.Lawful Name) (hpool : pool.Lawful Usable Tried)
    (h : Holds f Name Usable file leases) (call : Call) (hname : Name call.jail) :
    ∃ leases', Holds f Name Usable
      (step (fun jail => allocateFor f jail pool) (releaseFor f) file call) leases' := by
  cases call with
  | allocate jail =>
      rw [LeaseFile.step]
      cases hrun : allocateFor f jail pool file with
      | ok answer =>
          obtain ⟨leases', h', -⟩ := h.allocateFor_ok hf hpool hname hrun
          exact ⟨leases', h'⟩
      | error e => exact ⟨leases, h⟩
  | release jail =>
      obtain ⟨file', hrun, h'⟩ := h.releaseFor_ok hf jail
      rw [LeaseFile.step, hrun]
      exact ⟨_, h'⟩

/-! ## Runs -/

/-- What holds of the file behind any run, and what the next call makes of it. -/
structure Sound (f : Format α) (allocate : Str → Str → Except Str (α × Str))
    (release : Str → Str → Except Str Str) (Name : Str → Prop) (Usable Tried : α → Prop)
    (file : Str) (leases : List (Lease α)) : Prop extends Holds f Name Usable file leases where
  parses : parseAll f file = .ok leases
  same_again : ∀ l ∈ leases, allocate l.name file = .ok (l.ip, file)
  fails_when_full : ∀ jail e, allocate jail file = .error e →
    ∀ a, Tried a → ∃ l ∈ leases, l.ip = a
  recorded : ∀ jail addr file', Name jail → allocate jail file = .ok (addr, file') →
    ∃ leases', parseAll f file' = .ok leases' ∧ ⟨jail, addr⟩ ∈ leases' ∧
      leases'.filter (fun l => l.name ≠ jail) = leases.filter (fun l => l.name ≠ jail)
  released : ∀ jail, ∃ file', release jail file = .ok file' ∧
    parseAll f file' = .ok (leases.filter (fun l => l.name ≠ jail))

theorem Holds.sound (hf : f.Lawful Name) (hpool : pool.Lawful Usable Tried)
    (h : Holds f Name Usable file leases) :
    Sound f (fun jail => allocateFor f jail pool) (releaseFor f) Name Usable Tried file
      leases := by
  refine ⟨h, h.parseAll_eq hf, ?_, ?_, ?_, ?_⟩
  · intro l hl
    rw [h.allocateFor_eq hf]
    cases hfind : leases.find? (fun l' => l'.name = l.name) with
    | none => exact absurd (List.find?_eq_none.mp hfind l hl) (by simp)
    | some l' =>
        have hname : l'.name = l.name := by simpa using List.find?_some hfind
        have hsame := List.inj_on_of_nodup_map h.names (List.mem_of_find?_eq_some hfind) hl hname
        rw [hsame]
  · intro jail e herror a ha
    rw [h.allocateFor_eq hf] at herror
    cases hfind : leases.find? (fun l => l.name = jail) with
    | some l =>
        rw [hfind] at herror
        contradiction
    | none =>
        rw [hfind] at herror
        dsimp only at herror
        split at herror
        · rename_i hzero
          exact List.mem_map.mp (hpool.full _ hzero a ha)
        · contradiction
  · intro jail addr file' hname hok
    obtain ⟨leases', h', hmem, hothers⟩ := h.allocateFor_ok hf hpool hname hok
    exact ⟨leases', h'.parseAll_eq hf, hmem, hothers⟩
  · intro jail
    obtain ⟨file', hrun, h'⟩ := h.releaseFor_ok hf jail
    exact ⟨file', hrun, h'.parseAll_eq hf⟩

/-- From an empty file on, every run of calls with valid names leaves a sound file. -/
theorem run_sound (hf : f.Lawful Name) (hpool : pool.Lawful Usable Tried) (calls : List Call)
    (hnames : ∀ call ∈ calls, Name call.jail) :
    ∃ leases, Sound f (fun jail => allocateFor f jail pool) (releaseFor f) Name Usable Tried
      (run (step (fun jail => allocateFor f jail pool) (releaseFor f)) [] calls) leases := by
  have hstep : ∀ file call, (∃ leases, Holds f Name Usable file leases) → Name (Call.jail call) →
      ∃ leases, Holds f Name Usable
        (step (fun jail => allocateFor f jail pool) (releaseFor f) file call) leases := by
    rintro file call ⟨leases, h⟩ hname
    exact h.step hf hpool call hname
  have hgood : ∃ leases, Holds f Name Usable
      (run (step (fun jail => allocateFor f jail pool) (releaseFor f)) [] calls) leases :=
    forall_prefix_good hstep ⟨[], holds_nil⟩ (stepsMeet_const_iff.mpr hnames)
      (List.prefix_refl calls)
  obtain ⟨leases, h⟩ := hgood
  exact ⟨leases, h.sound hf hpool⟩

end Crate.LeaseFile
