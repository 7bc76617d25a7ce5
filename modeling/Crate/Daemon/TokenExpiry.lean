import Crate.Daemon.Expiry
import Crate.Foundation.Outcome

/-!
# What the configuration of a token allows

`Config::load` turns each entry of `auth.tokens` into an `AuthToken`, with zero
for an entry that never expires, and `checkBearerAuthFull` decides about a
request.  The decision is what the entry says, except for an entry that expires
with the epoch itself, one that names a day which does not exist, and an empty
path that is a pattern of the scope.
-/

namespace Crate.Crated

open Crate.Foundation
open Crate.AuthPure (parseIso8601Utc)

/-! ## The source -/

/-- An entry of `auth.tokens`, as its texts. -/
structure TokenEntry where
  name : Str
  token_hash : Str
  role : Option Str := none
  expires_at : Option Str := none
  scope : List Str := []
  pools : List Str := []

/-- `at.expiresAt`; zero is never. -/
def loadExpiry (name : Str) : Option Str → Except Str Int
  | none => .ok 0
  | some raw =>
      let parsed := parseIso8601Utc raw
      if parsed < 0 then
        .error ("auth.tokens[" ++ name ++ "].expires_at is not a valid ISO 8601 UTC timestamp: '" ++
          raw ++ "'")
      else .ok parsed

/-- The part of `Config::load` for one token. -/
def loadToken (t : TokenEntry) : Except Str AuthToken := do
  let role := t.role.getD "viewer"
  reject (role ≠ "admin" ∧ role ≠ "viewer")
    ("auth.tokens[" ++ t.name ++ "].role must be 'admin' or 'viewer', got '" ++ role ++ "'")
  let expiresAt ← loadExpiry t.name t.expires_at
  return {
    name := t.name, tokenHash := t.token_hash,
    role := if role = "admin" then .admin else .viewer,
    expiresAt := expiresAt, scope := t.scope, pools := t.pools }

def loadTokens (entries : List TokenEntry) : Except Str (List AuthToken) := entries.mapM loadToken

/-! ## The meaning of an entry -/

def TokenEntry.roleOf (e : TokenEntry) : Role :=
  if e.role.getD "viewer" = "admin" then .admin else .viewer

/-- The request carries the token that the entry was made for. -/
def TokenEntry.Presented (e : TokenEntry) (sha256 : Str → Str) (header : Str) : Prop :=
  ∃ token ≠ [], header = ("Bearer " : Str) ++ token ∧ e.token_hash = sha256 token

def Sufficient (role required : Role) : Prop := required = .viewer ∨ role = .admin

/-- The path is the pattern, or lies strictly below a pattern that ends in a star. -/
def Covers (pattern path : Str) : Prop :=
  path = pattern ∨ ∃ root rest, pattern = root ++ ("/*" : Str) ∧ path = root ++ '/' :: rest ∧ rest ≠ []

def InScope (scope : List Str) (path : Str) : Prop :=
  scope = [] ∨ ∃ pattern ∈ scope, Covers pattern path

/-- It is not later than the instant that `expires_at` denotes. -/
def TokenEntry.Unexpired (e : TokenEntry) (now : Int) : Prop :=
  ∀ text ∈ e.expires_at, ∃ t, AuthPure.Denotes text t ∧ now ≤ t

def Authorised (entries : List TokenEntry) (sha256 : Str → Str) (header : Str) (required : Role)
    (path : Str) (now : Int) : Prop :=
  ∃ e ∈ entries, e.Presented sha256 header ∧ Sufficient e.roleOf required ∧ InScope e.scope path ∧
    e.Unexpired now

/-! ## The loaded tokens -/

/-- The token that is loaded for an entry. -/
def TokenEntry.token (e : TokenEntry) : AuthToken where
  name := e.name
  tokenHash := e.token_hash
  role := e.roleOf
  expiresAt := (e.expires_at.map parseIso8601Utc).getD 0
  scope := e.scope
  pools := e.pools

theorem loadExpiry_eq_ok {name : Str} {expires : Option Str} {t : Int}
    (h : loadExpiry name expires = .ok t) :
    (∀ text ∈ expires, 0 ≤ parseIso8601Utc text) ∧ t = (expires.map parseIso8601Utc).getD 0 := by
  cases expires with
  | none =>
      cases h
      exact ⟨fun _ hnone => (Option.not_mem_none _ hnone).elim, rfl⟩
  | some raw =>
      rw [loadExpiry] at h
      split at h
      · contradiction
      · rename_i hpos
        cases h
        exact ⟨fun _ hsome => (Option.mem_some.mp hsome) ▸ not_lt.mp hpos, rfl⟩

theorem loadToken_eq_ok {e : TokenEntry} {t : AuthToken} (h : loadToken e = .ok t) :
    (∀ text ∈ e.expires_at, 0 ≤ parseIso8601Utc text) ∧ t = e.token := by
  obtain ⟨-, h⟩ := reject_bind_eq_ok.mp h
  obtain ⟨expiresAt, hexpires, ht⟩ := bind_eq_ok.mp h
  obtain ⟨hpos, rfl⟩ := loadExpiry_eq_ok hexpires
  exact ⟨hpos, (Except.ok.inj ht).symm⟩

theorem parseBearerToken_eq_iff {header token : Str} (hne : token ≠ []) :
    AuthPure.parseBearerToken header = token ↔ header = ("Bearer " : Str) ++ token := by
  unfold AuthPure.parseBearerToken
  dsimp only
  constructor
  · intro h
    split at h
    · exact absurd h.symm hne
    · rename_i hscheme
      rw [Bool.or_eq_true, not_or, decide_eq_true_eq, Bool.not_eq_true', Bool.not_eq_false,
        List.isPrefixOf_iff_prefix] at hscheme
      rw [← h]
      exact (List.prefix_iff_eq_append.mp hscheme.2).symm
  · rintro rfl
    have hpos := List.length_pos_of_ne_nil hne
    rw [if_neg, List.drop_left]
    rw [Bool.or_eq_true, not_or, decide_eq_true_eq, Bool.not_eq_true', Bool.not_eq_false,
      List.isPrefixOf_iff_prefix, List.length_append]
    exact ⟨by omega, List.prefix_append _ _⟩

theorem sufficient_iff {role required : Role} :
    (required = .viewer || role = required || role = .admin) = true ↔ Sufficient role required := by
  cases role <;> cases required <;> simp [Sufficient]

section Loaded

variable {entries : List TokenEntry} {tokens : List AuthToken}
variable (hload : loadTokens entries = .ok tokens)
include hload

theorem expires_of_loaded {e : TokenEntry} (he : e ∈ entries) :
    ∀ text ∈ e.expires_at, 0 ≤ parseIso8601Utc text := by
  obtain ⟨t, ht⟩ := exists_ok_of_mapM_eq_ok hload he
  exact (loadToken_eq_ok ht).1

theorem mem_loaded_iff {t : AuthToken} : t ∈ tokens ↔ ∃ e ∈ entries, t = e.token := by
  rw [mem_of_mapM_eq_ok hload]
  constructor
  · rintro ⟨e, he, ht⟩
    exact ⟨e, he, (loadToken_eq_ok ht).2⟩
  · rintro ⟨e, he, rfl⟩
    obtain ⟨t, ht⟩ := exists_ok_of_mapM_eq_ok hload he
    exact ⟨e, he, (loadToken_eq_ok ht).2 ▸ ht⟩

/-- The decision, entry by entry. -/
theorem checkBearerAuthFull_iff (hdistinct : (entries.map TokenEntry.token_hash).Nodup)
    (sha256 : Str → Str) (header : Str) (required : Role) (path : Str) (now : Int) :
    AuthPure.checkBearerAuthFull header tokens required path now sha256 = true ↔
      ∃ e ∈ entries, e.Presented sha256 header ∧ Sufficient e.roleOf required ∧
        AuthPure.pathInScope e.scope path = true ∧ AuthPure.isExpired e.token now = false := by
  unfold AuthPure.checkBearerAuthFull
  dsimp only
  cases hbearer : AuthPure.parseBearerToken header with
  | nil =>
      refine iff_of_false (by simp) ?_
      rintro ⟨e, -, ⟨token, hne, hheader, -⟩, -⟩
      rw [(parseBearerToken_eq_iff hne).mpr hheader] at hbearer
      exact hne hbearer
  | cons c rest =>
      have hheader := (parseBearerToken_eq_iff (List.cons_ne_nil c rest)).mp hbearer
      rw [if_neg (by simp)]
      constructor
      · intro h
        split at h
        · contradiction
        · rename_i t hfind
          obtain ⟨e, he, rfl⟩ := (mem_loaded_iff hload).mp (List.mem_of_find?_eq_some hfind)
          have hhash := List.find?_some hfind
          rw [decide_eq_true_eq] at hhash
          rw [Bool.and_eq_true, Bool.and_eq_true, Bool.not_eq_true'] at h
          exact ⟨e, he, ⟨c :: rest, List.cons_ne_nil _ _, hheader, hhash⟩, sufficient_iff.mp h.2,
            h.1.2, h.1.1⟩
      · rintro ⟨e, he, ⟨token, hne, hheader', hhash⟩, hrole, hscope, hexpired⟩
        obtain rfl : token = c :: rest :=
          ((parseBearerToken_eq_iff hne).mpr hheader').symm.trans hbearer
        have hfind : tokens.find? (fun t => t.tokenHash = sha256 (c :: rest)) = some e.token := by
          cases hfound : tokens.find? (fun t => t.tokenHash = sha256 (c :: rest)) with
          | none =>
              have hmem := (mem_loaded_iff hload).mpr ⟨e, he, rfl⟩
              exact absurd (decide_eq_true hhash) (List.find?_eq_none.mp hfound _ hmem)
          | some t =>
              obtain ⟨e', he', rfl⟩ := (mem_loaded_iff hload).mp (List.mem_of_find?_eq_some hfound)
              have hhash' := List.find?_some hfound
              rw [decide_eq_true_eq] at hhash'
              rw [List.inj_on_of_nodup_map hdistinct he' he (hhash'.trans hhash.symm)]
        rw [hfind]
        dsimp only
        rw [hexpired, Bool.not_false, Bool.true_and, Bool.and_eq_true]
        exact ⟨hscope, sufficient_iff.mpr hrole⟩

end Loaded

/-! ## Scope and expiry -/

theorem patternMatches_iff {path pattern : Str} :
    AuthPure.patternMatches path pattern = true ↔ pattern ≠ [] ∧ Covers pattern path := by
  unfold AuthPure.patternMatches
  cases hempty : pattern.isEmpty with
  | true => simp [List.isEmpty_iff.mp hempty]
  | false =>
      have hne : pattern ≠ [] := by simpa using hempty
      rw [if_neg Bool.false_ne_true]
      by_cases hstar : ("/*" : Str) <:+ pattern
      · obtain ⟨root, rfl⟩ := hstar
        have hdrop : (root ++ ("/*" : Str)).dropLast = root ++ ['/'] := by
          rw [show (root ++ ("/*" : Str)) = root ++ ['/'] ++ ['*'] by simp, List.dropLast_concat]
        rw [if_pos (List.isSuffixOf_iff_suffix.mpr (List.suffix_append _ _))]
        dsimp only
        rw [hdrop, Bool.and_eq_true, decide_eq_true_eq, List.isPrefixOf_iff_prefix]
        constructor
        · rintro ⟨hlong, rest, rfl⟩
          refine ⟨hne, .inr ⟨root, rest, rfl, by simp, ?_⟩⟩
          rintro rfl
          simp at hlong
        · rintro ⟨-, rfl | ⟨other, rest, hroot, rfl, hrest⟩⟩
          · exact ⟨by simp, ⟨['*'], by simp⟩⟩
          · obtain rfl := List.append_cancel_right hroot
            have hpos := List.length_pos_of_ne_nil hrest
            refine ⟨?_, ⟨rest, by simp⟩⟩
            rw [List.length_append, List.length_append, List.length_cons, List.length_singleton]
            omega
      · rw [if_neg (fun h => hstar (List.isSuffixOf_iff_suffix.mp h)), decide_eq_true_eq]
        constructor
        · exact fun h => ⟨hne, .inl h⟩
        · rintro ⟨-, h | ⟨root, rest, rfl, -⟩⟩
          · exact h
          · exact absurd (List.suffix_append _ _) hstar

theorem covers_nil_iff {path : Str} : Covers [] path ↔ path = [] := by
  constructor
  · rintro (h | ⟨root, rest, hroot, -⟩)
    · exact h
    · simp at hroot
  · exact .inl

theorem inScope_iff {scope : List Str} {path : Str} :
    InScope scope path ↔ AuthPure.pathInScope scope path = true ∨ path = [] ∧ [] ∈ scope := by
  simp only [InScope, AuthPure.pathInScope, Bool.or_eq_true, List.isEmpty_iff, List.any_eq_true,
    patternMatches_iff, or_assoc]
  apply or_congr_right
  constructor
  · rintro ⟨pattern, hmem, hcovers⟩
    by_cases hne : pattern = []
    · subst hne
      exact .inr ⟨covers_nil_iff.mp hcovers, hmem⟩
    · exact .inl ⟨pattern, hmem, hne, hcovers⟩
  · rintro (⟨pattern, hmem, -, hcovers⟩ | ⟨rfl, hmem⟩)
    · exact ⟨pattern, hmem, hcovers⟩
    · exact ⟨[], hmem, .inl rfl⟩

/-- Only an empty path is in a scope without being let through. -/
theorem not_pathInScope_nil {scope : List Str} (hmem : [] ∈ scope) :
    AuthPure.pathInScope scope [] = false := by
  rw [AuthPure.pathInScope, Bool.or_eq_false_iff]
  refine ⟨by cases scope <;> simp_all, ?_⟩
  rw [List.any_eq_false]
  intro pattern _ hmatch
  obtain ⟨hne, hcovers⟩ := patternMatches_iff.mp hmatch
  rcases hcovers with h | ⟨root, rest, -, h, -⟩
  · exact hne h.symm
  · simp at h

/-- The numbers of the text are those of a day and a second that exist. -/
def NamesInstant (text : Str) : Prop :=
  ∀ (n : AuthPure.Stamp) (zone : Str), n.Fits → text = n.text ++ zone → n.Real

theorem accepted_text {text : Str} (h : 0 ≤ parseIso8601Utc text) :
    ∃ (n : AuthPure.Stamp) (zone : Str), n.Fits ∧ n.InRange ∧ zone ∈ AuthPure.zones ∧
      text = n.text ++ zone ∧ parseIso8601Utc text = n.seconds := by
  obtain ⟨n, hfits, zone, hne, rfl⟩ := AuthPure.exists_text (s := text) (by omega)
  rw [AuthPure.parseIso8601Utc_text hfits hne] at h ⊢
  split_ifs at h ⊢ with hread
  · exact ⟨n, zone, hfits, hread.1, hread.2, rfl, rfl⟩
  · omega

theorem exists_denotes_iff {text : Str} (h : 0 ≤ parseIso8601Utc text) :
    (∃ t, AuthPure.Denotes text t) ↔ NamesInstant text := by
  obtain ⟨n, zone, hfits, hrange, hzone, rfl, -⟩ := accepted_text h
  simp only [AuthPure.denotes_text_iff hfits hrange hzone, exists_and_left, exists_eq, and_true]
  constructor
  · intro hreal m zone' hfits' htext
    have hcut := (List.append_inj htext
      (by rw [AuthPure.length_text hfits, AuthPure.length_text hfits'])).1
    rwa [← AuthPure.text_injective hfits hfits' hcut]
  · intro hnames
    exact hnames n zone hfits rfl

theorem denotes_iff_of_accepted {text : Str} (h : 0 ≤ parseIso8601Utc text)
    (hnames : NamesInstant text) {t : Int} :
    AuthPure.Denotes text t ↔ t = parseIso8601Utc text := by
  obtain ⟨n, zone, hfits, hrange, hzone, rfl, hseconds⟩ := accepted_text h
  rw [AuthPure.denotes_text_iff hfits hrange hzone, hseconds]
  exact and_iff_right (hnames n zone hfits rfl)

/-- The code lets a token that expires with the epoch live for ever. -/
theorem isExpired_eq_false_iff {e : TokenEntry}
    (haccepted : ∀ text ∈ e.expires_at, 0 ≤ parseIso8601Utc text)
    (hnames : ∀ text ∈ e.expires_at, NamesInstant text) (now : Int) :
    AuthPure.isExpired e.token now = false ↔
      e.Unexpired now ∨ 0 < now ∧ ∃ text ∈ e.expires_at, AuthPure.Denotes text 0 := by
  cases hexpires : e.expires_at with
  | none => simp [AuthPure.isExpired, TokenEntry.token, TokenEntry.Unexpired, hexpires]
  | some text =>
      have hpos := haccepted text hexpires
      have hdenotes := fun t => denotes_iff_of_accepted (t := t) hpos (hnames text hexpires)
      simp only [AuthPure.isExpired, TokenEntry.token, TokenEntry.Unexpired, hexpires, Option.map_some,
        Option.getD_some, Option.mem_def, Option.some.injEq, forall_eq', exists_eq_left', hdenotes,
        exists_eq_left, Bool.and_eq_false_iff, decide_eq_false_iff_not, not_not]
      omega

/-! ## The decision -/

/-- The two places where the decision and the entry can part. -/
theorem agree_iff {role scopeCode scope aliveCode alive epoch emptyPath : Prop}
    (halive : aliveCode ↔ alive ∨ epoch) (hscope : scope ↔ scopeCode ∨ emptyPath)
    (hepoch : epoch → ¬alive) (hempty : emptyPath → ¬scopeCode) :
    ((role ∧ scopeCode ∧ aliveCode ↔ role ∧ scope ∧ alive) ↔
      (role → (epoch → scope → emptyPath) ∧ (emptyPath → ¬alive))) := by
  rw [halive, hscope]
  by_cases hE : epoch
  · have hdead := hepoch hE
    by_cases hP : emptyPath
    · simp [hE, hP, hdead, hempty hP]
    · simp [hE, hP, hdead]
  · by_cases hP : emptyPath
    · simp [hE, hP, hempty hP]
    · simp [hE, hP]

/-- Exactly when every loaded timestamp names an instant, the entry that is presented does not expire
with the epoch, and an empty path is no pattern of its scope. -/
theorem decision_is_configured_iff {entries : List TokenEntry} {tokens : List AuthToken}
    (hload : loadTokens entries = .ok tokens)
    (hdistinct : (entries.map TokenEntry.token_hash).Nodup) (sha256 : Str → Str) (header : Str)
    (required : Role) (path : Str) (now : Int) :
    ((AuthPure.checkBearerAuthFull header tokens required path now sha256 = true ↔
        Authorised entries sha256 header required path now) ∧
      ∀ e ∈ entries, ∀ text ∈ e.expires_at, ∃ t, AuthPure.Denotes text t) ↔
    (∀ e ∈ entries, ∀ text ∈ e.expires_at, NamesInstant text) ∧
      ∀ e ∈ entries, e.Presented sha256 header → Sufficient e.roleOf required →
        ((0 < now ∧ ∃ text ∈ e.expires_at, AuthPure.Denotes text 0) → InScope e.scope path →
          path = [] ∧ [] ∈ e.scope) ∧
        (path = [] ∧ [] ∈ e.scope → ¬e.Unexpired now) := by
  have haccepted := fun e (he : e ∈ entries) => expires_of_loaded hload he
  have htexts : (∀ e ∈ entries, ∀ text ∈ e.expires_at, ∃ t, AuthPure.Denotes text t) ↔
      ∀ e ∈ entries, ∀ text ∈ e.expires_at, NamesInstant text :=
    forall₂_congr fun e he => forall₂_congr fun text htext =>
      exists_denotes_iff (haccepted e he text htext)
  rw [htexts, and_comm]
  refine and_congr_right fun hnames => ?_
  rw [checkBearerAuthFull_iff hload hdistinct, Authorised]
  by_cases hnone : ∃ e ∈ entries, e.Presented sha256 header
  · obtain ⟨e, he, hpresented⟩ := hnone
    have honly : ∀ e' ∈ entries, e'.Presented sha256 header → e' = e := by
      intro e' he' hpresented'
      obtain ⟨token, -, hheader, hhash⟩ := hpresented
      obtain ⟨token', -, hheader', hhash'⟩ := hpresented'
      obtain rfl := List.append_cancel_left (hheader'.symm.trans hheader)
      exact List.inj_on_of_nodup_map hdistinct he' he (hhash'.trans hhash.symm)
    have hone : ∀ Q : TokenEntry → Prop,
        (∃ e' ∈ entries, e'.Presented sha256 header ∧ Q e') ↔ Q e := by
      intro Q
      constructor
      · rintro ⟨e', he', hpresented', hQ⟩
        rwa [← honly e' he' hpresented']
      · exact fun hQ => ⟨e, he, hpresented, hQ⟩
    have hall : ∀ Q : TokenEntry → Prop,
        (∀ e' ∈ entries, e'.Presented sha256 header → Q e') ↔ Q e := by
      intro Q
      constructor
      · exact fun h => h e he hpresented
      · intro hQ e' he' hpresented'
        rwa [honly e' he' hpresented']
    rw [hone, hone, hall]
    have hexpired := isExpired_eq_false_iff (haccepted e he) (hnames e he) now
    have hscope := @inScope_iff e.scope path
    have hepoch : (0 < now ∧ ∃ text ∈ e.expires_at, AuthPure.Denotes text 0) →
        ¬e.Unexpired now := by
      rintro ⟨hnow, text, htext, hzero⟩ hlive
      obtain ⟨t, ht, hle⟩ := hlive text htext
      have hdenotes := fun {t} =>
        denotes_iff_of_accepted (t := t) (haccepted e he text htext) (hnames e he text htext)
      rw [hdenotes] at hzero ht
      omega
    have hempty : path = [] ∧ [] ∈ e.scope → ¬AuthPure.pathInScope e.scope path = true := by
      rintro ⟨rfl, hmem⟩
      simp [not_pathInScope_nil hmem]
    exact agree_iff hexpired hscope hepoch hempty
  · refine iff_of_true (iff_of_false ?_ ?_) ?_
    · rintro ⟨e, he, hpresented, -⟩
      exact hnone ⟨e, he, hpresented⟩
    · rintro ⟨e, he, hpresented, -⟩
      exact hnone ⟨e, he, hpresented⟩
    · intro e he hpresented
      exact absurd ⟨e, he, hpresented⟩ hnone

/-- A token for `admin` with the given expiry. -/
def opsEntry (expires : String) : TokenEntry :=
  { name := "ops".toList, token_hash := "abc".toList, role := some "admin".toList
    expires_at := some expires.toList }

theorem namesInstant_of_real {text zone : Str} {n : AuthPure.Stamp} (hfits : n.Fits) (hreal : n.Real)
    (htext : text = n.text ++ zone) : NamesInstant text := by
  intro m zone' hfits' htext'
  have hcut := (List.append_inj (htext.symm.trans htext')
    (by rw [AuthPure.length_text hfits, AuthPure.length_text hfits'])).1
  rwa [← AuthPure.text_injective hfits hfits' hcut]

theorem loadTokens_opsEntry {expires : String} {t : Int}
    (hparse : parseIso8601Utc expires.toList = t) (hpos : 0 ≤ t) :
    loadTokens [opsEntry expires] = .ok [(opsEntry expires).token] := by
  have hexpiry : loadExpiry "ops" (some expires.toList) = .ok (parseIso8601Utc expires.toList) := by
    rw [loadExpiry]
    exact if_neg (by omega)
  have hload : loadToken (opsEntry expires) = .ok (opsEntry expires).token := by
    rw [loadToken]
    change (loadExpiry "ops" (some expires.toList) >>= _) = _
    rw [hexpiry]
    rfl
  rw [loadTokens, List.mapM_cons, hload]
  rfl

/-- The token is good in the second in which it expires. -/
theorem decision_is_configured_ops :
    Authorised [opsEntry "2026-01-01T00:00:00Z"] (fun _ => "abc".toList) "Bearer ops" .admin
      "/api/v1/host" 1767225600 := by
  have hparse : parseIso8601Utc "2026-01-01T00:00:00Z" = 1767225600 := by decide
  have hnames : NamesInstant "2026-01-01T00:00:00Z" :=
    @namesInstant_of_real _ "Z" ⟨2026, 1, 1, 0, 0, 0⟩
      ⟨by decide, by decide, by decide, by decide, by decide, by decide⟩
      ⟨by decide, by decide⟩ (by decide)
  have hdecision := decision_is_configured_iff (loadTokens_opsEntry hparse (by decide)) (by simp)
    (fun _ => "abc".toList) "Bearer ops" .admin "/api/v1/host" 1767225600
  refine (hdecision.mpr ⟨?_, ?_⟩).1.mp (by decide)
  · intro e he text htext
    obtain rfl := List.mem_singleton.mp he
    cases htext
    exact hnames
  · intro e he _ _
    obtain rfl := List.mem_singleton.mp he
    refine ⟨?_, fun h => absurd h.1 (by decide)⟩
    rintro ⟨-, text, htext, hzero⟩
    cases htext
    have h0 := (denotes_iff_of_accepted (by rw [hparse]; decide) hnames).mp hzero
    rw [hparse] at h0
    cases h0

/-- Expired by its text since 1970, but accepted; and a text that is loaded and names no day. -/
theorem epoch_never_expires :
    loadTokens [opsEntry "1970-01-01T00:00:00Z"] = .ok [(opsEntry "1970-01-01T00:00:00Z").token] ∧
      AuthPure.checkBearerAuthFull "Bearer ops" [(opsEntry "1970-01-01T00:00:00Z").token] .admin
        "/api/v1/host" 1800000000 (fun _ => "abc".toList) = true ∧
      ¬Authorised [opsEntry "1970-01-01T00:00:00Z"] (fun _ => "abc".toList) "Bearer ops" .admin
        "/api/v1/host" 1800000000 ∧
      loadTokens [opsEntry "2026-02-30T00:00:00Z"] = .ok [(opsEntry "2026-02-30T00:00:00Z").token] ∧
      ¬∃ t, AuthPure.Denotes "2026-02-30T00:00:00Z" t := by
  have hepoch : parseIso8601Utc "1970-01-01T00:00:00Z" = 0 := by decide
  have hfebruary : parseIso8601Utc "2026-02-30T00:00:00Z" = 1772409600 := by decide
  refine ⟨loadTokens_opsEntry hepoch le_rfl, by decide, ?_, loadTokens_opsEntry hfebruary (by decide), ?_⟩
  · rintro ⟨e, he, -, -, -, hlive⟩
    obtain rfl := List.mem_singleton.mp he
    obtain ⟨t, ht, hle⟩ := hlive _ rfl
    have hnames : NamesInstant "1970-01-01T00:00:00Z" :=
      @namesInstant_of_real _ "Z" ⟨1970, 1, 1, 0, 0, 0⟩
        ⟨by decide, by decide, by decide, by decide, by decide, by decide⟩
        ⟨by decide, by decide⟩ (by decide)
    have hzero := (denotes_iff_of_accepted (by rw [hepoch]) hnames).mp ht
    rw [hepoch] at hzero
    omega
  · rw [exists_denotes_iff (by rw [hfebruary]; decide)]
    intro hnames
    have hreal := hnames ⟨2026, 2, 30, 0, 0, 0⟩ "Z"
      ⟨by decide, by decide, by decide, by decide, by decide, by decide⟩ (by decide)
    exact absurd hreal.day_le (by decide)

end Crate.Crated
