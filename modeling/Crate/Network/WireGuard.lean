import Crate.Foundation.FixedPoint
import Crate.Foundation.Ini
import Crate.Foundation.Outcome
import Crate.Spec.FieldChecks

/-!
# WireGuard configurations

`lib/wireguard_pure.cpp`.  A dozen texts from the operator's specification are
checked and then written as they are into a file that `wg-quick` reads as root.
The prefix of an address is accumulated in a `long` without an overflow check.
-/

namespace Crate.NetAddrPure

open Crate.Foundation
open Crate.PrivOpsPure (isAlnum isHexDigit)

theorem char_of_isV4 {s : Str} (h : isV4 s = true) {c : Char} (hc : c ∈ s) :
    c = '.' ∨ isDecimalDigit c = true := by
  by_cases hdot : c = '.'
  · exact .inl hdot
  · right
    obtain ⟨word, hword, hmem⟩ := mem_splitOn_of_mem hdot hc
    have hoctet : ∀ w ∈ s.splitOn '.', isV4Octet w = true := by
      unfold isV4 at h
      split at h
      · rename_i a b c d hsplit
        rw [hsplit]
        simpa [and_assoc] using h
      · contradiction
    have hdigits := hoctet word hword
    simp only [isV4Octet, Bool.and_eq_true] at hdigits
    exact List.all_eq_true.mp hdigits.1.2 c hmem

theorem char_of_isV6Loop {fuel : Nat} {s : Str} {saw prev : Bool} {groups : Nat}
    (hfuel : s.length ≤ fuel) (h : isV6Loop fuel s saw prev groups = true) {c : Char}
    (hc : c ∈ s) : c = ':' ∨ isHexDigit c = true := by
  induction fuel generalizing s saw prev groups with
  | zero => simp [List.length_eq_zero_iff.mp (Nat.le_zero.mp hfuel)] at hc
  | succ fuel ih =>
      unfold isV6Loop at h
      split at h
      · contradiction
      · contradiction
      · rename_i rest hsucc
        obtain rfl := Nat.succ.inj hsucc
        split at h
        · contradiction
        · simp only [List.length_cons] at hfuel
          rcases List.mem_cons.mp hc with rfl | hc
          · exact .inl rfl
          · rcases List.mem_cons.mp hc with rfl | hc
            · exact .inl rfl
            · exact ih (by omega) h hc
      · rename_i rest _ hsucc
        obtain rfl := Nat.succ.inj hsucc
        split at h
        · contradiction
        · simp only [List.length_cons] at hfuel
          rcases List.mem_cons.mp hc with rfl | hc
          · exact .inl rfl
          · exact ih (by omega) h hc
      · rename_i d rest _ _ hsucc
        obtain rfl := Nat.succ.inj hsucc
        dsimp only at h
        split at h
        · contradiction
        · rename_i hgroup
          -- the group, and what stands behind it
          obtain ⟨hex, hhex⟩ : ∃ hex, ((d :: rest).takeWhile isHexDigit).take 4 = hex := ⟨_, rfl⟩
          have hdigits : ∀ e ∈ hex, isHexDigit e = true := by
            rintro e he
            rw [← hhex] at he
            exact List.mem_takeWhile_imp (List.mem_of_mem_take he)
          have hfront : hex <+: d :: rest := by
            rw [← hhex]
            exact (List.take_prefix 4 _).trans (List.takeWhile_prefix _)
          rw [hhex] at h hgroup
          have hsplit := List.prefix_iff_eq_append.mp hfront
          have hne : hex ≠ [] := by
            rintro rfl
            simp at hgroup
          have hlength := congrArg List.length hsplit
          rw [List.length_append] at hlength
          have := List.length_pos_of_ne_nil hne
          rw [← hsplit] at hc
          rcases List.mem_append.mp hc with hc | hc
          · exact .inr (hdigits c hc)
          · exact ih (by omega) h hc

theorem char_of_isV6 {s : Str} (h : isV6 s = true) {c : Char} (hc : c ∈ s) :
    c = ':' ∨ isHexDigit c = true := by
  rw [isV6, Bool.and_eq_true] at h
  exact char_of_isV6Loop le_rfl h.2 hc

theorem char_of_isHostname {s : Str} (h : isHostname s = true) {c : Char} (hc : c ∈ s) :
    c = '.' ∨ c = '-' ∨ isAlnum c = true := by
  by_cases hdot : c = '.'
  · exact .inl hdot
  · right
    obtain ⟨word, hword, hmem⟩ := mem_splitOn_of_mem hdot hc
    have hlabel : word ∈ hostnameLabels s := by
      unfold hostnameLabels
      split
      · rename_i hlast
        -- the piece behind a final dot is empty
        obtain ⟨front, rfl⟩ := List.getLast?_eq_some_iff.mp hlast
        rw [List.splitOn_append_cons_self, List.splitOn_nil] at hword ⊢
        rw [List.dropLast_concat]
        rcases List.mem_append.mp hword with hword | hword
        · exact hword
        · rw [List.mem_singleton.mp hword] at hmem
          contradiction
      · exact hword
    rw [isHostname, Bool.and_eq_true] at h
    have hall := List.all_eq_true.mp h.2 word hlabel
    simp only [isHostnameLabel, Bool.and_eq_true] at hall
    have hchar := List.all_eq_true.mp hall.2 c hmem
    rw [Bool.or_eq_true, decide_eq_true_eq] at hchar
    exact hchar.symm

end Crate.NetAddrPure

namespace Crate.WireguardPure

open Crate.Foundation
open Crate.NetAddrPure
open Crate.Util (emDash)

def isBase64Char (c : Char) : Bool :=
  ('A' ≤ c && c ≤ 'Z') || ('a' ≤ c && c ≤ 'z') || ('0' ≤ c && c ≤ '9') || c = '+' || c = '/'

def hasControlChar (s : Str) : Bool := s.any fun c => c.toNat < 0x20 || c.toNat = 0x7f

def validateKey (keyB64 : Str) : Check := do
  reject (keyB64.length ≠ 44) "WireGuard key must be exactly 44 base64 characters (32 raw bytes)"
  reject (keyB64.getLast? ≠ some '=') "WireGuard key must end with '=' padding"
  reject (!(keyB64.take 43).all isBase64Char) "WireGuard key contains a non-base64 character"

/-- The loop stops at the first digit that takes the number past 65535. -/
def portNumber : Nat → Str → Option Nat
  | n, [] => some n
  | n, c :: rest =>
      let next := n * 10 + (c.toNat - '0'.toNat)
      if next > 65535 then none else portNumber next rest

def validatePort (port : Str) : Check := do
  reject (port = []) "ListenPort is empty"
  reject (!port.all isDecimalDigit) "ListenPort must be numeric"
  reject ((portNumber 0 port).all (· < 1)) "ListenPort out of range (1..65535)"

/-- `for (char c : prefix) p = p * 10 + (c - '0');` in a `long`. -/
def prefixLong (digits : Str) : Int64 :=
  digits.foldl (fun p c => p * 10 + Int64.ofNat (c.toNat - '0'.toNat)) 0

def cidrHost (cidr : Str) : Str := cidr.takeWhile (· ≠ '/')

def cidrPrefix (cidr : Str) : Str := (cidr.dropWhile (· ≠ '/')).tail

def validateCidr (cidr : Str) : Check := do
  reject (cidr = []) "CIDR is empty"
  reject ('/' ∉ cidr) "CIDR must include a '/<prefix>' suffix"
  reject (cidrHost cidr = []) "CIDR host part is empty"
  reject (cidrPrefix cidr = []) "CIDR prefix is empty"
  reject (!(cidrPrefix cidr).all isDecimalDigit) "CIDR prefix must be numeric"
  let p := prefixLong (cidrPrefix cidr)
  let v4 := isV4 (cidrHost cidr)
  let v6 := !v4 && isV6 (cidrHost cidr)
  reject (!v4 && !v6) "CIDR host part is neither valid IPv4 nor IPv6"
  reject (p < 0 ∨ p > if v4 then 32 else 128)
    (if v4 then "IPv4 CIDR prefix must be 0..32" else "IPv6 CIDR prefix must be 0..128")

def validateEndpoint (endpoint : Str) : Check := do
  reject (endpoint = []) "endpoint is empty"
  if endpoint.head? = some '[' then do
    reject (']' ∉ endpoint) "endpoint missing closing ']'"
    let host := (endpoint.takeWhile (· ≠ ']')).tail
    let behind := (endpoint.dropWhile (· ≠ ']')).tail
    reject (behind.head? ≠ some ':') "endpoint missing ':' after ']'"
    reject (!isV6 host) "endpoint IPv6 literal is malformed"
    validatePort behind.tail
  else
    match splitLast ":" endpoint with
    | none => .error "endpoint must be host:port"
    | some (host, port) => do
        reject (!isV4 host && !isHostname host)
          "endpoint host is neither IPv4 nor a valid hostname"
        validatePort port

structure InterfaceSpec where
  privateKey : Str := []
  addresses : List Str := []
  listenPort : Str := []
  fwmark : Str := []
  dns : List Str := []
  mtu : List Str := []
  deriving DecidableEq, Repr

structure PeerSpec where
  publicKey : Str := []
  presharedKey : Str := []
  allowedIps : List Str := []
  endpoint : Str := []
  persistentKeepalive : Str := []
  description : Str := []
  deriving DecidableEq, Repr

/-- An optional field is checked when it is there. -/
def whenGiven (field : Str) (check : Str → Check) : Check :=
  if field = [] then .ok () else check field

def validateInterface (iface : InterfaceSpec) : Check := do
  labelled "interface PrivateKey: " (validateKey iface.privateKey)
  reject (iface.addresses = []) "interface must have at least one Address"
  iface.addresses.forM fun a => labelled ("interface Address '" ++ a ++ "': ") (validateCidr a)
  whenGiven iface.listenPort fun port => labelled "interface ListenPort: " (validatePort port)
  reject (hasControlChar iface.fwmark) "interface FwMark contains a control character"
  iface.dns.forM fun d =>
    reject (hasControlChar d) ("interface DNS entry '" ++ d ++ "' contains a control character")
  reject (iface.mtu.head?.any hasControlChar) "interface MTU contains a control character"

/-- The checks of one peer; `label` is `peer #<i>`. -/
def validatePeer (label : Str) (p : PeerSpec) : Check := do
  labelled (label ++ " PublicKey: ") (validateKey p.publicKey)
  whenGiven p.presharedKey fun key => labelled (label ++ " PresharedKey: ") (validateKey key)
  reject (p.allowedIps = []) (label ++ " must have at least one AllowedIPs entry")
  p.allowedIps.forM fun a => labelled (label ++ " AllowedIPs '" ++ a ++ "': ") (validateCidr a)
  whenGiven p.endpoint fun endpoint =>
    labelled (label ++ " Endpoint: ") (validateEndpoint endpoint)
  reject (!p.persistentKeepalive.all isDecimalDigit)
    (label ++ " PersistentKeepalive must be numeric")
  reject (hasControlChar p.description) (label ++ " description contains a control character")

def validatePeers : Nat → List PeerSpec → Check
  | _, [] => .ok ()
  | i, p :: rest => do
      validatePeer ("peer #" ++ decimal i) p
      validatePeers (i + 1) rest

def validateConfig (iface : InterfaceSpec) (peers : List PeerSpec) : Check := do
  validateInterface iface
  reject (peers = []) "config must have at least one [Peer] section"
  validatePeers 1 peers

/-! ## Rendering -/

def emit (key value : Str) : Str := key ++ (" = " ++ value) ++ "\n"

def emitOptional (key value : Str) : Str := if value = [] then [] else emit key value

def emitCsvList (key : Str) (v : List Str) : Str :=
  if v = [] then [] else emit key ((", " : Str).intercalate v)

def emitComment (text : Str) : Str :=
  if text = [] then [] else ("# " : Str) ++ text ++ "\n"

def renderPeer (p : PeerSpec) : Str :=
  ("\n" : Str) ++ emitComment p.description ++ "[Peer]\n" ++
    emit "PublicKey" p.publicKey ++ emitOptional "PresharedKey" p.presharedKey ++
    emitCsvList "AllowedIPs" p.allowedIps ++ emitOptional "Endpoint" p.endpoint ++
    emitOptional "PersistentKeepalive" p.persistentKeepalive

def confHeader : Str :=
  "# Generated by crate(8) " ++ emDash ++ " wg-quick(8) compatible.\n" ++
    "# Apply with: wg-quick up <this-file>\n\n"

def renderConf (iface : InterfaceSpec) (peers : List PeerSpec) : Str :=
  confHeader ++ "[Interface]\n" ++
    emit "PrivateKey" iface.privateKey ++ emitCsvList "Address" iface.addresses ++
    emitOptional "ListenPort" iface.listenPort ++ emitOptional "FwMark" iface.fwmark ++
    emitCsvList "DNS" iface.dns ++ emitOptional "MTU" (iface.mtu.head?.getD []) ++
    peers.flatMap renderPeer

/-! ## The file as lines -/

open Ini (Line fieldLines)

def optionalField (key value : Str) : List (Str × Str) := if value = [] then [] else [(key, value)]

def csvField (key : Str) (v : List Str) : List (Str × Str) :=
  if v = [] then [] else [(key, (", " : Str).intercalate v)]

def ifaceFields (iface : InterfaceSpec) : List (Str × Str) :=
  ("PrivateKey", iface.privateKey) :: (csvField "Address" iface.addresses ++
    optionalField "ListenPort" iface.listenPort ++ optionalField "FwMark" iface.fwmark ++
    csvField "DNS" iface.dns ++ optionalField "MTU" (iface.mtu.head?.getD []))

def peerFields (p : PeerSpec) : List (Str × Str) :=
  ("PublicKey", p.publicKey) :: (optionalField "PresharedKey" p.presharedKey ++
    csvField "AllowedIPs" p.allowedIps ++ optionalField "Endpoint" p.endpoint ++
    optionalField "PersistentKeepalive" p.persistentKeepalive)

def commentLines (text : Str) : List Line := if text = [] then [] else [.comment (' ' :: text)]

def peerLines (p : PeerSpec) : List Line :=
  .blank :: (commentLines p.description ++ .header "Peer" :: fieldLines (peerFields p))

def headLines : List Line :=
  [.comment (" Generated by crate(8) " ++ emDash ++ " wg-quick(8) compatible."),
    .comment " Apply with: wg-quick up <this-file>", .blank]

def confLines (iface : InterfaceSpec) (peers : List PeerSpec) : List Line :=
  headLines ++ (.header "Interface" :: (fieldLines (ifaceFields iface) ++ peers.flatMap peerLines))

section Lines

theorem render_append (a b : List Line) : Ini.render (a ++ b) = Ini.render a ++ Ini.render b :=
  List.flatMap_append

theorem fieldLines_append (a b : List (Str × Str)) :
    fieldLines (a ++ b) = fieldLines a ++ fieldLines b :=
  List.map_append

theorem render_field (key value : Str) :
    Ini.render (fieldLines [(key, value)]) = emit key value := by
  simp [Ini.render, fieldLines, Line.text, emit]

theorem render_optionalField (key value : Str) :
    Ini.render (fieldLines (optionalField key value)) = emitOptional key value := by
  unfold optionalField emitOptional
  split
  · rfl
  · exact render_field key value

theorem render_csvField (key : Str) (v : List Str) :
    Ini.render (fieldLines (csvField key v)) = emitCsvList key v := by
  unfold csvField emitCsvList
  split
  · rfl
  · exact render_field key _

theorem render_commentLines (text : Str) : Ini.render (commentLines text) = emitComment text := by
  unfold commentLines emitComment
  split
  · rfl
  · simp [Ini.render, Line.text]

theorem render_peerLines (p : PeerSpec) : Ini.render (peerLines p) = renderPeer p := by
  have hpeer : ∀ rest, Ini.render (.header "Peer" :: rest) =
      ("[Peer]\n" : Str) ++ Ini.render rest := fun _ => rfl
  have hblank : ∀ rest, Ini.render (.blank :: rest) = ("\n" : Str) ++ Ini.render rest :=
    fun _ => rfl
  have hkey : fieldLines (peerFields p) = fieldLines [("PublicKey", p.publicKey)] ++
      fieldLines (peerFields p).tail := rfl
  rw [peerLines, hblank, render_append, render_commentLines, hpeer, hkey, render_append,
    render_field]
  simp only [peerFields, List.tail_cons, fieldLines_append, render_append, render_optionalField,
    render_csvField, renderPeer, List.append_assoc]

theorem renderConf_eq (iface : InterfaceSpec) (peers : List PeerSpec) :
    renderConf iface peers = Ini.render (confLines iface peers) := by
  have hpeers : Ini.render (peers.flatMap peerLines) = peers.flatMap renderPeer := by
    rw [Ini.render, List.flatMap_assoc]
    exact congrArg (fun render => peers.flatMap render) (funext render_peerLines)
  have hhead : Ini.render headLines = confHeader := rfl
  have hiface : ∀ rest, Ini.render (.header "Interface" :: rest) =
      ("[Interface]\n" : Str) ++ Ini.render rest := fun _ => rfl
  have hkey : fieldLines (ifaceFields iface) = fieldLines [("PrivateKey", iface.privateKey)] ++
      fieldLines (ifaceFields iface).tail := rfl
  rw [confLines, render_append, hhead, hiface, render_append, hpeers, hkey, render_append,
    render_field]
  simp only [ifaceFields, List.tail_cons, fieldLines_append, render_append, render_optionalField,
    render_csvField, renderConf, List.append_assoc]

end Lines

/-! ## What the validators let through -/

theorem newline_of_hasControlChar {s : Str} (h : hasControlChar s = false) : '\n' ∉ s := by
  intro hmem
  rw [hasControlChar, List.any_eq_false] at h
  exact h '\n' hmem rfl

theorem char_of_validateKey {key : Str} (h : validateKey key = .ok ()) {c : Char} (hc : c ∈ key) :
    c = '=' ∨ isBase64Char c = true := by
  simp only [validateKey, check_seq_eq_ok, reject_eq_ok, not_not, Bool.not_eq_true,
    Bool.not_eq_false'] at h
  obtain ⟨hlength, hlast, hall⟩ := h
  obtain ⟨front, rfl⟩ := List.getLast?_eq_some_iff.mp hlast
  have hfront : (front ++ ['=']).take 43 = front := by
    apply List.take_left'
    simpa using hlength
  rw [hfront] at hall
  rcases List.mem_append.mp hc with hc | hc
  · exact .inr (List.all_eq_true.mp hall c hc)
  · exact .inl (List.mem_singleton.mp hc)

theorem digit_of_validatePort {port : Str} (h : validatePort port = .ok ()) {c : Char}
    (hc : c ∈ port) : isDecimalDigit c = true := by
  simp only [validatePort, check_seq_eq_ok, reject_eq_ok, Bool.not_eq_true,
    Bool.not_eq_false'] at h
  exact List.all_eq_true.mp h.2.1 c hc

/-- What the checks of a network in prefix notation establish. -/
structure CidrShape (cidr : Str) : Prop where
  text : cidr = cidrHost cidr ++ '/' :: cidrPrefix cidr
  host : isV4 (cidrHost cidr) = true ∨ isV6 (cidrHost cidr) = true
  digits : ∀ c ∈ cidrPrefix cidr, isDecimalDigit c = true
  low : 0 ≤ prefixLong (cidrPrefix cidr)
  high : prefixLong (cidrPrefix cidr) ≤ if isV4 (cidrHost cidr) then 32 else 128

theorem shape_of_validateCidr {cidr : Str} (h : validateCidr cidr = .ok ()) : CidrShape cidr := by
  simp only [validateCidr, check_seq_eq_ok, reject_eq_ok, not_not, Bool.not_eq_true,
    Bool.not_eq_false', not_or, Int64.not_lt] at h
  obtain ⟨-, hslash, -, -, hdigits, hhost, hlow, hhigh⟩ := h
  have hkind : isV4 (cidrHost cidr) = true ∨ isV6 (cidrHost cidr) = true := by
    cases hv4 : isV4 (cidrHost cidr) with
    | true => exact .inl rfl
    | false =>
        right
        simpa [hv4] using hhost
  exact ⟨(takeWhile_append_tail hslash).symm, hkind, List.all_eq_true.mp hdigits, hlow, hhigh⟩

open Crate.PrivOpsPure (isAlnum isHexDigit)

theorem isHexDigit_of_isDecimalDigit {c : Char} (h : isDecimalDigit c = true) :
    isHexDigit c = true := by
  simp only [isDecimalDigit, isHexDigit, Bool.and_eq_true, Bool.or_eq_true] at *
  exact .inl (.inl h)

/-- A checked network is written with digits, letters of hexadecimal and three marks. -/
theorem CidrShape.char {cidr : Str} (h : CidrShape cidr) {c : Char} (hc : c ∈ cidr) :
    c = '/' ∨ c = '.' ∨ c = ':' ∨ isHexDigit c = true := by
  rw [h.text] at hc
  rcases List.mem_append.mp hc with hhost | hrest
  · rcases h.host with hv4 | hv6
    · rcases char_of_isV4 hv4 hhost with hdot | hdigit
      · exact .inr (.inl hdot)
      · exact .inr (.inr (.inr (isHexDigit_of_isDecimalDigit hdigit)))
    · exact .inr (.inr (char_of_isV6 hv6 hhost))
  · rcases List.mem_cons.mp hrest with hslash | hdigit
    · exact .inl hslash
    · exact .inr (.inr (.inr (isHexDigit_of_isDecimalDigit (h.digits c hdigit))))

theorem CidrShape.not_mem {cidr : Str} (h : CidrShape cidr) {c : Char}
    (hc : c ≠ '/' ∧ c ≠ '.' ∧ c ≠ ':' ∧ isHexDigit c = false) : c ∉ cidr := by
  intro hmem
  rcases h.char hmem with h1 | h2 | h3 | h4
  · exact hc.1 h1
  · exact hc.2.1 h2
  · exact hc.2.2.1 h3
  · rw [hc.2.2.2] at h4
    contradiction

theorem newline_of_validateEndpoint {endpoint : Str} (h : validateEndpoint endpoint = .ok ()) :
    '\n' ∉ endpoint := by
  intro hmem
  unfold validateEndpoint at h
  rw [check_seq_eq_ok] at h
  have hport : ∀ {port : Str}, validatePort port = .ok () → '\n' ∉ port := fun hport hc =>
    absurd (digit_of_validatePort hport hc) (by decide)
  split at h
  · rename_i hopen
    simp only [check_seq_eq_ok, reject_eq_ok, not_not, Bool.not_eq_true, Bool.not_eq_false'] at h
    obtain ⟨-, hclose, hcolon, hhost, hnumber⟩ := h
    rw [← takeWhile_append_tail hclose] at hmem
    obtain ⟨port, hbehind⟩ := List.head?_eq_some_iff.mp hcolon
    rw [hbehind] at hmem hnumber
    rcases List.mem_append.mp hmem with hfront | hrest
    · -- the bracket, and the address behind it
      have hfirst : (endpoint.takeWhile fun x => decide (x ≠ ']')).head? = some '[' := by
        obtain ⟨rest, rfl⟩ := List.head?_eq_some_iff.mp hopen
        rfl
      obtain ⟨host, htake⟩ := List.head?_eq_some_iff.mp hfirst
      rw [htake] at hfront hhost
      rcases List.mem_cons.mp hfront with hbracket | hfront
      · contradiction
      · exact absurd (char_of_isV6 hhost hfront) (by decide)
    · rcases List.mem_cons.mp hrest with hbracket | hrest
      · contradiction
      · rcases List.mem_cons.mp hrest with hcolon | hrest
        · contradiction
        · exact hport hnumber hrest
  · split at h
    · exact absurd h.2 (by simp)
    · rename_i host port hsplit
      simp only [check_seq_eq_ok, reject_eq_ok, Bool.and_eq_true, Bool.not_eq_true',
        not_and, Bool.not_eq_false] at h
      obtain ⟨-, hhost, hnumber⟩ := h
      rw [eq_of_splitLast hsplit] at hmem
      rcases List.mem_append.mp hmem with hfront | hrest
      · cases hv4 : isV4 host with
        | true => exact absurd (char_of_isV4 hv4 hfront) (by decide)
        | false => exact absurd (char_of_isHostname (hhost hv4) hfront) (by decide)
      · rcases List.mem_cons.mp hrest with hcolon | hrest
        · contradiction
        · exact hport hnumber hrest

/-! ## The prefix -/

theorem prefixLong_eq (digits : Str) :
    prefixLong digits = Int64.ofNat (decimalValue digits) := by
  have hloop : ∀ n : Nat, digits.foldl
      (fun p c => p * 10 + Int64.ofNat (c.toNat - '0'.toNat)) (Int64.ofNat n) =
        Int64.ofNat (Nat.ofDigitChars 10 digits n) := by
    induction digits with
    | nil => exact fun _ => rfl
    | cons c rest ih =>
        intro n
        rw [List.foldl_cons, Nat.ofDigitChars_cons, ← ih (10 * n + (c.toNat - '0'.toNat)),
          Int64.ofNat_add, Int64.ofNat_mul, Int64.mul_comm]
        rfl
  exact hloop 0

/-- The value of the prefix as a number, whatever its length. -/
def PrefixInRange (cidr : Str) : Prop :=
  decimalValue (cidrPrefix cidr) ≤ if isV4 (cidrHost cidr) then 32 else 128

theorem prefixInRange_iff {cidr : Str} (h : CidrShape cidr) :
    PrefixInRange cidr ↔ decimalValue (cidrPrefix cidr) < 2 ^ 64 := by
  have hbound : (if isV4 (cidrHost cidr) then 32 else 128 : Nat) < 2 ^ 63 := by
    split <;> norm_num
  constructor
  · intro hrange
    exact lt_of_le_of_lt hrange (by omega)
  · intro hvalue
    have hlow := h.low
    have hhigh := h.high
    rw [prefixLong_eq, Int64.le_iff_toInt_le, Int64.toInt_ofNat'] at hlow hhigh
    obtain ⟨n, hn⟩ : ∃ n, decimalValue (cidrPrefix cidr) = n := ⟨_, rfl⟩
    rw [hn] at hlow hhigh hvalue
    -- a value from 2^63 on would have wrapped to a negative number
    have hsize : Int64.size = 2 ^ 64 := rfl
    rw [hsize] at hlow hhigh
    have hsmall : n < 2 ^ 63 := by
      have hzero : Int64.toInt 0 = 0 := rfl
      rw [hzero, Int.bmod_def] at hlow
      omega
    have hlong : (if isV4 (cidrHost cidr) then (32 : Int64) else 128).toInt =
        ((if isV4 (cidrHost cidr) then 32 else 128 : Nat) : ℤ) := by
      split <;> rfl
    rw [hlong, bmod_natCast hsmall] at hhigh
    rw [PrefixInRange, hn]
    exact_mod_cast hhigh

/-! ## The lines of the file -/

def knownKeys : List Str :=
  ["PrivateKey", "Address", "ListenPort", "FwMark", "DNS", "MTU", "PublicKey", "PresharedKey",
    "AllowedIPs", "Endpoint", "PersistentKeepalive"]

def KnownLine (line : Str) : Prop :=
  line = [] ∨ line.head? = some '#' ∨ line = "[Interface]" ∨ line = "[Peer]" ∨
    ∃ key ∈ knownKeys, ∃ value, line = key ++ (" = " ++ value)

/-- One line, its key known and its text on that line only. -/
def Permitted : Line → Prop
  | .blank => True
  | .comment text => '\n' ∉ text
  | .header name => name = "Interface" ∨ name = "Peer"
  | .field key value => key ∈ knownKeys ∧ '\n' ∉ value

theorem isKey_of_mem_knownKeys {key : Str} (h : key ∈ knownKeys) : Ini.IsKey key := by
  have hall : ∀ k ∈ knownKeys, k ≠ [] ∧ k.all Char.isAlpha = true := by decide
  exact ⟨(hall key h).1, List.all_eq_true.mp (hall key h).2⟩

theorem Permitted.wellFormed {l : Line} (h : Permitted l) : l.WellFormed := by
  cases l with
  | blank => trivial
  | comment text => exact h
  | header name =>
      have hnames : ∀ n ∈ (["Interface", "Peer"] : List Str), '\n' ∉ n := by decide
      rcases h with rfl | rfl
      · exact hnames "Interface" List.mem_cons_self
      · exact hnames "Peer" (List.mem_cons_of_mem _ List.mem_cons_self)
  | field key value => exact ⟨isKey_of_mem_knownKeys h.1, h.2⟩

theorem Permitted.knownLine {l : Line} (h : Permitted l) : KnownLine l.text := by
  cases l with
  | blank => exact .inl rfl
  | comment text => exact .inr (.inl rfl)
  | header name =>
      rcases h with rfl | rfl
      · exact .inr (.inr (.inl rfl))
      · exact .inr (.inr (.inr (.inl rfl)))
  | field key value => exact .inr (.inr (.inr (.inr ⟨key, h.1, value, rfl⟩)))

theorem permitted_optionalField {key value : Str} (hkey : key ∈ knownKeys)
    (h : value ≠ [] → '\n' ∉ value) : ∀ l ∈ fieldLines (optionalField key value), Permitted l := by
  unfold optionalField
  split
  · simp [fieldLines]
  · rename_i hne
    simpa [fieldLines, Permitted] using ⟨hkey, h hne⟩

theorem permitted_csvField {key : Str} {v : List Str} (hkey : key ∈ knownKeys)
    (h : ∀ item ∈ v, '\n' ∉ item) : ∀ l ∈ fieldLines (csvField key v), Permitted l := by
  have hvalue : '\n' ∉ (", " : Str).intercalate v := by
    intro hmem
    rcases Ini.mem_intercalate hmem with hsep | ⟨item, hitem, hmem⟩
    · exact absurd hsep (by decide)
    · exact h item hitem hmem
  unfold csvField
  split
  · simp [fieldLines]
  · simpa [fieldLines, Permitted] using ⟨hkey, hvalue⟩

theorem newline_of_validateKey {key : Str} (h : validateKey key = .ok ()) : '\n' ∉ key :=
  fun hmem => absurd (char_of_validateKey h hmem) (by decide)

theorem newline_of_validatePort {port : Str} (h : validatePort port = .ok ()) : '\n' ∉ port :=
  fun hmem => absurd (digit_of_validatePort h hmem) (by decide)

theorem CidrShape.newline {cidr : Str} (h : CidrShape cidr) : '\n' ∉ cidr := h.not_mem (by decide)

/-- What the checks of an interface establish, field by field. -/
structure CheckedInterface (iface : InterfaceSpec) : Prop where
  privateKey : validateKey iface.privateKey = .ok ()
  addresses_ne : iface.addresses ≠ []
  addresses : ∀ a ∈ iface.addresses, CidrShape a
  listenPort : iface.listenPort ≠ [] → validatePort iface.listenPort = .ok ()
  fwmark : hasControlChar iface.fwmark = false
  dns : ∀ d ∈ iface.dns, hasControlChar d = false
  mtu : iface.mtu.head?.any hasControlChar = false

structure CheckedPeer (p : PeerSpec) : Prop where
  publicKey : validateKey p.publicKey = .ok ()
  presharedKey : p.presharedKey ≠ [] → validateKey p.presharedKey = .ok ()
  allowedIps_ne : p.allowedIps ≠ []
  allowedIps : ∀ a ∈ p.allowedIps, CidrShape a
  endpoint : p.endpoint ≠ [] → validateEndpoint p.endpoint = .ok ()
  persistentKeepalive : ∀ c ∈ p.persistentKeepalive, isDecimalDigit c = true
  description : hasControlChar p.description = false

theorem whenGiven_eq_ok {field : Str} {check : Str → Check} :
    whenGiven field check = .ok () ↔ (field ≠ [] → check field = .ok ()) := by
  unfold whenGiven
  split <;> simp_all

theorem checkedInterface {iface : InterfaceSpec} (h : validateInterface iface = .ok ()) :
    CheckedInterface iface := by
  simp only [validateInterface, check_seq_eq_ok, reject_eq_ok, labelled_eq_ok, forM_eq_ok,
    whenGiven_eq_ok, Bool.not_eq_true] at h
  obtain ⟨hkey, hne, haddresses, hport, hfwmark, hdns, hmtu⟩ := h
  exact ⟨hkey, hne, fun a ha => shape_of_validateCidr (haddresses a ha), hport, hfwmark, hdns, hmtu⟩

theorem checkedPeer {label : Str} {p : PeerSpec} (h : validatePeer label p = .ok ()) :
    CheckedPeer p := by
  simp only [validatePeer, check_seq_eq_ok, reject_eq_ok, labelled_eq_ok, forM_eq_ok,
    whenGiven_eq_ok, Bool.not_eq_true, Bool.not_eq_false'] at h
  obtain ⟨hkey, hpreshared, hne, hallowed, hendpoint, hkeepalive, hdescription⟩ := h
  exact ⟨hkey, hpreshared, hne, fun a ha => shape_of_validateCidr (hallowed a ha), hendpoint,
    List.all_eq_true.mp hkeepalive, hdescription⟩

theorem checkedPeers {i : Nat} {peers : List PeerSpec} (h : validatePeers i peers = .ok ()) :
    ∀ p ∈ peers, CheckedPeer p := by
  induction peers generalizing i with
  | nil => simp
  | cons p rest ih =>
      rw [validatePeers, check_seq_eq_ok] at h
      rintro q hq
      rcases List.mem_cons.mp hq with rfl | hq
      · exact checkedPeer h.1
      · exact ih h.2 q hq

theorem CheckedInterface.permitted {iface : InterfaceSpec} (h : CheckedInterface iface) :
    ∀ l ∈ fieldLines (ifaceFields iface), Permitted l := by
  have hmtu : '\n' ∉ iface.mtu.head?.getD [] := by
    have hhead := h.mtu
    cases hcase : iface.mtu.head? with
    | none => simp
    | some mtu =>
        rw [hcase] at hhead
        exact newline_of_hasControlChar hhead
  rintro l hl
  have hcons : fieldLines (ifaceFields iface) =
      .field "PrivateKey" iface.privateKey :: fieldLines (ifaceFields iface).tail := rfl
  rw [hcons] at hl
  rcases List.mem_cons.mp hl with rfl | hl
  · exact ⟨by decide, newline_of_validateKey h.privateKey⟩
  · simp only [ifaceFields, List.tail_cons, fieldLines_append, List.mem_append] at hl
    rcases hl with (((hl | hl) | hl) | hl) | hl
    · exact permitted_csvField (by decide) (fun a ha => (h.addresses a ha).newline) l hl
    · exact permitted_optionalField (by decide)
        (fun hne => newline_of_validatePort (h.listenPort hne)) l hl
    · exact permitted_optionalField (by decide)
        (fun _ => newline_of_hasControlChar h.fwmark) l hl
    · exact permitted_csvField (by decide)
        (fun d hd => newline_of_hasControlChar (h.dns d hd)) l hl
    · exact permitted_optionalField (by decide) (fun _ => hmtu) l hl

theorem CheckedPeer.permitted {p : PeerSpec} (h : CheckedPeer p) :
    ∀ l ∈ peerLines p, Permitted l := by
  have hkeepalive : '\n' ∉ p.persistentKeepalive := fun hmem =>
    absurd (h.persistentKeepalive '\n' hmem) (by decide)
  have hdescription : ∀ l ∈ commentLines p.description, Permitted l := by
    unfold commentLines
    split
    · simp
    · simpa [Permitted] using newline_of_hasControlChar h.description
  have hcons : fieldLines (peerFields p) =
      .field "PublicKey" p.publicKey :: fieldLines (peerFields p).tail := rfl
  rintro l hl
  rw [peerLines, hcons] at hl
  rcases List.mem_cons.mp hl with rfl | hl
  · trivial
  · rcases List.mem_append.mp hl with hl | hl
    · exact hdescription l hl
    · rcases List.mem_cons.mp hl with rfl | hl
      · exact .inr rfl
      · rcases List.mem_cons.mp hl with rfl | hl
        · exact ⟨by decide, newline_of_validateKey h.publicKey⟩
        · simp only [peerFields, List.tail_cons, fieldLines_append, List.mem_append] at hl
          rcases hl with ((hl | hl) | hl) | hl
          · exact permitted_optionalField (by decide)
              (fun hne => newline_of_validateKey (h.presharedKey hne)) l hl
          · exact permitted_csvField (by decide) (fun a ha => (h.allowedIps a ha).newline) l hl
          · exact permitted_optionalField (by decide)
              (fun hne => newline_of_validateEndpoint (h.endpoint hne)) l hl
          · exact permitted_optionalField (by decide) (fun _ => hkeepalive) l hl

/-! ## Reading the file back -/

/-- The fields of an interface that a reader needs to bring the tunnel up. -/
def InterfaceSpec.tunnel (iface : InterfaceSpec) : InterfaceSpec :=
  { iface with fwmark := [], dns := [], mtu := [] }

def PeerSpec.tunnel (p : PeerSpec) : PeerSpec := { p with description := [] }

def readInterface (s : Ini.Section) : InterfaceSpec :=
  { privateKey := s.value "PrivateKey"
    addresses := Ini.csvItems (s.value "Address")
    listenPort := s.value "ListenPort" }

def readPeer (s : Ini.Section) : PeerSpec :=
  { publicKey := s.value "PublicKey"
    presharedKey := s.value "PresharedKey"
    allowedIps := Ini.csvItems (s.value "AllowedIPs")
    endpoint := s.value "Endpoint"
    persistentKeepalive := s.value "PersistentKeepalive" }

/-- One `[Interface]` in front, `[Peer]` sections behind it. -/
def readConf (text : Str) : Option (InterfaceSpec × List PeerSpec) :=
  match (Ini.read text).map Ini.collect with
  | some ([], iface :: peers) =>
      if iface.name = "Interface" ∧ ∀ p ∈ peers, p.name = "Peer" then
        some (readInterface iface, peers.map readPeer)
      else none
  | _ => none

theorem readConf_of_collect {text : Str} {first : Ini.Section} {rest : List Ini.Section}
    (h : (Ini.read text).map Ini.collect = some ([], first :: rest))
    (hfirst : first.name = "Interface") (hrest : ∀ s ∈ rest, s.name = "Peer") :
    readConf text = some (readInterface first, rest.map readPeer) := by
  unfold readConf
  rw [h]
  exact if_pos ⟨hfirst, hrest⟩

section Lookup

variable {key other : Str}

theorem lookup_optionalField_self (value : Str) (rest : List (Str × Str))
    (h : rest.lookup key = none) :
    ((optionalField key value ++ rest).lookup key).getD [] = value := by
  unfold optionalField
  split
  · rename_i hempty
    rw [List.nil_append, h, hempty]
    rfl
  · simp

theorem lookup_optionalField_ne (h : key ≠ other) (value : Str) (rest : List (Str × Str)) :
    (optionalField other value ++ rest).lookup key = rest.lookup key := by
  unfold optionalField
  split
  · rfl
  · rw [List.singleton_append, List.lookup_cons, beq_false_of_ne h]

theorem lookup_csvField_self {v : List Str} (h : v ≠ []) (rest : List (Str × Str)) :
    (csvField key v ++ rest).lookup key = some ((", " : Str).intercalate v) := by
  simp [csvField, h]

theorem lookup_csvField_ne (h : key ≠ other) (v : List Str) (rest : List (Str × Str)) :
    (csvField other v ++ rest).lookup key = rest.lookup key := by
  unfold csvField
  split
  · rfl
  · rw [List.singleton_append, List.lookup_cons, beq_false_of_ne h]

theorem lookup_optionalField_nil (h : key ≠ other) (value : Str) :
    (optionalField other value).lookup key = none := by
  have happ := lookup_optionalField_ne h value []
  rwa [List.append_nil] at happ

end Lookup

theorem readInterface_ifaceFields {iface : InterfaceSpec} (h : CheckedInterface iface)
    (name : Str) : readInterface ⟨name, ifaceFields iface⟩ = iface.tunnel := by
  have hitems : Ini.csvItems ((", " : Str).intercalate iface.addresses) = iface.addresses :=
    Ini.csvItems_intercalate h.addresses_ne fun a ha =>
      ⟨(h.addresses a ha).not_mem (by decide), (h.addresses a ha).not_mem (by decide)⟩
  have hkey : Ini.Section.value ⟨name, ifaceFields iface⟩ "PrivateKey" = iface.privateKey := rfl
  have hskip : ∀ key : Str, key ≠ "PrivateKey" →
      Ini.Section.value ⟨name, ifaceFields iface⟩ key =
        ((ifaceFields iface).tail.lookup key).getD [] := by
    rintro key hne
    rw [Ini.Section.value, ifaceFields, List.lookup_cons, beq_false_of_ne hne]
    rfl
  have haddresses : Ini.Section.value ⟨name, ifaceFields iface⟩ "Address" =
      (", " : Str).intercalate iface.addresses := by
    rw [hskip _ (by decide), ifaceFields, List.tail_cons, List.append_assoc, List.append_assoc,
      List.append_assoc, lookup_csvField_self h.addresses_ne]
    rfl
  have hport : Ini.Section.value ⟨name, ifaceFields iface⟩ "ListenPort" = iface.listenPort := by
    rw [hskip _ (by decide), ifaceFields, List.tail_cons, List.append_assoc, List.append_assoc,
      List.append_assoc, lookup_csvField_ne (by decide)]
    apply lookup_optionalField_self
    rw [lookup_optionalField_ne (by decide), lookup_csvField_ne (by decide),
      lookup_optionalField_nil (by decide)]
  rw [readInterface, hkey, haddresses, hport, hitems]
  rfl

theorem readPeer_peerFields {p : PeerSpec} (h : CheckedPeer p) (name : Str) :
    readPeer ⟨name, peerFields p⟩ = p.tunnel := by
  have hitems : Ini.csvItems ((", " : Str).intercalate p.allowedIps) = p.allowedIps :=
    Ini.csvItems_intercalate h.allowedIps_ne fun a ha =>
      ⟨(h.allowedIps a ha).not_mem (by decide), (h.allowedIps a ha).not_mem (by decide)⟩
  have hkey : Ini.Section.value ⟨name, peerFields p⟩ "PublicKey" = p.publicKey := rfl
  have hskip : ∀ key : Str, key ≠ "PublicKey" → Ini.Section.value ⟨name, peerFields p⟩ key =
      ((peerFields p).tail.lookup key).getD [] := by
    rintro key hne
    rw [Ini.Section.value, peerFields, List.lookup_cons, beq_false_of_ne hne]
    rfl
  have hfields : (peerFields p).tail = optionalField "PresharedKey" p.presharedKey ++
      (csvField "AllowedIPs" p.allowedIps ++ (optionalField "Endpoint" p.endpoint ++
        optionalField "PersistentKeepalive" p.persistentKeepalive)) := by
    rw [peerFields, List.tail_cons, List.append_assoc, List.append_assoc]
  have hpreshared : Ini.Section.value ⟨name, peerFields p⟩ "PresharedKey" = p.presharedKey := by
    rw [hskip _ (by decide), hfields]
    apply lookup_optionalField_self
    rw [lookup_csvField_ne (by decide), lookup_optionalField_ne (by decide),
      lookup_optionalField_nil (by decide)]
  have hallowed : Ini.Section.value ⟨name, peerFields p⟩ "AllowedIPs" =
      (", " : Str).intercalate p.allowedIps := by
    rw [hskip _ (by decide), hfields, lookup_optionalField_ne (by decide),
      lookup_csvField_self h.allowedIps_ne]
    rfl
  have hendpoint : Ini.Section.value ⟨name, peerFields p⟩ "Endpoint" = p.endpoint := by
    rw [hskip _ (by decide), hfields, lookup_optionalField_ne (by decide),
      lookup_csvField_ne (by decide)]
    exact lookup_optionalField_self _ _ (lookup_optionalField_nil (by decide) _)
  have hkeepalive : Ini.Section.value ⟨name, peerFields p⟩ "PersistentKeepalive" =
      p.persistentKeepalive := by
    rw [hskip _ (by decide), hfields, lookup_optionalField_ne (by decide),
      lookup_csvField_ne (by decide), lookup_optionalField_ne (by decide)]
    have hself := @lookup_optionalField_self "PersistentKeepalive" p.persistentKeepalive [] rfl
    rwa [List.append_nil] at hself
  rw [readPeer, hkey, hpreshared, hallowed, hendpoint, hkeepalive, hitems]
  rfl

theorem collect_peerLines (p : PeerSpec) (rest : List Line) :
    Ini.collect (peerLines p ++ rest) =
      ([], ⟨"Peer", peerFields p ++ (Ini.collect rest).1⟩ :: (Ini.collect rest).2) := by
  have hcomment : ∀ tail, Ini.collect (commentLines p.description ++ tail) = Ini.collect tail := by
    rintro tail
    unfold commentLines
    split <;> rfl
  rw [peerLines, List.cons_append, Ini.collect, List.append_assoc, hcomment, List.cons_append,
    Ini.collect, Ini.collect_fieldLines]

theorem collect_peers (peers : List PeerSpec) :
    Ini.collect (peers.flatMap peerLines) = ([], peers.map fun p => ⟨"Peer", peerFields p⟩) := by
  induction peers with
  | nil => rfl
  | cons p rest ih =>
      rw [List.flatMap_cons, collect_peerLines, ih, List.append_nil]
      rfl

theorem collect_confLines (iface : InterfaceSpec) (peers : List PeerSpec) :
    Ini.collect (confLines iface peers) =
      ([], ⟨"Interface", ifaceFields iface⟩ :: peers.map fun p => ⟨"Peer", peerFields p⟩) := by
  have hhead : ∀ rest, Ini.collect (headLines ++ rest) = Ini.collect rest := fun _ => rfl
  rw [confLines, hhead, Ini.collect, Ini.collect_fieldLines, collect_peers, List.append_nil]

/-- The networks of a configuration, in the order of the file. -/
def networks (iface : InterfaceSpec) (peers : List PeerSpec) : List Str :=
  iface.addresses ++ peers.flatMap (·.allowedIps)

/-- The file says what was asked for and nothing else. -/
structure Faithful (iface : InterfaceSpec) (peers : List PeerSpec) : Prop where
  lines : ∀ line ∈ (renderConf iface peers).splitOn '\n', KnownLine line
  oneInterface : ((renderConf iface peers).splitOn '\n').count ("[Interface]" : Str) = 1
  prefixes : ∀ cidr ∈ networks iface peers, PrefixInRange cidr
  readBack : readConf (renderConf iface peers) = some (iface.tunnel, peers.map PeerSpec.tunnel)

theorem permitted_confLines {iface : InterfaceSpec} {peers : List PeerSpec}
    (hiface : CheckedInterface iface) (hpeers : ∀ p ∈ peers, CheckedPeer p) :
    ∀ l ∈ confLines iface peers, Permitted l := by
  have hhead : ∀ l ∈ headLines, Permitted l := by
    simp only [headLines, List.mem_cons, List.not_mem_nil, or_false, forall_eq_or_imp, forall_eq,
      Permitted, and_true]
    exact ⟨by decide, by decide⟩
  rintro l hl
  rcases List.mem_append.mp hl with hl | hl
  · exact hhead l hl
  · rcases List.mem_cons.mp hl with rfl | hl
    · exact .inl rfl
    · rcases List.mem_append.mp hl with hl | hl
      · exact hiface.permitted l hl
      · obtain ⟨p, hp, hl⟩ := List.mem_flatMap.mp hl
        exact (hpeers p hp).permitted l hl

theorem interface_not_mem_fieldLines (fields : List (Str × Str)) (name : Str) :
    Line.header name ∉ fieldLines fields := by
  simp [fieldLines]

theorem count_interface (iface : InterfaceSpec) (peers : List PeerSpec) :
    (confLines iface peers).count (.header "Interface") = 1 := by
  have hhead : headLines.count (.header "Interface") = 0 := rfl
  have hpeers : Line.header "Interface" ∉ peers.flatMap peerLines := by
    intro hmem
    obtain ⟨p, hp, hmem⟩ := List.mem_flatMap.mp hmem
    have hcomment : ∀ name, Line.header name ∉ commentLines p.description := by
      rintro name
      unfold commentLines
      split <;> simp
    rw [peerLines, List.mem_cons, List.mem_append, List.mem_cons] at hmem
    rcases hmem with hblank | hmem | hname | hmem
    · contradiction
    · exact hcomment _ hmem
    · exact absurd hname (by decide)
    · exact interface_not_mem_fieldLines _ _ hmem
  rw [confLines, List.count_append, hhead, List.count_cons_self, List.count_append,
    List.count_eq_zero_of_not_mem (interface_not_mem_fieldLines _ _),
    List.count_eq_zero_of_not_mem hpeers]

theorem count_text {lines : List Line} (h : ∀ l ∈ lines, l.WellFormed) :
    (lines.map Line.text).count ("[Interface]" : Str) = lines.count (.header "Interface") := by
  induction lines with
  | nil => rfl
  | cons l rest ih =>
      have htail := ih fun k hk => h k (List.mem_cons_of_mem l hk)
      have hsame : (l.text == ("[Interface]" : Str)) = (l == .header "Interface") := by
        rw [Bool.eq_iff_iff, beq_iff_eq, beq_iff_eq]
        constructor
        · intro htext
          have hread := Ini.readLine_text (h l List.mem_cons_self)
          rw [htext] at hread
          exact (Option.some.inj hread).symm
        · rintro rfl
          rfl
      rw [List.map_cons, List.count_cons, List.count_cons, htail, hsame]

section Accepted

variable {iface : InterfaceSpec} {peers : List PeerSpec}

theorem checked_of_validateConfig (h : validateConfig iface peers = .ok ()) :
    CheckedInterface iface ∧ ∀ p ∈ peers, CheckedPeer p := by
  simp only [validateConfig, check_seq_eq_ok, reject_eq_ok] at h
  exact ⟨checkedInterface h.1, checkedPeers h.2.2⟩

theorem shape_of_mem_networks (h : validateConfig iface peers = .ok ()) {cidr : Str}
    (hcidr : cidr ∈ networks iface peers) : CidrShape cidr := by
  have hchecked := checked_of_validateConfig h
  rcases List.mem_append.mp hcidr with haddress | hallowed
  · exact hchecked.1.addresses cidr haddress
  · obtain ⟨p, hp, hmem⟩ := List.mem_flatMap.mp hallowed
    exact (hchecked.2 p hp).allowedIps cidr hmem

theorem splitOn_renderConf (h : validateConfig iface peers = .ok ()) :
    (renderConf iface peers).splitOn '\n' = (confLines iface peers).map Line.text ++ [[]] := by
  have hchecked := checked_of_validateConfig h
  rw [renderConf_eq]
  exact Ini.splitOn_render fun l hl => (permitted_confLines hchecked.1 hchecked.2 l hl).wellFormed

theorem readConf_renderConf (h : validateConfig iface peers = .ok ()) :
    readConf (renderConf iface peers) = some (iface.tunnel, peers.map PeerSpec.tunnel) := by
  have hchecked := checked_of_validateConfig h
  have hread : Ini.read (renderConf iface peers) = some (confLines iface peers) := by
    rw [renderConf_eq]
    exact Ini.read_render fun l hl => (permitted_confLines hchecked.1 hchecked.2 l hl).wellFormed
  have hpeers : (peers.map fun p => (⟨"Peer", peerFields p⟩ : Ini.Section)).map readPeer =
      peers.map PeerSpec.tunnel := by
    rw [List.map_map]
    exact List.map_congr_left fun p hp => readPeer_peerFields (hchecked.2 p hp) "Peer"
  have hcollect : (Ini.read (renderConf iface peers)).map Ini.collect = some ([],
      ⟨"Interface", ifaceFields iface⟩ :: peers.map fun p => ⟨"Peer", peerFields p⟩) := by
    rw [hread, Option.map_some, collect_confLines]
  have hnames : ∀ p ∈ peers.map fun p => (⟨"Peer", peerFields p⟩ : Ini.Section),
      p.name = "Peer" := by
    rintro p hp
    obtain ⟨q, -, rfl⟩ := List.mem_map.mp hp
    rfl
  rw [readConf_of_collect hcollect rfl hnames, readInterface_ifaceFields hchecked.1, hpeers]

/-- An accepted configuration is written faithfully as long as no prefix wraps in a `long`. -/
theorem rendered_config_faithful_iff (h : validateConfig iface peers = .ok ()) :
    Faithful iface peers ↔
      ∀ cidr ∈ networks iface peers, decimalValue (cidrPrefix cidr) < 2 ^ 64 := by
  have hchecked := checked_of_validateConfig h
  have hpermitted := permitted_confLines hchecked.1 hchecked.2
  constructor
  · intro hfaithful cidr hcidr
    exact (prefixInRange_iff (shape_of_mem_networks h hcidr)).mp (hfaithful.prefixes cidr hcidr)
  · intro hvalues
    have hlines : ∀ line ∈ (renderConf iface peers).splitOn '\n', KnownLine line := by
      rw [splitOn_renderConf h]
      rintro line hline
      rcases List.mem_append.mp hline with hline | hline
      · obtain ⟨l, hl, rfl⟩ := List.mem_map.mp hline
        exact (hpermitted l hl).knownLine
      · exact .inl (List.mem_singleton.mp hline)
    have hone : ((renderConf iface peers).splitOn '\n').count ("[Interface]" : Str) = 1 := by
      rw [splitOn_renderConf h, List.count_append,
        count_text fun l hl => (hpermitted l hl).wellFormed, count_interface]
      rfl
    have hprefixes : ∀ cidr ∈ networks iface peers, PrefixInRange cidr := fun cidr hcidr =>
      (prefixInRange_iff (shape_of_mem_networks h hcidr)).mpr (hvalues cidr hcidr)
    exact ⟨hlines, hone, hprefixes, readConf_renderConf h⟩

end Accepted

def exampleKey : Str := "AAAAAAAAAAAAAAAAAAAAAAAAAAAAAAAAAAAAAAAAAAA="

def exampleInterface (address : Str) : InterfaceSpec :=
  { privateKey := exampleKey, addresses := [address], listenPort := "51820" }

def examplePeer : PeerSpec :=
  { publicKey := exampleKey
    allowedIps := ["0.0.0.0/0", "::/0"]
    endpoint := "vpn.example.org:51820"
    persistentKeepalive := "25"
    description := "office" }

theorem example_config_faithful : Faithful (exampleInterface "10.0.0.1/24") [examplePeer] :=
  (rendered_config_faithful_iff (by decide)).mpr (by decide)

/-- The prefix is 2^64, which a `long` cannot tell from 0. -/
theorem wrapped_prefix_is_accepted :
    validateConfig (exampleInterface "10.0.0.1/18446744073709551616") [examplePeer] = .ok () ∧
      ¬Faithful (exampleInterface "10.0.0.1/18446744073709551616") [examplePeer] := by
  have haccepted : validateConfig (exampleInterface "10.0.0.1/18446744073709551616") [examplePeer] =
      .ok () := by decide
  constructor
  · exact haccepted
  · intro hfaithful
    have hrange : decimalValue (cidrPrefix "10.0.0.1/18446744073709551616") ≤
        if isV4 (cidrHost "10.0.0.1/18446744073709551616") then 32 else 128 :=
      hfaithful.prefixes _ (by decide)
    exact absurd hrange (by decide)

end Crate.WireguardPure
