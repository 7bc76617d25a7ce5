import Crate.Firewall.Ipfw
import Crate.Spec.Fields

/-!
# Outbound classes in NAT mode

`setupFirewallRules` of `lib/run_net.cpp`: the rules a container gets for its
published ports and for the classes `wan`, `lan`, `host` and `dns`.  Which rule a
packet meets first decides what becomes of it.
-/

namespace Crate.Spec

/-- `Spec::NetOptDetails::allowOutbound`. -/
def NetOptDetails.allowOutbound (o : NetOptDetails) : Bool :=
  o.outboundWan || o.outboundLan || o.outboundHost || o.outboundDns

def NetOptDetails.allowInbound (o : NetOptDetails) : Bool :=
  !o.inboundPortsTcp.isEmpty || !o.inboundPortsUdp.isEmpty

end Crate.Spec

namespace Crate.RunNet.Outbound

open Crate.Foundation
open Crate.IpfwOps (Rule addRule Ordered find?_foldl_addRule)
open Crate.Spec (NetOptDetails)
open Crate.Spec.NetOptDetails (PortRange)

structure Cidr where
  base : UInt32
  prefixLen : Nat
  deriving DecidableEq, Repr

def Cidr.contains (c : Cidr) (a : UInt32) : Bool :=
  a.toNat / 2 ^ (32 - c.prefixLen) = c.base.toNat / 2 ^ (32 - c.prefixLen)

inductive Proto where
  | tcp
  | udp
  /-- Any other protocol, by its number. -/
  | other (n : Nat)
  deriving DecidableEq, Repr

/-- Where a packet of the jail is: it has come in on the epair, or leaves through an interface. -/
inductive Pass where
  | epair
  | xmit (iface : Str)
  deriving DecidableEq, Repr

/-- An IPv4 packet. -/
structure Packet where
  src : UInt32
  dst : UInt32
  proto : Proto
  sport : Nat
  dport : Nat
  pass : Pass
  deriving DecidableEq, Repr

/-! ## Rules -/

inductive Verdict where
  | nat (natNo : Nat)
  | allow
  | deny
  /-- `fwd <IPv6 address>,<ports>`. -/
  | fwd (addr : Str) (ports : PortRange)
  deriving DecidableEq, Repr

inductive ProtoWord where
  | tcp
  | udp
  | all
  | ip
  | ip6
  deriving DecidableEq, Repr

inductive AddrWord where
  | any
  | addr (a : UInt32)
  | net (c : Cidr)
  | me
  | me6
  | addr6 (a : Str)
  deriving DecidableEq, Repr

inductive Clause where
  | always
  | inward
  | inRecv (iface : Str)
  | outXmit (iface : Str)
  deriving DecidableEq, Repr

structure RuleBody where
  verdict : Verdict
  proto : ProtoWord
  src : AddrWord
  srcPorts : Option PortRange := none
  dst : AddrWord
  dstPorts : Option PortRange := none
  clause : Clause := .always
  deriving DecidableEq, Repr

def ProtoWord.covers : ProtoWord → Proto → Bool
  | .tcp, p => p = .tcp
  | .udp, p => p = .udp
  | .all, _ => true
  | .ip, _ => true
  | .ip6, _ => false

/-- `me` stands for the addresses of the host; no IPv4 address is an IPv6 address. -/
def AddrWord.covers (me : UInt32 → Bool) : AddrWord → UInt32 → Bool
  | .any, _ => true
  | .addr b, a => a = b
  | .net c, a => c.contains a
  | .me, a => me a
  | .me6, _ => false
  | .addr6 _, _ => false

def portsCover : Option PortRange → Nat → Bool
  | none, _ => true
  | some r, port => r.1 ≤ port && port ≤ r.2

/-- A packet of the jail does not come in through the gateway. -/
def Clause.covers : Clause → Pass → Bool
  | .always, _ => true
  | .inward, pass => pass = .epair
  | .inRecv _, _ => false
  | .outXmit iface, pass => pass = .xmit iface

def RuleBody.covers (me : UInt32 → Bool) (b : RuleBody) (p : Packet) : Bool :=
  b.proto.covers p.proto && b.src.covers me p.src && portsCover b.srcPorts p.sport &&
    b.dst.covers me p.dst && portsCover b.dstPorts p.dport && b.clause.covers p.pass

/-! ## What `setupFirewallRules` adds -/

structure GatewayInfo where
  iface : Str
  hostIP : UInt32
  hostLAN : Cidr

structure Setup where
  optionNet : NetOptDetails
  ipB : UInt32
  gw : GatewayInfo
  fwSlot : Nat
  nameserverIp : UInt32
  ipv6Addr : Str
  ipv6Iface : Str
  /-- 0 when the users are counted in a file, 1 and 2 for the first and a later lease. -/
  sharedMode : Nat
  /-- `FwUsers` is empty. -/
  noUsers : Bool

def fwSlotSize : Nat := 10

def fwRuleRangeInBase : Nat := 10000

def fwRuleRangeOutBase : Nat := 50000

namespace Setup

variable (s : Setup)

def hasV6 : Bool := !s.ipv6Addr.isEmpty

def fwRuleInNo : Nat := fwRuleRangeInBase + s.fwSlot * fwSlotSize + 1

def fwRule6InNo : Nat := fwRuleRangeInBase + s.fwSlot * fwSlotSize + 2

def fwRuleOutNo : Nat := fwRuleRangeOutBase + s.fwSlot * fwSlotSize + 1

def fwRule6OutNo : Nat := fwRuleRangeOutBase + s.fwSlot * fwSlotSize + 2

/-- Into the container and back, for one pair of port ranges. -/
def inboundPair (proto : ProtoWord) (rangePair : PortRange × PortRange) : List RuleBody :=
  [{ verdict := .nat s.fwRuleInNo
     proto := proto
     src := .any
     dst := .addr s.gw.hostIP
     dstPorts := some rangePair.1
     clause := .inRecv s.gw.iface },
   { verdict := .nat s.fwRuleInNo
     proto := proto
     src := .addr s.ipB
     srcPorts := some rangePair.2
     dst := .any
     clause := .outXmit s.gw.iface }]

def inboundRules : List RuleBody :=
  s.optionNet.inboundPortsTcp.flatMap (s.inboundPair .tcp) ++
    s.optionNet.inboundPortsUdp.flatMap (s.inboundPair .udp)

def inbound6Rule (proto : ProtoWord) (rangePair : PortRange × PortRange) : RuleBody where
  verdict := .fwd s.ipv6Addr rangePair.2
  proto := proto
  src := .any
  dst := .me6
  dstPorts := some rangePair.1
  clause := .inward

def inbound6Rules : List RuleBody :=
  if s.hasV6 then
    s.optionNet.inboundPortsTcp.map (s.inbound6Rule .tcp) ++
      s.optionNet.inboundPortsUdp.map (s.inbound6Rule .udp)
  else []

def commonRules : List RuleBody :=
  if (s.sharedMode = 0 ∧ s.noUsers = true) ∨ s.sharedMode = 1 then
    [{ verdict := .nat fwRuleRangeOutBase
       proto := .all
       src := .any
       dst := .addr s.gw.hostIP
       clause := .inRecv s.gw.iface }]
  else []

/-- First the way to the name server, then the bans, then everything else. -/
def outboundRules : List RuleBody :=
  (if s.optionNet.outboundDns then
    [{ verdict := .nat fwRuleRangeOutBase
       proto := .udp
       src := .addr s.ipB
       dst := .addr s.nameserverIp
       dstPorts := some (53, 53)
       clause := .outXmit s.gw.iface },
     { verdict := .allow
       proto := .udp
       src := .addr s.ipB
       dst := .addr s.nameserverIp
       dstPorts := some (53, 53) }]
  else []) ++
  [{ verdict := .deny
     proto := .udp
     src := .addr s.ipB
     dst := .any
     dstPorts := some (53, 53) }] ++
  (if s.optionNet.outboundHost then []
  else
    [{ verdict := .deny
       proto := .ip
       src := .addr s.ipB
       dst := .me }]) ++
  (if s.optionNet.outboundLan then []
  else
    [{ verdict := .deny
       proto := .ip
       src := .addr s.ipB
       dst := .net s.gw.hostLAN }]) ++
  [{ verdict := .nat fwRuleRangeOutBase
     proto := .all
     src := .addr s.ipB
     dst := .any
     clause := .outXmit s.gw.iface }]

def outbound6Rules : List RuleBody :=
  if s.hasV6 then
    let v6Iface := if s.ipv6Iface.isEmpty then s.gw.iface else s.ipv6Iface
    (if s.optionNet.outboundDns then
      [{ verdict := .allow
         proto := .udp
         src := .addr6 s.ipv6Addr
         dst := .any
         dstPorts := some (53, 53) }]
    else []) ++
    [{ verdict := .deny
       proto := .udp
       src := .addr6 s.ipv6Addr
       dst := .any
       dstPorts := some (53, 53) }] ++
    (if s.optionNet.outboundHost then []
    else
      [{ verdict := .deny
         proto := .ip6
         src := .addr6 s.ipv6Addr
         dst := .me6 }]) ++
    [{ verdict := .allow
       proto := .ip6
       src := .addr6 s.ipv6Addr
       dst := .any
       clause := .outXmit v6Iface },
     { verdict := .allow
       proto := .ip6
       src := .any
       dst := .addr6 s.ipv6Addr
       clause := .inRecv v6Iface }]
  else []

def numbered (number : Nat) (bodies : List RuleBody) : List (Rule RuleBody) :=
  bodies.map (fun b => ⟨number, b⟩)

/-- The rules in the order in which they are added. -/
def setupFirewallRules : List (Rule RuleBody) :=
  (if s.optionNet.allowInbound then
    numbered s.fwRuleInNo s.inboundRules ++ numbered s.fwRule6InNo s.inbound6Rules
  else []) ++
  if s.optionNet.allowOutbound then
    numbered fwRuleRangeOutBase s.commonRules ++ numbered s.fwRuleOutNo s.outboundRules ++
      numbered s.fwRule6OutNo s.outbound6Rules
  else []

/-- The list of rules after them. -/
def rules : List (Rule RuleBody) :=
  s.setupFirewallRules.foldl (fun rules r => addRule rules r.number r.body) []

def verdict (me : UInt32 → Bool) (p : Packet) : Option Verdict :=
  (s.rules.find? (fun r => r.body.covers me p)).map (fun r => r.body.verdict)

/-! ## Classes -/

/-- The class of a packet is enabled; port 53 other than the name server's has none. -/
def classEnabled (me : UInt32 → Bool) (p : Packet) : Bool :=
  if p.proto = .udp ∧ p.dport = 53 then p.dst = s.nameserverIp && s.optionNet.outboundDns
  else if me p.dst then s.optionNet.outboundHost
  else if s.gw.hostLAN.contains p.dst then s.optionNet.outboundLan
  else s.optionNet.outboundWan

/-- The packet leaves through the gateway, from a port that is published. -/
def fromPublished (p : Packet) : Bool :=
  p.pass = .xmit s.gw.iface &&
    match p.proto with
    | .tcp => s.optionNet.inboundPortsTcp.any (fun pair => portsCover (some pair.2) p.sport)
    | .udp => s.optionNet.inboundPortsUdp.any (fun pair => portsCover (some pair.2) p.sport)
    | .other _ => false

/--
A packet from a published port is of a class that is enabled.  Any other that is
not for port 53 is not for a host in its own LAN with `host` and without `lan`,
nor for the WAN without `wan`.
-/
def ClassCounts (me : UInt32 → Bool) (p : Packet) : Prop :=
  (s.fromPublished p = true → s.classEnabled me p = true) ∧
    (s.fromPublished p = false → ¬(p.proto = .udp ∧ p.dport = 53) →
      (me p.dst = true → s.optionNet.outboundHost = true →
        s.optionNet.outboundLan = true ∨ s.gw.hostLAN.contains p.dst = false) ∧
      (me p.dst = false → s.gw.hostLAN.contains p.dst = false → s.optionNet.outboundWan = true))

/-! ## The first rule -/

variable {s} {me : UInt32 → Bool} {p : Packet}

theorem not_covers_inbound6Rules : ∀ b ∈ s.inbound6Rules, b.covers me p = false := by
  intro b hb
  unfold inbound6Rules at hb
  split at hb
  · rcases List.mem_append.mp hb with hb | hb <;> obtain ⟨pair, -, rfl⟩ := List.mem_map.mp hb <;>
      simp [RuleBody.covers, inbound6Rule, AddrWord.covers]
  · exact absurd hb List.not_mem_nil

theorem not_covers_commonRules : ∀ b ∈ s.commonRules, b.covers me p = false := by
  intro b hb
  unfold commonRules at hb
  split at hb
  · rw [List.mem_singleton.mp hb]
    simp [RuleBody.covers, Clause.covers]
  · exact absurd hb List.not_mem_nil

theorem not_covers_outbound6Rules : ∀ b ∈ s.outbound6Rules, b.covers me p = false := by
  have hsrc : ∀ b ∈ s.outbound6Rules, b.src = .addr6 s.ipv6Addr ∨ b.dst = .addr6 s.ipv6Addr := by
    intro b hb
    unfold outbound6Rules at hb
    split at hb
    · simp only [List.mem_append, List.mem_cons, List.not_mem_nil, or_false] at hb
      rcases hb with ((hb | rfl) | hb) | (rfl | rfl)
      · split at hb
        · rw [List.mem_singleton.mp hb]
          exact .inl rfl
        · exact absurd hb List.not_mem_nil
      · exact .inl rfl
      · split at hb
        · exact absurd hb List.not_mem_nil
        · rw [List.mem_singleton.mp hb]
          exact .inl rfl
      · exact .inl rfl
      · exact .inr rfl
    · exact absurd hb List.not_mem_nil
  intro b hb
  rcases hsrc b hb with h | h <;> simp [RuleBody.covers, h, AddrWord.covers]

theorem find?_numbered (number : Nat) (bodies : List RuleBody) :
    (numbered number bodies).find? (fun r => r.body.covers me p) =
      (bodies.find? (·.covers me p)).map (fun b => ⟨number, b⟩) := by
  rw [numbered, List.find?_map]
  rfl

theorem filter_numbered_eq_nil {bodies : List RuleBody} (h : ∀ b ∈ bodies, b.covers me p = false)
    (number : Nat) : (numbered number bodies).filter (fun r => r.body.covers me p) = [] := by
  rw [List.filter_eq_nil_iff]
  intro r hr
  obtain ⟨b, hb, rfl⟩ := List.mem_map.mp hr
  rw [h b hb]
  exact Bool.false_ne_true

theorem number_of_mem_filter {number : Nat} {bodies : List RuleBody} {r : Rule RuleBody}
    (h : r ∈ (numbered number bodies).filter (fun r => r.body.covers me p)) :
    r.number = number := by
  obtain ⟨b, -, rfl⟩ := List.mem_map.mp (List.mem_filter.mp h).1
  rfl

theorem inboundRules_eq_nil (h : ¬s.optionNet.allowInbound = true) : s.inboundRules = [] := by
  simp only [NetOptDetails.allowInbound, Bool.or_eq_true, Bool.not_eq_true', not_or,
    Bool.not_eq_false, List.isEmpty_iff] at h
  rw [inboundRules, h.1, h.2]
  rfl

/-- The rules that can match a packet of the jail: those of its published ports and of its classes. -/
theorem filter_setupFirewallRules (hout : s.optionNet.allowOutbound = true) :
    s.setupFirewallRules.filter (fun r => r.body.covers me p) =
      (numbered s.fwRuleInNo s.inboundRules).filter (fun r => r.body.covers me p) ++
        (numbered s.fwRuleOutNo s.outboundRules).filter (fun r => r.body.covers me p) := by
  have hin : (if s.optionNet.allowInbound then
      numbered s.fwRuleInNo s.inboundRules ++ numbered s.fwRule6InNo s.inbound6Rules
      else []).filter (fun r => r.body.covers me p) =
        (numbered s.fwRuleInNo s.inboundRules).filter (fun r => r.body.covers me p) := by
    split
    · rw [List.filter_append, filter_numbered_eq_nil not_covers_inbound6Rules, List.append_nil]
    · rename_i hno
      rw [inboundRules_eq_nil hno]
      rfl
  rw [setupFirewallRules, List.filter_append, hin, if_pos hout, List.filter_append,
    List.filter_append, filter_numbered_eq_nil not_covers_commonRules,
    filter_numbered_eq_nil not_covers_outbound6Rules, List.nil_append, List.append_nil]

theorem ordered_filter (hout : s.optionNet.allowOutbound = true) :
    Ordered (s.setupFirewallRules.filter (fun r => r.body.covers me p)) := by
  have hblock : ∀ number bodies,
      Ordered ((numbered number bodies).filter (fun r => r.body.covers me p)) := by
    intro number bodies
    refine List.Pairwise.imp_of_mem (R := fun _ _ => True) ?_
      (List.pairwise_of_forall fun _ _ => trivial)
    intro a b ha hb _
    rw [number_of_mem_filter ha, number_of_mem_filter hb]
  rw [filter_setupFirewallRules hout]
  refine List.pairwise_append.mpr ⟨hblock _ _, hblock _ _, ?_⟩
  intro a ha b hb
  rw [number_of_mem_filter ha, number_of_mem_filter hb]
  simp only [fwRuleInNo, fwRuleOutNo, fwRuleRangeInBase, fwRuleRangeOutBase]
  omega

/-- The first rule for a published port, and if there is none the first of the classes. -/
theorem verdict_eq (hout : s.optionNet.allowOutbound = true) :
    s.verdict me p = ((s.inboundRules.find? (·.covers me p)).or
      (s.outboundRules.find? (·.covers me p))).map RuleBody.verdict := by
  rw [verdict, rules, find?_foldl_addRule (ordered_filter hout), ← List.head?_filter,
    filter_setupFirewallRules hout, List.head?_append, List.head?_filter, List.head?_filter,
    find?_numbered, find?_numbered]
  cases s.inboundRules.find? (·.covers me p) with
  | some b => rfl
  | none => cases s.outboundRules.find? (·.covers me p) <;> rfl

theorem covers_inboundPair (hsrc : p.src = s.ipB) {proto : ProtoWord}
    {pair : PortRange × PortRange} :
    (∃ b ∈ s.inboundPair proto pair, b.covers me p = true) ↔
      proto.covers p.proto = true ∧ portsCover (some pair.2) p.sport = true ∧
        p.pass = .xmit s.gw.iface := by
  simp only [inboundPair, List.mem_cons, List.not_mem_nil, or_false, exists_eq_or_imp,
    exists_eq_left, RuleBody.covers, AddrWord.covers, Clause.covers, hsrc, Bool.false_eq_true,
    Bool.and_eq_true, decide_true, decide_eq_true_eq, and_true]
  constructor
  · rintro (⟨-, hrecv⟩ | ⟨⟨⟨hproto, hports⟩, -⟩, hpass⟩)
    · exact hrecv.elim
    · exact ⟨hproto, hports, hpass⟩
  · rintro ⟨hproto, hports, hpass⟩
    exact .inr ⟨⟨⟨hproto, hports⟩, rfl⟩, hpass⟩

/-- A packet of the jail meets a rule of a published port when it leaves from there. -/
theorem isSome_find?_inboundRules (hsrc : p.src = s.ipB) :
    (s.inboundRules.find? (·.covers me p)).isSome = true ↔ s.fromPublished p = true := by
  have hlist : ∀ (proto : ProtoWord) (pairs : List (PortRange × PortRange)),
      (∃ b ∈ pairs.flatMap (s.inboundPair proto), b.covers me p = true) ↔
        proto.covers p.proto = true ∧ p.pass = .xmit s.gw.iface ∧
          ∃ pair ∈ pairs, portsCover (some pair.2) p.sport = true := by
    intro proto pairs
    constructor
    · rintro ⟨b, hb, hcovers⟩
      obtain ⟨pair, hpair, hb⟩ := List.mem_flatMap.mp hb
      obtain ⟨hproto, hports, hpass⟩ := (covers_inboundPair hsrc).mp ⟨b, hb, hcovers⟩
      exact ⟨hproto, hpass, pair, hpair, hports⟩
    · rintro ⟨hproto, hpass, pair, hpair, hports⟩
      obtain ⟨b, hb, hcovers⟩ := (covers_inboundPair hsrc).mpr ⟨hproto, hports, hpass⟩
      exact ⟨b, List.mem_flatMap.mpr ⟨pair, hpair, hb⟩, hcovers⟩
  rw [List.find?_isSome, inboundRules]
  simp only [List.mem_append, or_and_right, exists_or, hlist, ProtoWord.covers]
  unfold fromPublished
  cases p.proto <;> simp

theorem verdict_of_mem_inboundRules : ∀ b ∈ s.inboundRules, b.verdict = .nat s.fwRuleInNo := by
  intro b hb
  have hpair : ∀ proto pair, ∀ b ∈ s.inboundPair proto pair, b.verdict = .nat s.fwRuleInNo := by
    intro proto pair b hb
    simp only [inboundPair, List.mem_cons, List.not_mem_nil, or_false] at hb
    rcases hb with rfl | rfl <;> rfl
  rcases List.mem_append.mp hb with hb | hb
  · obtain ⟨pair, -, hb⟩ := List.mem_flatMap.mp hb
    exact hpair _ _ b hb
  · obtain ⟨pair, -, hb⟩ := List.mem_flatMap.mp hb
    exact hpair _ _ b hb

theorem find?_ban {ban : RuleBody} (flag : Bool) :
    (if flag then [] else [ban]).find? (·.covers me p) =
      if flag = false ∧ ban.covers me p = true then some ban else none := by
  cases flag with
  | true => rfl
  | false => cases h : ban.covers me p <;> simp [h]

theorem find?_eq_none_of_not_covers {bodies : List RuleBody}
    (h : ∀ b ∈ bodies, b.covers me p = false) : bodies.find? (·.covers me p) = none := by
  rw [List.find?_eq_none]
  intro b hb
  rw [h b hb]
  exact Bool.false_ne_true

/-- Of the rules for the classes, a deny is the first. -/
theorem deny_outboundRules_iff (hsrc : p.src = s.ipB) :
    (s.outboundRules.find? (·.covers me p)).map RuleBody.verdict = some .deny ↔
      if p.proto = .udp ∧ p.dport = 53 then
        ¬(p.dst = s.nameserverIp ∧ s.optionNet.outboundDns = true)
      else
        (me p.dst = true ∧ s.optionNet.outboundHost = false) ∨
          (s.gw.hostLAN.contains p.dst = true ∧ s.optionNet.outboundLan = false) := by
  have hport : portsCover (some (53, 53)) p.dport = decide (p.dport = 53) := by
    simp only [portsCover]
    rw [← Bool.decide_and, decide_eq_decide]
    omega
  unfold outboundRules
  by_cases hdns : p.proto = .udp ∧ p.dport = 53
  · rw [if_pos hdns]
    by_cases hns : p.dst = s.nameserverIp <;> cases hflag : s.optionNet.outboundDns <;>
      by_cases hpass : p.pass = .xmit s.gw.iface <;>
      simp [RuleBody.covers, ProtoWord.covers, AddrWord.covers, Clause.covers, hsrc, hdns, hns,
        hpass, portsCover]
  · rw [if_neg hdns]
    have hproto : ∀ b : RuleBody, b.proto = .udp → b.dstPorts = some (53, 53) →
        b.covers me p = false := by
      intro b hudp hb
      have hfalse : (decide (p.proto = .udp) && decide (p.dport = 53)) = false := by
        rw [← Bool.decide_and, decide_eq_false hdns]
      cases hp : decide (p.proto = .udp) with
      | false => simp [RuleBody.covers, hudp, ProtoWord.covers, hp]
      | true =>
        rw [hp, Bool.true_and] at hfalse
        simp [RuleBody.covers, hb, hport, hfalse]
    rw [List.append_assoc, List.append_assoc, List.append_assoc, List.find?_append,
      find?_eq_none_of_not_covers, Option.none_or, List.find?_append,
      find?_eq_none_of_not_covers, Option.none_or, List.find?_append, List.find?_append,
      find?_ban, find?_ban]
    · have hhost : RuleBody.covers me ⟨.deny, .ip, .addr s.ipB, none, .me, none, .always⟩ p =
          me p.dst := by
        simp [RuleBody.covers, ProtoWord.covers, AddrWord.covers, Clause.covers, hsrc, portsCover]
      have hlan : RuleBody.covers me
          ⟨.deny, .ip, .addr s.ipB, none, .net s.gw.hostLAN, none, .always⟩ p =
            s.gw.hostLAN.contains p.dst := by
        simp [RuleBody.covers, ProtoWord.covers, AddrWord.covers, Clause.covers, hsrc, portsCover]
      rw [hhost, hlan]
      by_cases hbanHost : s.optionNet.outboundHost = false ∧ me p.dst = true
      · simp [hbanHost]
      · rw [if_neg hbanHost, Option.none_or]
        by_cases hbanLan : s.optionNet.outboundLan = false ∧ s.gw.hostLAN.contains p.dst = true
        · simp [hbanLan]
        · rw [if_neg hbanLan, Option.none_or, List.find?_singleton]
          constructor
          · intro h
            split at h <;> cases h
          · rintro (⟨hme, hoff⟩ | ⟨hin, hoff⟩)
            · exact absurd ⟨hoff, hme⟩ hbanHost
            · exact absurd ⟨hoff, hin⟩ hbanLan
    · intro b hb
      rw [List.mem_singleton.mp hb]
      exact hproto _ rfl rfl
    · intro b hb
      split at hb
      · simp only [List.mem_cons, List.not_mem_nil, or_false] at hb
        rcases hb with rfl | rfl
        · exact hproto _ rfl rfl
        · exact hproto _ rfl rfl
      · exact absurd hb List.not_mem_nil

/-- No packet from a published port is refused. -/
theorem verdict_ne_deny (hout : s.optionNet.allowOutbound = true) (hsrc : p.src = s.ipB)
    (hpub : s.fromPublished p = true) : s.verdict me p ≠ some .deny := by
  have hfound : (s.inboundRules.find? (·.covers me p)).isSome = true :=
    (isSome_find?_inboundRules hsrc).mpr hpub
  obtain ⟨b, hb⟩ := Option.isSome_iff_exists.mp hfound
  rw [verdict_eq hout, hb, Option.some_or, Option.map_some,
    verdict_of_mem_inboundRules b (List.mem_of_find?_eq_some hb)]
  intro h
  cases h

/-- Of any other packet the rules for the classes decide. -/
theorem verdict_eq_deny_iff (hout : s.optionNet.allowOutbound = true) (hsrc : p.src = s.ipB)
    (hpub : s.fromPublished p = false) :
    s.verdict me p = some .deny ↔
      if p.proto = .udp ∧ p.dport = 53 then
        ¬(p.dst = s.nameserverIp ∧ s.optionNet.outboundDns = true)
      else
        (me p.dst = true ∧ s.optionNet.outboundHost = false) ∨
          (s.gw.hostLAN.contains p.dst = true ∧ s.optionNet.outboundLan = false) := by
  have hnone : s.inboundRules.find? (·.covers me p) = none := by
    rw [← Option.not_isSome_iff_eq_none, isSome_find?_inboundRules hsrc, hpub]
    exact Bool.false_ne_true
  rw [verdict_eq hout, hnone, Option.none_or, deny_outboundRules_iff hsrc]

/-- When the packets that are refused are those of a class that is not enabled. -/
theorem refused_iff_class_off (me : UInt32 → Bool) (p : Packet)
    (hout : s.optionNet.allowOutbound = true) (hsrc : p.src = s.ipB) :
    (s.verdict me p = some .deny ↔ ¬s.classEnabled me p = true) ↔ s.ClassCounts me p := by
  unfold ClassCounts
  cases hpub : s.fromPublished p with
  | true =>
    have hne : s.verdict me p ≠ some .deny := verdict_ne_deny hout hsrc hpub
    simp [hne]
  | false =>
    rw [verdict_eq_deny_iff hout hsrc hpub]
    by_cases hdns : p.proto = .udp ∧ p.dport = 53
    · simp [classEnabled, hdns]
    · have hclass : s.classEnabled me p = if me p.dst then s.optionNet.outboundHost
          else if s.gw.hostLAN.contains p.dst then s.optionNet.outboundLan
          else s.optionNet.outboundWan := by
        rw [classEnabled, if_neg hdns]
      rw [hclass, if_neg hdns]
      cases hme : me p.dst with
      | false => cases hin : s.gw.hostLAN.contains p.dst <;> simp [hdns]
      | true =>
        cases hin : s.gw.hostLAN.contains p.dst with
        | false => simp [hdns]
        | true => cases s.optionNet.outboundHost <;> simp [hdns]

/-- `outbound: [lan]` on a host at 192.168.1.2 in 192.168.1.0/24. -/
def lanOnly : Setup where
  optionNet := { outboundLan := true }
  ipB := 0x0A000065
  gw := { iface := "em0", hostIP := 0xC0A80102, hostLAN := ⟨0xC0A80100, 24⟩ }
  fwSlot := 0
  nameserverIp := 0xC0A80101
  ipv6Addr := []
  ipv6Iface := []
  sharedMode := 0
  noUsers := true

/-- A TCP segment of the jail for 8.8.8.8, on its way out. -/
def toWan : Packet where
  src := 0x0A000065
  dst := 0x08080808
  proto := .tcp
  sport := 40000
  dport := 443
  pass := .xmit "em0"

/-- A segment of the jail for a neighbour of the host, and one for the host itself. -/
def toLan : Packet := { toWan with dst := 0xC0A80107 }

def toHost : Packet := { toWan with dst := 0xC0A80102 }

theorem lanOnly_refuses_host :
    (∀ p ∈ [toLan, toHost],
      (lanOnly.verdict (fun a => a = 0xC0A80102) p = some .deny ↔
        ¬lanOnly.classEnabled (fun a => a = 0xC0A80102) p = true)) ∧
      lanOnly.verdict (fun a => a = 0xC0A80102) toLan ≠ some .deny ∧
      lanOnly.verdict (fun a => a = 0xC0A80102) toHost = some .deny := by
  have hlan : lanOnly.ClassCounts (fun a => a = 0xC0A80102) toLan :=
    ⟨by decide, fun _ _ => ⟨by decide, by decide⟩⟩
  have hhost : lanOnly.ClassCounts (fun a => a = 0xC0A80102) toHost :=
    ⟨by decide, fun _ _ => ⟨by decide, by decide⟩⟩
  have hlanIff := (refused_iff_class_off (fun a => a = 0xC0A80102) toLan (by decide) rfl).mpr hlan
  have hhostIff := (refused_iff_class_off (fun a => a = 0xC0A80102) toHost (by decide) rfl).mpr hhost
  refine ⟨?_, ?_, hhostIff.mpr (by decide)⟩
  · intro p hp
    rcases List.mem_pair.mp hp with rfl | rfl
    · exact hlanIff
    · exact hhostIff
  · intro hdeny
    exact hlanIff.mp hdeny (by decide)

/-- Without `wan` the segment is sent on through NAT. -/
theorem wan_not_refused :
    ¬∀ (s : Setup) (me : UInt32 → Bool) (p : Packet), s.optionNet.allowOutbound = true →
      me s.gw.hostIP = true → s.gw.hostLAN.contains s.gw.hostIP = true → p.src = s.ipB →
        (s.verdict me p = some .deny ↔ ¬s.classEnabled me p = true) := by
  intro h
  have hdeny := (h lanOnly (fun a => a = 0xC0A80102) toWan (by decide) (by decide) (by decide)
    rfl).mpr (by decide)
  exact absurd hdeny (by decide)

end Setup

end Crate.RunNet.Outbound
