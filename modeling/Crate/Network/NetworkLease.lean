import Crate.Network.Ip6Alloc

/-!
# The lease files

`lib/network_lease.cpp` and `lib/network_lease6.cpp`: every call reads the file,
changes the list and writes it again, all of it under a lock.  No run of calls
leases an address twice.
-/

namespace Crate.NetworkLease

open Crate.Foundation
open Crate.IpAllocPure
open Crate.LeaseFile (Format Pool Call Lease)

def format : Format UInt32 where
  loc := "network-lease"
  header := ["# crate network leases \xe2\x80\x94 managed by crate run / crate clean",
    "# format: <jail-name> <ip>"]
  parseLeaseLine := parseLeaseLine
  formatLeaseLine := formatLeaseLine

def poolOf (n : Network) : Pool UInt32 where
  allocateNext := allocateNext n
  zero := 0
  exhausted := fun count => "pool " ++ formatIp n.base ++ "/" ++ decimal n.prefixLen.toNat ++
    " exhausted (" ++ decimal count ++ " leases active)"

def allocateFor (jail : Str) (n : Network) (file : Str) : Except Str (UInt32 × Str) :=
  LeaseFile.allocateFor format jail (poolOf n) file

def releaseFor (jail file : Str) : Except Str Str := LeaseFile.releaseFor format jail file

theorem format_lawful : format.Lawful (fun n => nameLooksValid n = true) where
  comment := by decide
  read_back := parseLeaseLine_format
  one_line := by
    intro l h
    obtain ⟨-, -, hline, -⟩ := leaseLine_shape h (hasWhitespace_formatIp l.ip)
    rwa [← formatLeaseLine_eq] at hline
  no_comment := by
    intro l h
    obtain ⟨-, -, -, hline⟩ := leaseLine_shape h (hasWhitespace_formatIp l.ip)
    rwa [← formatLeaseLine_eq] at hline

/-- One call, made as a whole under the lock. -/
def step (n : Network) : Str → Call → Str :=
  LeaseFile.step (fun jail => allocateFor jail n) releaseFor

abbrev Sound (n : Network) : Str → List (Lease UInt32) → Prop :=
  LeaseFile.Sound format (fun jail => allocateFor jail n) releaseFor
    (fun name => nameLooksValid name = true) (InPool n) (InPool n)

theorem run_sound {n : Network} (h : Aligned n) (calls : List Call)
    (hnames : ∀ call ∈ calls, nameLooksValid call.jail = true) :
    ∃ leases, Sound n (run (step n) [] calls) leases :=
  LeaseFile.run_sound format_lawful (LeaseFile.Pool.lawful_of_spec (allocateNext_spec h)) calls
    hnames

end Crate.NetworkLease

namespace Crate.NetworkLease6

open Crate.Foundation
open Crate.Ip6AllocPure
open Crate.IpAllocPure (leaseLine_shape)
open Crate.LeaseFile (Format Pool Call Lease)

def format : Format Addr6 where
  loc := "network-lease6"
  header := ["# crate IPv6 leases \xe2\x80\x94 managed by crate run / crate clean",
    "# format: <jail-name> <ip6>"]
  parseLeaseLine := parseLeaseLine6
  formatLeaseLine := formatLeaseLine6

def poolOf (n : Network6) : Pool Addr6 where
  allocateNext := allocateNext n
  zero := zeroAddr
  exhausted := fun count => "IPv6 pool " ++ formatIp6 n.base ++ "/" ++
    decimal n.prefixLen.toNat ++ " exhausted (" ++ decimal count ++ " leases active)"

def allocateFor (jail : Str) (n : Network6) (file : Str) : Except Str (Addr6 × Str) :=
  LeaseFile.allocateFor format jail (poolOf n) file

def releaseFor (jail file : Str) : Except Str Str := LeaseFile.releaseFor format jail file

theorem format_lawful : format.Lawful (fun n => leaseNameLooksValid n = true) where
  comment := by decide
  read_back := parseLeaseLine6_format
  one_line := by
    intro l h
    obtain ⟨-, -, hline, -⟩ := leaseLine_shape h (hasWhitespace_formatIp6 l.ip)
    rwa [← formatLeaseLine6_eq] at hline
  no_comment := by
    intro l h
    obtain ⟨-, -, -, hline⟩ := leaseLine_shape h (hasWhitespace_formatIp6 l.ip)
    rwa [← formatLeaseLine6_eq] at hline

/-- One call, made as a whole under the lock. -/
def step (n : Network6) : Str → Call → Str :=
  LeaseFile.step (fun jail => allocateFor jail n) releaseFor

abbrev Sound (n : Network6) : Str → List (Lease Addr6) → Prop :=
  LeaseFile.Sound format (fun jail => allocateFor jail n) releaseFor
    (fun name => leaseNameLooksValid name = true) (Usable6 n) (Tried6 n)

theorem run_sound {n : Network6} (h : Aligned6 n) (calls : List Call)
    (hnames : ∀ call ∈ calls, leaseNameLooksValid call.jail = true) :
    ∃ leases, Sound n (run (step n) [] calls) leases :=
  LeaseFile.run_sound format_lawful (LeaseFile.Pool.lawful_of_spec (allocateNext_spec h)) calls
    hnames

end Crate.NetworkLease6

namespace Crate.NetworkLeases

open Crate.Foundation
open Crate.LeaseFile (Call)
open Crate.IpAllocPure (parseCidr nameLooksValid aligned_of_parseCidr)
open Crate.Ip6AllocPure (parseCidr6 leaseNameLooksValid aligned6_of_parseCidr6 zeroAddr)

/-- Whatever the calls, the file behind them leases no address twice, in both families. -/
theorem no_address_leased_twice :
    (∀ cidr pool, parseCidr cidr = .ok pool → ∀ calls : List Call,
      (∀ call ∈ calls, nameLooksValid call.jail = true) →
      ∃ leases, NetworkLease.Sound pool (run (NetworkLease.step pool) [] calls) leases) ∧
    ∀ cidr pool, parseCidr6 cidr = .ok pool → ∀ calls : List Call,
      (∀ call ∈ calls, leaseNameLooksValid call.jail = true) →
      ∃ leases, NetworkLease6.Sound pool (run (NetworkLease6.step pool) [] calls) leases := by
  constructor
  · intro cidr pool hpool calls hnames
    exact NetworkLease.run_sound (aligned_of_parseCidr hpool) calls hnames
  · intro cidr pool hpool calls hnames
    exact NetworkLease6.run_sound (aligned6_of_parseCidr6 hpool) calls hnames

/-- A pool with one address, which goes from one jail to another, and a pool with none. -/
theorem smallest_pools :
    (∃ leases, NetworkLease.Sound ⟨0x0a420000, 30⟩
      (run (NetworkLease.step ⟨0x0a420000, 30⟩) []
        [.allocate "web", .allocate "db", .release "web", .allocate "db"]) leases) ∧
    ∃ leases, NetworkLease6.Sound ⟨zeroAddr, 127⟩
      (run (NetworkLease6.step ⟨zeroAddr, 127⟩) [] [.allocate "web", .release "web"]) leases :=
  ⟨no_address_leased_twice.1 "10.66.0.0/30" ⟨0x0a420000, 30⟩ (by decide)
      [.allocate "web", .allocate "db", .release "web", .allocate "db"] (by decide),
    no_address_leased_twice.2 "::/127" ⟨zeroAddr, 127⟩ (by decide)
      [.allocate "web", .release "web"] (by decide)⟩

end Crate.NetworkLeases
