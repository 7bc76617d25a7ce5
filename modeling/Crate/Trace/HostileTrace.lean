import Crate.Trace.OpenedPaths
import Crate.Trace.SpecLines

/-!
# A traced program and the draft

What a program puts into its system calls goes into scalars and into comments.
A scalar escapes a line feed but not a carriage return, and a comment escapes
nothing.
-/

namespace Crate.TracePure

open Crate.Foundation
open Crate.Foundation.Yaml
open Crate.PrivOpsPure (isAlnum)

/-! ## Scalars read back -/

section Scalar

variable {s rest : Str} {c : Char}

end Scalar

/-! ## Own lines -/

/-- The strings of a line have nothing that would end it. -/
def Line.Quiet : Line → Prop
  | .key _ => True
  | .comment _ rest => Unbroken rest
  | .outbound _ => True
  | .item value => '\r' ∉ value
  | .command value => '\r' ∉ value
  | .share value => '\r' ∉ value
  | .port _ => True

def QuietLines (lines : List Line) : Prop := ∀ l ∈ lines, l.Quiet

section QuietLines

variable {lines : List Line}

@[simp] theorem quiet_nil : QuietLines [] := fun _ h => absurd h List.not_mem_nil

@[simp] theorem quiet_cons {l : Line} : QuietLines (l :: lines) ↔ l.Quiet ∧ QuietLines lines :=
  List.forall_mem_cons

@[simp] theorem quiet_map {α : Type} {f : α → Line} {l : List α} :
    QuietLines (l.map f) ↔ ∀ a ∈ l, (f a).Quiet := List.forall_mem_map

@[simp] theorem quiet_key {k : Key} : (Line.key k).Quiet := trivial

@[simp] theorem quiet_comment {lead : Lead} {rest : Str} :
    (Line.comment lead rest).Quiet ↔ Unbroken rest := Iff.rfl

@[simp] theorem quiet_outbound {classes : List HostClass} : (Line.outbound classes).Quiet := trivial

@[simp] theorem quiet_item {value : Str} : (Line.item value).Quiet ↔ '\r' ∉ value := Iff.rfl

@[simp] theorem quiet_command {value : Str} : (Line.command value).Quiet ↔ '\r' ∉ value := Iff.rfl

@[simp] theorem quiet_share {value : Str} : (Line.share value).Quiet ↔ '\r' ∉ value := Iff.rfl

@[simp] theorem quiet_port {p : Nat} : (Line.port p).Quiet := trivial

end QuietLines

def Summary.Opens (s : Summary) (p : Str) : Prop := p ∈ s.readPaths.elems ∨ p ∈ s.writePaths.elems

section Trace

variable {s : Summary} {inp : Input}

end Trace

/-- `CRATE_VERSION`. -/
def crateVersion : Str := "1.1.70"

end Crate.TracePure
