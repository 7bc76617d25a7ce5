import Crate.Foundation.PathTree
import Crate.Trace.Generate

/-!
# Opened files by their paths

What the draft is given of an opened file, told from the text of its path and
of the home directory alone: a share is named after some components of a path
below the home directory, and elsewhere after the directory of the file.
-/

namespace Crate.TracePure

open Crate.Foundation

/-! ## Paths and directories -/

/-- The home directory without the slashes it may end with. -/
inductive HomeDir (home : Str) : Str → Prop
  | named {dir : Str} {n : Nat} (htext : home = dir ++ List.replicate n '/') (hne : dir ≠ [])
      (hlast : dir.getLast? ≠ some '/') : HomeDir home dir
  | slashes {n : Nat} (htext : home = List.replicate (n + 2) '/') : HomeDir home "/"

section Paths

variable {home p dir rel : Str}

/-- `h` of `homeRelative`. -/
def homeDir (home : Str) : Str :=
  if (home.rdropWhile (· = '/')).isEmpty then "/" else home.rdropWhile (· = '/')

theorem HomeDir.ne_nil (h : HomeDir home dir) : dir ≠ [] := by
  cases h with
  | named htext hne hlast => exact hne
  | slashes htext => decide

end Paths

end Crate.TracePure
