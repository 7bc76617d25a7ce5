import Crate.Foundation.OrdMap
import Crate.Foundation.Text

/-!
# A table in a text file

A map that is kept in a file with one binding in a line.  A reader goes through
the lines, skips those it cannot read and lets the last binding of a key win; a
writer prints the bindings in the order of their keys.
-/

namespace Crate.Foundation

/-- The lines of a file as C strings: each ends at its line break or at a zero byte. -/
def readFileLines (buf : Str) : List Str :=
  (buf.splitOn '\n').map (fun line => line.takeWhile (fun c => c ≠ '\x00'))

variable {κ β : Type} [LinearOrder κ]

def insertLine (parse : Str → Option (κ × β)) (m : OrdMap κ β) (line : Str) : OrdMap κ β :=
  match parse line with
  | some (key, value) => m.insert key value
  | none => m

def readTable (parse : Str → Option (κ × β)) (buf : Str) : OrdMap κ β :=
  (readFileLines buf).foldl (insertLine parse) .empty

def writeTable (format : κ × β → Str) (m : OrdMap κ β) : Str :=
  m.entries.flatMap (fun kv => format kv ++ ['\n'])

/-- A binding whose line is read back. -/
structure ReadsBack (parse : Str → Option (κ × β)) (format : κ × β → Str) (kv : κ × β) : Prop where
  parse : parse (format kv) = some kv
  newline : '\n' ∉ format kv
  zero : '\x00' ∉ format kv

omit [LinearOrder κ] in
theorem readFileLines_flatMap {format : κ × β → Str} {l : List (κ × β)}
    (h : ∀ kv ∈ l, '\n' ∉ format kv ∧ '\x00' ∉ format kv) :
    readFileLines (l.flatMap (fun kv => format kv ++ ['\n'])) = l.map format ++ [[]] := by
  rw [readFileLines, splitOn_flatMap_snoc format _ (fun kv hkv => (h kv hkv).1),
    List.map_append, List.map_map]
  congr 1
  apply List.map_congr_left
  intro kv hkv
  rw [Function.comp_apply, List.takeWhile_eq_self_iff]
  intro c hc
  rw [decide_eq_true_eq]
  rintro rfl
  exact (h kv hkv).2 hc

theorem foldl_insertLine {parse : Str → Option (κ × β)} {format : κ × β → Str}
    {l : List (κ × β)} (h : ∀ kv ∈ l, parse (format kv) = some kv) (m : OrdMap κ β) :
    (l.map format).foldl (insertLine parse) m = l.foldl (fun acc kv => acc.insert kv.1 kv.2) m := by
  induction l generalizing m with
  | nil => rfl
  | cons kv rest ih =>
      obtain ⟨hkv, hrest⟩ := List.forall_mem_cons.mp h
      rw [List.map_cons, List.foldl_cons, List.foldl_cons, insertLine, hkv]
      exact ih hrest _

theorem readTable_flatMap {parse : Str → Option (κ × β)} {format : κ × β → Str}
    {l : List (κ × β)} (h : ∀ kv ∈ l, ReadsBack parse format kv) (hnil : parse [] = none) :
    readTable parse (l.flatMap (fun kv => format kv ++ ['\n'])) =
      l.foldl (fun acc kv => acc.insert kv.1 kv.2) .empty := by
  rw [readTable, readFileLines_flatMap (fun kv hkv => ⟨(h kv hkv).newline, (h kv hkv).zero⟩),
    List.foldl_append, foldl_insertLine (fun kv hkv => (h kv hkv).parse), List.foldl_cons,
    insertLine, hnil]
  rfl

theorem readTable_writeTable {parse : Str → Option (κ × β)} {format : κ × β → Str}
    {m : OrdMap κ β} (h : ∀ kv ∈ m.entries, ReadsBack parse format kv) (hnil : parse [] = none) :
    readTable parse (writeTable format m) = m := by
  rw [writeTable, readTable_flatMap h hnil, OrdMap.foldl_insert_entries]

end Crate.Foundation
