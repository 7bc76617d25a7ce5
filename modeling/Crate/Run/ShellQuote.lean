import Crate.Foundation.ShellWords

/-!
# Quoting arguments for the shell

`crate run` pastes its arguments into the command line that `sh` runs in the
jail.  Every argument is put between single quotes and a single quote in it is
written as `'\''`; the shell reads back exactly the arguments.
-/

namespace Crate.Util

open Crate.Foundation

def quoteChar (chr : Char) : Str := if chr = '\'' then "'\\''" else [chr]

def shellQuote (arg : Str) : Str := '\'' :: (arg.flatMap quoteChar ++ ['\''])

end Crate.Util

namespace Crate.RunPure

open Crate.Foundation
open Crate.Util (quoteChar shellQuote)

def argsToString (argv : List Str) : Str := argv.flatMap fun arg => ' ' :: shellQuote arg

section Scan

open Shell

/-- A quote in the argument leaves the quotation, adds an escaped quote and enters it again. -/
theorem scan_quoteChar (chr : Char) (word : List Piece) (rest : Str) :
    scan (.single word) (quoteChar chr ++ rest) = scan (.single (word ++ [.quoted chr])) rest := by
  unfold quoteChar
  split
  · rename_i hchr
    subst hchr
    have hleave : step (.single word) '\'' = some ([], .unquoted (some word)) := rfl
    have hescape : step (.unquoted (some word)) '\\' = some ([], .escaped (some word)) := rfl
    have hquote : step (.escaped (some word)) '\'' =
        some ([], .unquoted (some (word ++ [.quoted '\'']))) := rfl
    have henter : step (.unquoted (some (word ++ [.quoted '\'']))) '\'' =
        some ([], .single (word ++ [.quoted '\''])) := rfl
    calc scan (.single word) ('\'' :: '\\' :: '\'' :: '\'' :: rest)
        = scan (.unquoted (some word)) ('\\' :: '\'' :: '\'' :: rest) := scan_cons_nil hleave _
      _ = scan (.escaped (some word)) ('\'' :: '\'' :: rest) := scan_cons_nil hescape _
      _ = scan (.unquoted (some (word ++ [.quoted '\'']))) ('\'' :: rest) := scan_cons_nil hquote _
      _ = scan (.single (word ++ [.quoted '\''])) rest := scan_cons_nil henter _
  · rename_i hchr
    exact scan_single hchr word rest

theorem scan_quoteChars (arg : Str) (word : List Piece) (rest : Str) :
    scan (.single word) (arg.flatMap quoteChar ++ rest) =
      scan (.single (word ++ arg.map .quoted)) rest := by
  induction arg generalizing word with
  | nil => simp
  | cons chr arg ih =>
      rw [List.flatMap_cons, List.append_assoc, scan_quoteChar, ih, List.append_assoc,
        List.singleton_append, List.map_cons]

/-- A quoted argument is one word, begun even when the argument is empty. -/
theorem scan_shellQuote (arg rest : Str) :
    scan (.unquoted none) (shellQuote arg ++ rest) =
      scan (.unquoted (some (arg.map .quoted))) rest := by
  have henter : step (.unquoted none) '\'' = some ([], .single []) := rfl
  have hleave : step (.single (arg.map .quoted)) '\'' =
      some ([], .unquoted (some (arg.map .quoted))) := rfl
  rw [shellQuote, List.cons_append, scan_cons_nil henter, List.append_assoc, scan_quoteChars,
    List.nil_append, List.singleton_append, scan_cons_nil hleave]

theorem scan_argsToString (argv : List Str) (word : Option (List Piece)) :
    scan (.unquoted word) (argsToString argv) =
      some (ended word ++ argv.map (fun arg => .word (arg.map .quoted))) := by
  induction argv generalizing word with
  | nil => simp [argsToString, scan, finish]
  | cons arg argv ih =>
      have hcons : argsToString (arg :: argv) = ' ' :: (shellQuote arg ++ argsToString argv) := rfl
      rw [hcons, scan_blank, scan_shellQuote, ih]
      rfl

end Scan

theorem mem_argsToString {argv : List Str} {c : Char} (h : c ∈ argsToString argv) :
    c = ' ' ∨ c = '\'' ∨ c = '\\' ∨ ∃ arg ∈ argv, c ∈ arg := by
  obtain ⟨arg, harg, hc⟩ := List.mem_flatMap.mp h
  simp only [shellQuote, List.mem_cons, List.mem_append, List.mem_flatMap, List.not_mem_nil,
    or_false] at hc
  rcases hc with hblank | hquote | ⟨chr, hchr, hc⟩ | hquote
  · exact .inl hblank
  · exact .inr (.inl hquote)
  · unfold quoteChar at hc
    split at hc
    · have hfew : c ∈ ['\'', '\\', '\'', '\''] := hc
      simp only [List.mem_cons, List.not_mem_nil, or_false] at hfew
      rcases hfew with hq | hs | hq | hq
      · exact .inr (.inl hq)
      · exact .inr (.inr (.inl hs))
      · exact .inr (.inl hq)
      · exact .inr (.inl hq)
    · rw [List.mem_singleton.mp hc]
      exact .inr (.inr (.inr ⟨arg, harg, hchr⟩))
  · exact .inr (.inl hquote)

/-- The shell reads the arguments back, each as one word in which everything is quoted. -/
theorem tokens_argsToString {argv : List Str} (h : ∀ arg ∈ argv, '\x00' ∉ arg) :
    Shell.tokens (argsToString argv) =
        some (argv.map (fun arg => .word (arg.map .quoted))) ∧
      (Shell.tokens (argsToString argv)).bind Shell.words = some argv := by
  have hnul : '\x00' ∉ argsToString argv := by
    intro hmem
    rcases mem_argsToString hmem with hc | hc | hc | ⟨arg, harg, hc⟩
    · exact absurd hc (by decide)
    · exact absurd hc (by decide)
    · exact absurd hc (by decide)
    · exact h arg harg hc
  have htokens : Shell.tokens (argsToString argv) =
      some (argv.map (fun arg => .word (arg.map .quoted))) := by
    rw [Shell.tokens, if_neg hnul]
    exact scan_argsToString argv none
  refine ⟨htokens, ?_⟩
  rw [htokens]
  exact Shell.words_quoted argv

theorem tokens_argsToString_hostile :
    (Shell.tokens (argsToString ["", "it's", "~", "#a=b", "\"$(id)\";\n\\"])).bind Shell.words =
      some (["", "it's", "~", "#a=b", "\"$(id)\";\n\\"] : List Str) := by
  have hnul : ∀ arg ∈ (["", "it's", "~", "#a=b", "\"$(id)\";\n\\"] : List Str), '\x00' ∉ arg := by
    decide
  exact (tokens_argsToString hnul).2

end Crate.RunPure
