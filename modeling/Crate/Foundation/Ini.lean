import Crate.Foundation.Substring

/-!
# Texts made of sections

A configuration text of blank lines, comments, section headers in brackets and
lines `Key = value`.  Reading such a text line by line gives back the lines it
was made of, and grouping them gives the fields of each section.
-/

namespace Crate.Foundation.Ini

inductive Line where
  | blank
  | comment (text : Str)
  | header (name : Str)
  | field (key value : Str)
  deriving DecidableEq, Repr

def Line.text : Line → Str
  | .blank => []
  | .comment text => '#' :: text
  | .header name => '[' :: (name ++ [']'])
  | .field key value => key ++ (" = " ++ value)

def render (lines : List Line) : Str := lines.flatMap fun l => l.text ++ ['\n']

def readLine : Str → Option Line
  | [] => some .blank
  | '#' :: text => some (.comment text)
  | '[' :: rest => if rest.getLast? = some ']' then some (.header rest.dropLast) else none
  | s => (splitFirst " = " s).map fun parts => .field parts.1 parts.2

/-- Keys are words of letters. -/
def IsKey (key : Str) : Prop := key ≠ [] ∧ ∀ c ∈ key, c.isAlpha = true

def Line.WellFormed : Line → Prop
  | .blank => True
  | .comment text => '\n' ∉ text
  | .header name => '\n' ∉ name
  | .field key value => IsKey key ∧ '\n' ∉ value

theorem IsKey.not_mem {key : Str} (h : IsKey key) {c : Char} (hc : c.isAlpha = false) :
    c ∉ key := by
  intro hmem
  rw [h.2 c hmem] at hc
  contradiction

theorem splitFirst_field {key : Str} (h : IsKey key) (value : Str) :
    splitFirst " = " (key ++ (" = " ++ value)) = some (key, value) := by
  apply splitFirst_append (by decide)
  intro hin
  have hshort := infix_append_of_not_mem (h.not_mem rfl) hin
  exact absurd hshort.length_le (by decide)

theorem newline_not_mem_text {l : Line} (h : l.WellFormed) : '\n' ∉ l.text := by
  cases l with
  | blank => simp [Line.text]
  | comment text =>
      have htext : '\n' ∉ text := h
      simpa [Line.text] using htext
  | header name =>
      have hname : '\n' ∉ name := h
      simpa [Line.text] using hname
  | field key value =>
      have hkey := h.1.not_mem (c := '\n') rfl
      have hvalue := h.2
      simp [Line.text, hkey, hvalue]

theorem readLine_text {l : Line} (h : l.WellFormed) : readLine l.text = some l := by
  cases l with
  | blank => rfl
  | comment text => rfl
  | header name => simp [Line.text, readLine]
  | field key value =>
      have hsplit := splitFirst_field h.1 value
      obtain ⟨c, rest, rfl⟩ := List.exists_cons_of_ne_nil h.1.1
      have hcomment := h.1.not_mem (c := '#') rfl
      have hheader := h.1.not_mem (c := '[') rfl
      rw [Line.text, List.cons_append] at *
      unfold readLine
      split
      · contradiction
      · simp_all
      · simp_all
      · rw [hsplit]
        rfl

theorem splitOn_render {lines : List Line} (h : ∀ l ∈ lines, l.WellFormed) :
    (render lines).splitOn '\n' = lines.map Line.text ++ [[]] :=
  splitOn_flatMap_snoc Line.text lines fun l hl => newline_not_mem_text (h l hl)

/-- The text behind the last line break is not a line. -/
def read (text : Str) : Option (List Line) := (text.splitOn '\n').dropLast.mapM readLine

theorem read_render {lines : List Line} (h : ∀ l ∈ lines, l.WellFormed) :
    read (render lines) = some lines := by
  rw [read, splitOn_render h, List.dropLast_concat]
  induction lines with
  | nil => rfl
  | cons l lines ih =>
      rw [List.map_cons, List.mapM_cons, readLine_text (h l (by simp)),
        ih fun k hk => h k (List.mem_cons_of_mem l hk)]
      rfl

/-! ## Sections -/

structure Section where
  name : Str
  fields : List (Str × Str)
  deriving DecidableEq, Repr

def Section.value (s : Section) (key : Str) : Str := (s.fields.lookup key).getD []

/-- The fields in front of the first header, and the sections. -/
def collect : List Line → List (Str × Str) × List Section
  | [] => ([], [])
  | .blank :: rest => collect rest
  | .comment _ :: rest => collect rest
  | .header name :: rest => ([], ⟨name, (collect rest).1⟩ :: (collect rest).2)
  | .field key value :: rest => ((key, value) :: (collect rest).1, (collect rest).2)

def fieldLines (fields : List (Str × Str)) : List Line :=
  fields.map fun f => .field f.1 f.2

theorem collect_fieldLines (fields : List (Str × Str)) (rest : List Line) :
    collect (fieldLines fields ++ rest) = (fields ++ (collect rest).1, (collect rest).2) := by
  induction fields with
  | nil => rfl
  | cons f fields ih =>
      have hcons : fieldLines (f :: fields) ++ rest =
          .field f.1 f.2 :: (fieldLines fields ++ rest) := rfl
      rw [hcons, collect, ih]
      rfl

/-! ## Lists in a value -/

/-- The entries of a comma-separated value. -/
def csvItems (value : Str) : List Str :=
  (value.splitOn ',').map fun item => item.dropWhile (· = ' ')

theorem csvItems_blank (value : Str) : csvItems (' ' :: value) = csvItems value := by
  obtain ⟨first, rest, hcons⟩ := List.exists_cons_of_ne_nil (List.splitOn_ne_nil ',' value)
  have hsplit : (' ' :: value).splitOn ',' = (' ' :: first) :: rest := by
    rw [List.splitOn_cons_eq_if_modifyHead, hcons]
    rfl
  rw [csvItems, csvItems, hsplit, hcons]
  rfl

theorem dropWhile_blank {item : Str} (h : ' ' ∉ item) : item.dropWhile (· = ' ') = item := by
  cases item with
  | nil => rfl
  | cons c item =>
      have hne : c ≠ ' ' := fun heq => h (by simp [heq])
      simp [hne]

theorem csvItems_intercalate {items : List Str} (hne : items ≠ [])
    (h : ∀ item ∈ items, ',' ∉ item ∧ ' ' ∉ item) :
    csvItems ((", " : Str).intercalate items) = items := by
  induction items with
  | nil => contradiction
  | cons first items ih =>
      obtain ⟨hcomma, hblank⟩ := h first (by simp)
      cases items with
      | nil =>
          rw [List.intercalate_singleton, csvItems, List.splitOn_eq_singleton hcomma]
          simp [dropWhile_blank hblank]
      | cons second rest =>
          have htail := ih (by simp) fun item hitem => h item (List.mem_cons_of_mem first hitem)
          have htext : (", " : Str).intercalate (first :: second :: rest) =
              first ++ ',' :: (' ' :: (", " : Str).intercalate (second :: rest)) := by
            rw [List.intercalate_cons_cons]
            simp
          rw [htext, csvItems, List.splitOn_append_cons_self_of_not_mem hcomma, List.map_cons,
            dropWhile_blank hblank, ← csvItems, csvItems_blank, htail]

theorem mem_intercalate {sep : Str} {items : List Str} {c : Char}
    (h : c ∈ sep.intercalate items) : c ∈ sep ∨ ∃ item ∈ items, c ∈ item := by
  induction items with
  | nil => simp at h
  | cons first items ih =>
      cases items with
      | nil =>
          rw [List.intercalate_singleton] at h
          exact .inr ⟨first, by simp, h⟩
      | cons second rest =>
          rw [List.intercalate_cons_cons, List.mem_append, List.mem_append] at h
          rcases h with (hfirst | hsep) | hrest
          · exact .inr ⟨first, by simp, hfirst⟩
          · exact .inl hsep
          · rcases ih hrest with hsep | ⟨item, hitem, hmem⟩
            · exact .inl hsep
            · exact .inr ⟨item, List.mem_cons_of_mem first hitem, hmem⟩

end Crate.Foundation.Ini
