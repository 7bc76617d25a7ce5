import Crate.Foundation.Run
import Crate.Foundation.Substring

/-!
# The line buffer of the status stream

`StatusPure::LineBuffer` turns the bytes read from a status descriptor into
lines.  Completed lines that nobody has read, the line being assembled and the
overflow flag share one string, and the newline that ends an oversize line
clears that string.  So the lines longer than `kMaxLine` are the only ones lost
exactly when every such line ends while no completed line is waiting.
-/

namespace Crate.StatusPure

open Crate.Foundation

def kMaxLine : Nat := 64 * 1024

structure LineBuffer where
  buf : Str := []
  overflow : Bool := false
  deriving DecidableEq, Repr

namespace LineBuffer

/-- What ends with the last newline of the buffer, and the line behind it. -/
def atLastNl (buf : Str) : Str × Str :=
  match splitLast ['\n'] buf with
  | none => ([], buf)
  | some (before, behind) => (before ++ ['\n'], behind)

def feedByte (b : LineBuffer) (ch : Char) : LineBuffer :=
  if ch = '\n' then
    if b.overflow then { buf := [], overflow := false } else { b with buf := b.buf ++ [ch] }
  else if b.overflow then b
  else
    let (finished, current) := atLastNl b.buf
    if current.length ≥ kMaxLine then { buf := finished, overflow := true }
    else { b with buf := b.buf ++ [ch] }

def feed (b : LineBuffer) (data : Str) : LineBuffer := data.foldl feedByte b

def next (b : LineBuffer) : Option (Str × LineBuffer) :=
  if '\n' ∈ b.buf then
    some (b.buf.takeWhile (· ≠ '\n'), { b with buf := (b.buf.dropWhile (· ≠ '\n')).tail })
  else none

def flush (b : LineBuffer) : Option Str × LineBuffer :=
  match b.next with
  | some (line, b') => (some line, b')
  | none =>
      if b.buf = [] ∨ b.overflow then (none, { buf := [], overflow := false })
      else (some b.buf, { b with buf := [] })

theorem length_next {b b' : LineBuffer} {line : Str} (h : b.next = some (line, b')) :
    b'.buf.length < b.buf.length := by
  unfold next at h
  split at h
  · rename_i hnl
    cases h
    have hparts := congrArg List.length (takeWhile_append_tail hnl)
    simp only [List.length_append, List.length_cons] at hparts
    dsimp only
    omega
  · contradiction

theorem length_flush {b b' : LineBuffer} {line : Str} (h : b.flush = (some line, b')) :
    b'.buf.length < b.buf.length := by
  unfold flush at h
  split at h
  · rename_i hnext
    cases h
    exact length_next hnext
  · split at h
    · cases h
    · rename_i hsome
      cases h
      exact List.length_pos_iff.mpr (fun hnil => hsome (.inl hnil))

/-- The lines that `flush` hands out until it returns false. -/
def flushAll (b : LineBuffer) : List Str :=
  match _hflush : b.flush with
  | (none, _) => []
  | (some line, b') => line :: flushAll b'
termination_by b.buf.length
decreasing_by exact length_flush _hflush

theorem flushAll_none {b b' : LineBuffer} (h : b.flush = (none, b')) : b.flushAll = [] := by
  rw [flushAll, h]

theorem flushAll_some {b b' : LineBuffer} {line : Str} (h : b.flush = (some line, b')) :
    b.flushAll = line :: b'.flushAll := by
  rw [flushAll, h]

end LineBuffer

/-! ## The reader of a stream -/

inductive Call
  | feed (data : Str)
  | next

/-- The buffer and the lines that `next` has returned. -/
structure Reader where
  buffer : LineBuffer := {}
  lines : List Str := []

def Reader.step (r : Reader) : Call → Reader
  | .feed data => { r with buffer := r.buffer.feed data }
  | .next =>
      match r.buffer.next with
      | none => r
      | some (line, b) => ⟨b, r.lines ++ [line]⟩

def stream (calls : List Call) : Str :=
  calls.flatMap fun
    | .feed data => data
    | .next => []

/-- The lines that end with a newline, and the last one if it is not empty. -/
def linesOf (s : Str) : List Str :=
  let parts := s.splitOn '\n'
  if parts.getLast? = some [] then parts.dropLast else parts

def shortLines (s : Str) : List Str := (linesOf s).filter (fun line => line.length ≤ kMaxLine)

/-! ## What the buffer holds -/

def joined (lines : List Str) : Str := lines.flatMap (· ++ ['\n'])

@[simp] theorem joined_nil : joined [] = [] := rfl

@[simp] theorem joined_cons (line : Str) (lines : List Str) :
    joined (line :: lines) = line ++ '\n' :: joined lines := by
  simp [joined]

theorem joined_snoc (lines : List Str) (line : Str) :
    joined (lines ++ [line]) = (joined lines ++ line) ++ ['\n'] := by
  simp [joined]

/-- The completed lines that nobody has read, and the line being received. -/
structure Queue where
  unread : List Str := []
  part : Str := []

structure Represents (b : LineBuffer) (q : Queue) : Prop where
  unread_clean : ∀ line ∈ q.unread, '\n' ∉ line
  part_clean : '\n' ∉ q.part
  overflow : b.overflow = decide (kMaxLine < q.part.length)
  buf : b.buf = joined q.unread ++ if b.overflow then [] else q.part

section Represents

variable {b : LineBuffer} {q : Queue}

theorem represents_start : Represents {} {} where
  unread_clean := by simp
  part_clean := by simp
  overflow := by simp
  buf := by simp

theorem atLastNl_joined (lines : List Str) {part : Str} (h : '\n' ∉ part) :
    LineBuffer.atLastNl (joined lines ++ part) = (joined lines, part) := by
  rw [LineBuffer.atLastNl]
  induction lines using List.reverseRecOn with
  | nil =>
      have hnone : splitLast ['\n'] part = none := by
        apply splitLast_eq_none_of_not_infix
        intro hin
        exact h (hin.subset List.mem_cons_self)
      rw [joined_nil, List.nil_append, hnone]
  | append_singleton lines line _ =>
      have hsplit : splitLast ['\n'] ((joined lines ++ line) ++ (['\n'] ++ part)) =
          some (joined lines ++ line, part) :=
        splitLast_append _ (by simpa using h)
      rw [joined_snoc, List.append_assoc, hsplit]

/-- The newline of an oversize line drops the unread lines with it. -/
theorem Represents.feed_newline (h : Represents b q) :
    Represents (b.feedByte '\n')
      ⟨if kMaxLine < q.part.length then [] else q.unread ++ [q.part], []⟩ := by
  have hover := h.overflow
  rw [LineBuffer.feedByte, if_pos rfl]
  by_cases hlong : kMaxLine < q.part.length
  · rw [decide_eq_true hlong] at hover
    rw [if_pos hover, if_pos hlong]
    exact represents_start
  · rw [decide_eq_false hlong] at hover
    rw [if_neg (by simp [hover]), if_neg hlong]
    refine ⟨?_, List.not_mem_nil, by simp [hover], ?_⟩
    · intro line hline
      rcases List.mem_append.mp hline with hold | hnew
      · exact h.unread_clean line hold
      · rw [List.mem_singleton.mp hnew]
        exact h.part_clean
    · simp [h.buf, hover, joined_snoc]

theorem Represents.feed_char (h : Represents b q) {ch : Char} (hch : ch ≠ '\n') :
    Represents (b.feedByte ch) { q with part := q.part ++ [ch] } := by
  have hclean : '\n' ∉ q.part ++ [ch] := by
    simpa using ⟨h.part_clean, hch.symm⟩
  have hover := h.overflow
  rw [LineBuffer.feedByte, if_neg hch]
  by_cases hlong : kMaxLine < q.part.length
  · rw [decide_eq_true hlong] at hover
    rw [if_pos hover]
    refine ⟨h.unread_clean, hclean, ?_, by simp [h.buf, hover]⟩
    simp only [hover, List.length_append, List.length_singleton]
    exact (decide_eq_true (by omega)).symm
  · rw [decide_eq_false hlong] at hover
    have hbuf : b.buf = joined q.unread ++ q.part := by simp [h.buf, hover]
    rw [if_neg (by simp [hover]), hbuf, atLastNl_joined _ h.part_clean]
    dsimp only
    by_cases hfull : q.part.length ≥ kMaxLine
    · rw [if_pos hfull]
      refine ⟨h.unread_clean, hclean, ?_, by simp⟩
      simp only [List.length_append, List.length_singleton]
      exact (decide_eq_true (by omega)).symm
    · rw [if_neg hfull]
      refine ⟨h.unread_clean, hclean, ?_, by simp [hover]⟩
      simp only [hover, List.length_append, List.length_singleton]
      exact (decide_eq_false (by omega)).symm

theorem Represents.next_nil (h : Represents b q) (hnil : q.unread = []) : b.next = none := by
  have hclean : '\n' ∉ b.buf := by
    rw [h.buf, hnil, joined_nil, List.nil_append]
    split
    · exact List.not_mem_nil
    · exact h.part_clean
  exact if_neg hclean

theorem Represents.next_cons (h : Represents b q) {line : Str} {rest : List Str}
    (hcons : q.unread = line :: rest) :
    ∃ b', b.next = some (line, b') ∧ Represents b' { q with unread := rest } := by
  have hline : '\n' ∉ line := h.unread_clean line (by simp [hcons])
  have hbuf : b.buf = line ++ '\n' :: (joined rest ++ if b.overflow then [] else q.part) := by
    rw [h.buf, hcons, joined_cons, List.append_assoc, List.cons_append]
  refine ⟨{ b with buf := joined rest ++ if b.overflow then [] else q.part }, ?_, ?_⟩
  · rw [LineBuffer.next, if_pos (by simp [hbuf])]
    rw [hbuf, takeWhile_append_cons hline, dropWhile_append_cons hline, List.tail_cons]
  · exact ⟨fun other hother => h.unread_clean other (by simp [hcons, hother]),
      h.part_clean, h.overflow, rfl⟩

/-- The unterminated line that is handed out at the end. -/
def lastLine (part : Str) : List Str :=
  if part = [] ∨ kMaxLine < part.length then [] else [part]

theorem Represents.flushAll_eq (h : Represents b q) :
    b.flushAll = q.unread ++ lastLine q.part := by
  induction hunread : q.unread generalizing b q with
  | cons line rest ih =>
      obtain ⟨b', hnext, hrest⟩ := h.next_cons hunread
      have hflush : b.flush = (some line, b') := by rw [LineBuffer.flush, hnext]
      rw [LineBuffer.flushAll_some hflush, ih hrest rfl, List.cons_append]
  | nil =>
      have hnext := h.next_nil hunread
      have hbuf : b.buf = if b.overflow then [] else q.part := by
        rw [h.buf, hunread, joined_nil, List.nil_append]
      have hover : b.overflow = true ↔ kMaxLine < q.part.length := by
        rw [h.overflow, decide_eq_true_eq]
      rw [List.nil_append, lastLine]
      by_cases hlast : q.part = [] ∨ kMaxLine < q.part.length
      · have hempty : b.buf = [] ∨ b.overflow = true := by
          rcases hlast with hnil | hlong
          · left
            rw [hbuf, hnil, ite_self]
          · exact .inr (hover.mpr hlong)
        have hflush : b.flush = (none, {}) := by
          rw [LineBuffer.flush, hnext]
          exact if_pos hempty
        rw [LineBuffer.flushAll_none hflush, if_pos hlast]
      · obtain ⟨hne, hshort⟩ := not_or.mp hlast
        have hplain : b.overflow = false := by simpa [← hover] using hshort
        have hpart : b.buf = q.part := by rw [hbuf, hplain]; rfl
        have hflush : b.flush = (some q.part, { b with buf := [] }) := by
          rw [LineBuffer.flush, hnext]
          dsimp only
          rw [if_neg (by simp [hpart, hne, hplain]), hpart]
        have hdone : ({ b with buf := [] } : LineBuffer).flush = (none, {}) := by
          simp [LineBuffer.flush, LineBuffer.next]
        rw [LineBuffer.flushAll_some hflush, LineBuffer.flushAll_none hdone, if_neg hlast]

end Represents

/-! ## One byte after the other -/

inductive Move
  | byte (ch : Char)
  | next

def movesOf (calls : List Call) : List Move :=
  calls.flatMap fun
    | .feed data => data.map .byte
    | .next => [.next]

def Reader.take (r : Reader) : Move → Reader
  | .byte ch => { r with buffer := r.buffer.feedByte ch }
  | .next => r.step .next

theorem run_feed (r : Reader) (data : Str) :
    run Reader.take r (data.map .byte) = { r with buffer := r.buffer.feed data } := by
  induction data generalizing r with
  | nil => rfl
  | cons ch data ih => exact ih { r with buffer := r.buffer.feedByte ch }

/-- How the stream was cut into chunks does not matter. -/
theorem run_movesOf (calls : List Call) (r : Reader) :
    run Reader.step r calls = run Reader.take r (movesOf calls) := by
  induction calls generalizing r with
  | nil => rfl
  | cons call calls ih =>
      cases call with
      | feed data =>
          have hmoves : movesOf (.feed data :: calls) = data.map .byte ++ movesOf calls := rfl
          have hstep : run Reader.step r (.feed data :: calls) =
              run Reader.step { r with buffer := r.buffer.feed data } calls := rfl
          rw [hmoves, hstep, ih, ← run_feed]
          exact List.foldl_append.symm
      | next => exact ih (r.step .next)

/-! ## Lines that end while others wait -/

/--
What a reader that loses nothing but oversize lines would have seen: the lines
of at most `kMaxLine` bytes that have ended, how many of them `next` has not
returned, and the line being received.
-/
structure Progress where
  finished : List Str := []
  unread : Nat := 0
  part : Str := []

def Progress.step (p : Progress) : Move → Progress
  | .byte ch =>
      if ch = '\n' then
        if kMaxLine < p.part.length then { p with part := [] }
        else ⟨p.finished ++ [p.part], p.unread + 1, []⟩
      else { p with part := p.part ++ [ch] }
  | .next => { p with unread := p.unread - 1 }

/-- No finished line waits when an oversize one ends. -/
def EndsDrained (p : Progress) (e : Move) : Prop :=
  e = .byte '\n' → kMaxLine < p.part.length → p.unread = 0

/-- The reader has returned, or still holds, every finished line. -/
def Complete (r : Reader) (p : Progress) : Prop :=
  ∃ q, Represents r.buffer q ∧ q.part = p.part ∧ q.unread.length = p.unread ∧
    r.lines ++ q.unread = p.finished

/-- The reader has lost a finished line. -/
def Behind (r : Reader) (p : Progress) : Prop :=
  ∃ q, Represents r.buffer q ∧ q.part = p.part ∧
    (r.lines ++ q.unread).length < p.finished.length

section Steps

variable {r : Reader} {p : Progress}

theorem Complete.step (h : Complete r p) {e : Move} (hdrained : EndsDrained p e) :
    Complete (r.take e) (p.step e) := by
  obtain ⟨q, hq, hpart, hcount, hlines⟩ := h
  cases e with
  | byte ch =>
      by_cases hch : ch = '\n'
      · subst hch
        refine ⟨_, hq.feed_newline, ?_⟩
        rw [Progress.step, if_pos rfl, hpart]
        by_cases hlong : kMaxLine < p.part.length
        · have hnone : q.unread = [] := List.length_eq_zero_iff.mp (hcount.trans (hdrained rfl hlong))
          rw [if_pos hlong, if_pos hlong]
          rw [hnone] at hlines hcount
          exact ⟨rfl, hcount, hlines⟩
        · rw [if_neg hlong, if_neg hlong]
          refine ⟨rfl, by simp [hcount], ?_⟩
          rw [← List.append_assoc]
          exact congrArg (· ++ [p.part]) hlines
      · refine ⟨_, hq.feed_char hch, ?_⟩
        rw [Progress.step, if_neg hch]
        exact ⟨congrArg (· ++ [ch]) hpart, hcount, hlines⟩
  | next =>
      cases hunread : q.unread with
      | nil =>
          have hstay : r.take .next = r := by
            rw [Reader.take, Reader.step, hq.next_nil hunread]
          rw [hstay]
          exact ⟨q, hq, hpart, by simp [Progress.step, ← hcount, hunread], hlines⟩
      | cons line rest =>
          obtain ⟨b', hnext, hrest⟩ := hq.next_cons hunread
          have hpop : r.take .next = ⟨b', r.lines ++ [line]⟩ := by
            rw [Reader.take, Reader.step, hnext]
          rw [hpop]
          refine ⟨_, hrest, hpart, by simp [Progress.step, ← hcount, hunread], ?_⟩
          rw [List.append_assoc, List.singleton_append, ← hunread]
          exact hlines

theorem Complete.loses (h : Complete r p) {e : Move} (hwaiting : ¬EndsDrained p e) :
    Behind (r.take e) (p.step e) := by
  obtain ⟨q, hq, hpart, hcount, hlines⟩ := h
  simp only [EndsDrained, Classical.not_imp] at hwaiting
  obtain ⟨rfl, hlong, hunread⟩ := hwaiting
  refine ⟨_, hq.feed_newline, ?_⟩
  rw [Progress.step, if_pos rfl, if_pos hlong, hpart, if_pos hlong]
  refine ⟨rfl, ?_⟩
  have hlength := congrArg List.length hlines
  simp only [Reader.take, List.length_append, List.length_nil] at hlength ⊢
  omega

theorem Behind.step (h : Behind r p) (e : Move) : Behind (r.take e) (p.step e) := by
  obtain ⟨q, hq, hpart, hless⟩ := h
  cases e with
  | byte ch =>
      by_cases hch : ch = '\n'
      · subst hch
        refine ⟨_, hq.feed_newline, ?_⟩
        rw [Progress.step, if_pos rfl, hpart]
        by_cases hlong : kMaxLine < p.part.length
        · rw [if_pos hlong, if_pos hlong]
          refine ⟨rfl, ?_⟩
          simp only [Reader.take, List.length_append, List.length_nil] at hless ⊢
          omega
        · rw [if_neg hlong, if_neg hlong]
          refine ⟨rfl, ?_⟩
          simp only [Reader.take, List.length_append, List.length_singleton] at hless ⊢
          omega
      · refine ⟨_, hq.feed_char hch, ?_⟩
        rw [Progress.step, if_neg hch]
        exact ⟨congrArg (· ++ [ch]) hpart, hless⟩
  | next =>
      cases hunread : q.unread with
      | nil =>
          have hstay : r.take .next = r := by
            rw [Reader.take, Reader.step, hq.next_nil hunread]
          rw [hstay]
          exact ⟨q, hq, hpart, hless⟩
      | cons line rest =>
          obtain ⟨b', hnext, hrest⟩ := hq.next_cons hunread
          have hpop : r.take .next = ⟨b', r.lines ++ [line]⟩ := by
            rw [Reader.take, Reader.step, hnext]
          rw [hpop]
          refine ⟨_, hrest, hpart, ?_⟩
          rwa [List.append_assoc, List.singleton_append, ← hunread]

theorem Behind.run (h : Behind r p) (moves : List Move) :
    Behind (run Reader.take r moves) (run Progress.step p moves) := by
  induction moves generalizing r p with
  | nil => exact h
  | cons e moves ih => exact ih (h.step e)

theorem Complete.run (h : Complete r p) {moves : List Move}
    (hmeet : StepsMeet Progress.step EndsDrained p moves) :
    Complete (run Reader.take r moves) (run Progress.step p moves) := by
  induction moves generalizing r p with
  | nil => exact h
  | cons e moves ih => exact ih (h.step hmeet.1) hmeet.2

theorem Complete.run_loses (h : Complete r p) {moves : List Move}
    (hmeet : ¬StepsMeet Progress.step EndsDrained p moves) :
    Behind (Foundation.run Reader.take r moves) (Foundation.run Progress.step p moves) := by
  induction moves generalizing r p with
  | nil => exact absurd trivial hmeet
  | cons e moves ih =>
      by_cases hdrained : EndsDrained p e
      · exact ih (h.step hdrained) (fun hrest => hmeet ⟨hdrained, hrest⟩)
      · exact (h.loses hdrained).run moves

end Steps

/-! ## The lines of the stream -/

def bytes (moves : List Move) : Str :=
  moves.flatMap fun
    | .byte ch => [ch]
    | .next => []

theorem bytes_movesOf (calls : List Call) : bytes (movesOf calls) = stream calls := by
  induction calls with
  | nil => rfl
  | cons call calls ih =>
      have hcons : bytes (movesOf (call :: calls)) = bytes (movesOf [call]) ++ stream calls := by
        rw [← ih]
        simp [bytes, movesOf]
      rw [hcons]
      cases call with
      | feed data => simp [bytes, movesOf, stream, List.flatMap_map]
      | next => rfl

theorem linesOf_joined {lines : List Str} (hlines : ∀ line ∈ lines, '\n' ∉ line) {part : Str}
    (hpart : '\n' ∉ part) :
    linesOf (joined lines ++ part) = lines ++ if part = [] then [] else [part] := by
  have hsplit : (joined lines ++ part).splitOn '\n' = lines ++ [part] := by
    induction lines with
    | nil => simpa using List.splitOn_eq_singleton hpart
    | cons line lines ih =>
        rw [joined_cons, List.append_assoc, List.cons_append,
          List.splitOn_append_cons_self_of_not_mem (hlines line List.mem_cons_self),
          ih (fun other hother => hlines other (List.mem_cons_of_mem _ hother)), List.cons_append]
  rw [linesOf, hsplit]
  by_cases hnil : part = [] <;> simp [hnil]

theorem shortLines_joined {lines : List Str} (hlines : ∀ line ∈ lines, '\n' ∉ line) {part : Str}
    (hpart : '\n' ∉ part) :
    shortLines (joined lines ++ part) =
      lines.filter (fun line => line.length ≤ kMaxLine) ++ lastLine part := by
  rw [shortLines, linesOf_joined hlines hpart, List.filter_append, lastLine]
  congr 1
  by_cases hnil : part = []
  · rw [if_pos hnil, if_pos (.inl hnil), List.filter_nil]
  · rw [if_neg hnil]
    by_cases hlong : kMaxLine < part.length
    · rw [if_pos (.inr hlong)]
      simpa using hlong
    · rw [if_neg (by simp [hnil, hlong])]
      simpa using hlong

theorem finished_lines (moves : List Move) :
    ∃ lines, (∀ line ∈ lines, '\n' ∉ line) ∧ '\n' ∉ (run Progress.step {} moves).part ∧
      bytes moves = joined lines ++ (run Progress.step {} moves).part ∧
      (run Progress.step {} moves).finished =
        lines.filter (fun line => line.length ≤ kMaxLine) := by
  induction moves using List.reverseRecOn with
  | nil => exact ⟨[], by simp, by simp [run], rfl, rfl⟩
  | append_singleton moves e ih =>
      obtain ⟨lines, hlines, hpart, hbytes, hfinished⟩ := ih
      have hrun : run Progress.step {} (moves ++ [e]) = (run Progress.step {} moves).step e := by
        rw [run, List.foldl_append]
        rfl
      have hmore : bytes (moves ++ [e]) = bytes moves ++ bytes [e] := by simp [bytes]
      rw [hrun, hmore, hbytes]
      generalize run Progress.step {} moves = p at hpart hfinished
      cases e with
      | next => exact ⟨lines, hlines, hpart, by simp [bytes, Progress.step], hfinished⟩
      | byte ch =>
          by_cases hch : ch = '\n'
          · subst hch
            have hboth : ∀ line ∈ lines ++ [p.part], '\n' ∉ line := by
              intro line hline
              rcases List.mem_append.mp hline with hold | hnew
              · exact hlines line hold
              · rwa [List.mem_singleton.mp hnew]
            refine ⟨lines ++ [p.part], hboth, ?_⟩
            rw [Progress.step, if_pos rfl, List.filter_append]
            by_cases hlong : kMaxLine < p.part.length
            · rw [if_pos hlong]
              exact ⟨List.not_mem_nil, by simp [bytes, joined_snoc], by simp [hfinished, hlong]⟩
            · rw [if_neg hlong]
              refine ⟨List.not_mem_nil, by simp [bytes, joined_snoc], ?_⟩
              simp [hfinished, not_lt.mp hlong]
          · refine ⟨lines, hlines, ?_⟩
            rw [Progress.step, if_neg hch]
            exact ⟨by simpa using ⟨hpart, Ne.symm hch⟩, by simp [bytes], hfinished⟩

theorem shortLines_bytes (moves : List Move) :
    shortLines (bytes moves) =
      (run Progress.step {} moves).finished ++ lastLine (run Progress.step {} moves).part := by
  obtain ⟨lines, hlines, hpart, hbytes, hfinished⟩ := finished_lines moves
  rw [hfinished, ← shortLines_joined hlines hpart, ← hbytes]

/-! ## Only oversize lines are lost -/

/-- The lines that `next` returned, and then those that `flush` hands out. -/
def linesRead (calls : List Call) : List Str :=
  let r := run Reader.step {} calls
  r.lines ++ r.buffer.flushAll

theorem complete_start : Complete {} {} :=
  ⟨{}, represents_start, rfl, rfl, rfl⟩

theorem linesRead_of_drained {calls : List Call}
    (hmeet : StepsMeet Progress.step EndsDrained {} (movesOf calls)) :
    linesRead calls = shortLines (stream calls) := by
  obtain ⟨q, hq, hpart, -, hlines⟩ := complete_start.run hmeet
  rw [linesRead, run_movesOf, hq.flushAll_eq, ← List.append_assoc, hlines, hpart, ← bytes_movesOf,
    shortLines_bytes]

theorem length_linesRead_lt {calls : List Call}
    (hmeet : ¬StepsMeet Progress.step EndsDrained {} (movesOf calls)) :
    (linesRead calls).length < (shortLines (stream calls)).length := by
  obtain ⟨q, hq, hpart, hless⟩ := complete_start.run_loses hmeet
  rw [linesRead, run_movesOf, hq.flushAll_eq, ← List.append_assoc, hpart, ← bytes_movesOf,
    shortLines_bytes]
  simp only [List.length_append] at hless ⊢
  omega

theorem linesRead_eq_iff (calls : List Call) :
    linesRead calls = shortLines (stream calls) ↔
      StepsMeet Progress.step EndsDrained {} (movesOf calls) := by
  constructor
  · intro hread
    by_contra hmeet
    exact absurd (congrArg List.length hread) (length_linesRead_lt hmeet).ne
  · exact linesRead_of_drained

theorem drained_behind_text {text : Str} (htext : '\n' ∉ text) {p : Progress} {moves : List Move}
    (h : StepsMeet Progress.step EndsDrained p (text.map .byte ++ moves)) :
    StepsMeet Progress.step EndsDrained { p with part := p.part ++ text } moves := by
  induction text generalizing p with
  | nil => simpa using h
  | cons ch text ih =>
      obtain ⟨hch, hrest⟩ := not_or.mp (mt List.mem_cons.mpr htext)
      have hstep : p.step (.byte ch) = { p with part := p.part ++ [ch] } :=
        if_neg (fun heq => hch heq.symm)
      have htail := h.2
      rw [hstep] at htail
      simpa using ih hrest htail

/-- A line is waiting when an oversize one ends, and is lost with it. -/
theorem waiting_line_lost : ¬∀ calls, linesRead calls = shortLines (stream calls) := by
  intro hall
  let long : Str := List.replicate (kMaxLine + 1) 'x'
  let calls : List Call := [.feed ('a' :: '\n' :: (long ++ ['\n']))]
  have hmoves : movesOf calls =
      .byte 'a' :: .byte '\n' :: (long.map .byte ++ [.byte '\n']) := by
    simp [movesOf, calls]
  have hlost : ¬StepsMeet Progress.step EndsDrained {} (movesOf calls) := by
    rw [hmoves]
    rintro ⟨-, -, hlong⟩
    have hpos : ¬kMaxLine < 1 := by decide
    have hend := (drained_behind_text (by simp [long]) hlong).1 rfl
    simp [Progress.step, long, hpos] at hend
  exact absurd (congrArg List.length (hall calls)) (length_linesRead_lt hlost).ne

end Crate.StatusPure
