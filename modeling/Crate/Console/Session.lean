import Crate.Console.Frame

/-!
# The console session

The loop of `runJailSession`: what the client sends is collected in a buffer
and taken from it frame by frame; data goes to the jail's terminal and pings
are answered, and what the shell prints is sent back.  What reaches the
terminal does not depend on how the stream was cut into chunks.  A `Close`
frame ends the loop, but only when the frames behind it in the buffer have been
served as well.
-/

namespace Crate.WsConsole

open Crate.Foundation
open Crate.Foundation.Incremental
open Crate.WsPure

/-- What the session does to the outside. -/
inductive Action
  | write (bytes : Bytes)   -- to the terminal's master side
  | answer (bytes : Bytes)  -- to the client, for a ping
  | output (bytes : Bytes)  -- to the client, what the shell printed
  deriving DecidableEq, Repr

/-- `closed` is set when the loop is left. -/
structure Session where
  wsBuf : Bytes := []
  closed : Bool := false
  log : List Action := []
  deriving DecidableEq, Repr

/-- What one `select` and the reads after it give; an empty read is an end or an error. -/
inductive Round
  | interrupted
  | failed
  | ready (ws shell : Option Bytes)
  deriving DecidableEq, Repr

/-! ## The code -/

/-- The `switch`; its `break`s leave the `switch` only. -/
def dispatch (f : Frame) (s : Session) : Session :=
  match f.opcode with
  | .close => { s with closed := true }
  | .ping => { s with log := s.log ++ [.answer (encodeFrame .pong f.payload)] }
  | .pong => s
  | .text | .binary | .continuation => { s with log := s.log ++ [.write f.payload] }

/-- `while (!wsBuf.empty())`; every frame takes bytes off the buffer. -/
def drainFrames : Nat → Session → Session
  | 0, s => s
  | fuel + 1, s =>
      if s.wsBuf.isEmpty then s
      else
        match parseFrame s.wsBuf with
        | .incomplete => s
        | .error => { s with closed := true }
        | .ok f rest => drainFrames fuel (dispatch f { s with wsBuf := rest })

def serveShell (s : Session) : Option Bytes → Session
  | none => s
  | some [] => { s with closed := true }
  | some out => { s with log := s.log ++ [.output (encodeFrame .binary out)] }

def serveClient (s : Session) (chunk : Bytes) : Session :=
  let buffered := { s with wsBuf := s.wsBuf ++ chunk }
  drainFrames buffered.wsBuf.length buffered

def step (s : Session) : Round → Session
  | .interrupted => s
  | .failed => { s with closed := true }
  | .ready (some []) _ => { s with closed := true }
  | .ready (some chunk) shell => serveShell (serveClient s chunk) shell
  | .ready none shell => serveShell s shell

/-- The rounds of the loop, each of them taken while the session is open. -/
inductive Runs : Session → List Round → Session → Prop
  | stop (s : Session) : Runs s [] s
  | next {s t : Session} {r : Round} {rounds : List Round} :
      s.closed = false → Runs (step s r) rounds t → Runs s (r :: rounds) t

/-! ## What the client sends -/

def chunkOf : Round → Bytes
  | .ready (some chunk) _ => chunk
  | _ => []

def received (rounds : List Round) : Bytes := rounds.flatMap chunkOf

/-- The frames of a stream, up to an unfinished frame or a protocol error. -/
def frames (stream : Bytes) : List Frame := (items parseFrame stream).1

def beforeClose (fs : List Frame) : List Frame := fs.takeWhile (fun f => f.opcode ≠ .close)

/-- The bytes that a frame brings to the terminal. -/
def dataOf (f : Frame) : Bytes :=
  match f.opcode with
  | .text | .binary | .continuation => f.payload
  | .close | .ping | .pong => []

def answersTo (f : Frame) : List Bytes :=
  if f.opcode = .ping then [encodeFrame .pong f.payload] else []

def written (log : List Action) : Bytes :=
  log.flatMap fun
    | .write bytes => bytes
    | .answer _ | .output _ => []

def answered (log : List Action) : List Bytes :=
  log.flatMap fun
    | .answer bytes => [bytes]
    | .write _ | .output _ => []

/-- The stream holds a `Close` frame or a protocol error. -/
def Stopped (stream : Bytes) : Prop :=
  (∃ f ∈ frames stream, f.opcode = .close) ∨ (items parseFrame stream).2 = .broken

/-- From the first `Close` frame on there is no ping and no data. -/
def QuietAfterClose (stream : Bytes) : Prop :=
  ∀ f ∈ (frames stream).dropWhile (fun f => f.opcode ≠ .close), f.opcode ≠ .ping ∧ dataOf f = []

/-! ## One round -/

variable {s t : Session} {f : Frame} {rounds : List Round} {stream sofar : Bytes}

@[simp] theorem written_append (log log' : List Action) :
    written (log ++ log') = written log ++ written log' := List.flatMap_append

@[simp] theorem answered_append (log log' : List Action) :
    answered (log ++ log') = answered log ++ answered log' := List.flatMap_append

theorem written_dispatch (f : Frame) (s : Session) :
    written (dispatch f s).log = written s.log ++ dataOf f := by
  cases hop : f.opcode <;> simp [dispatch, dataOf, hop] <;> simp [written]

theorem answered_dispatch (f : Frame) (s : Session) :
    answered (dispatch f s).log = answered s.log ++ answersTo f := by
  cases hop : f.opcode <;> simp [dispatch, answersTo, hop] <;> simp [answered]

theorem wsBuf_dispatch (f : Frame) (s : Session) : (dispatch f s).wsBuf = s.wsBuf := by
  cases hop : f.opcode <;> simp [dispatch, hop]

theorem closed_dispatch (f : Frame) (s : Session) :
    (dispatch f s).closed = false ↔ s.closed = false ∧ f.opcode ≠ .close := by
  cases hop : f.opcode <;> simp [dispatch, hop]

/-- What the frames of a stream do to a session, and what is left of it in the buffer. -/
structure Served (sofar : Bytes) (s : Session) : Prop where
  written : written s.log = (frames sofar).flatMap dataOf
  answered : answered s.log = (frames sofar).flatMap answersTo
  rest : s.closed = false →
    (items parseFrame sofar).2 = .more s.wsBuf ∧ ∀ f ∈ frames sofar, f.opcode ≠ .close

theorem drainFrames_spec {fuel : Nat} (hfuel : s.wsBuf.length ≤ fuel) :
    written (drainFrames fuel s).log = written s.log ++ (frames s.wsBuf).flatMap dataOf ∧
      answered (drainFrames fuel s).log = answered s.log ++ (frames s.wsBuf).flatMap answersTo ∧
      ((drainFrames fuel s).closed = false → s.closed = false ∧
        (items parseFrame s.wsBuf).2 = .more (drainFrames fuel s).wsBuf ∧
          ∀ f ∈ frames s.wsBuf, f.opcode ≠ .close) := by
  induction fuel generalizing s with
  | zero =>
      have hempty : s.wsBuf = [] := List.eq_nil_of_length_eq_zero (by omega)
      have hnone : items parseFrame s.wsBuf = ([], .more s.wsBuf) :=
        items_incomplete (by rw [hempty]; rfl)
      simp [drainFrames, frames, hnone]
  | succ fuel ih =>
      cases hparse : parseFrame s.wsBuf with
      | incomplete =>
          have hsame : drainFrames (fuel + 1) s = s := by
            simp only [drainFrames, hparse]
            split <;> rfl
          simp [hsame, frames, items_incomplete hparse]
      | error =>
          have hne : s.wsBuf.isEmpty = false := by
            cases hbuf : s.wsBuf with
            | nil => rw [hbuf] at hparse; cases hparse
            | cons b rest => rfl
          simp [drainFrames, hparse, hne, frames, items_error hparse]
      | ok f rest =>
          have hless := consuming_parseFrame.lt hparse
          have hne : s.wsBuf.isEmpty = false := by
            cases hbuf : s.wsBuf with
            | nil => rw [hbuf] at hless; simp at hless
            | cons b rest => rfl
          have hstep : drainFrames (fuel + 1) s =
              drainFrames fuel (dispatch f { s with wsBuf := rest }) := by
            simp [drainFrames, hparse, hne]
          have hbuf : (dispatch f { s with wsBuf := rest }).wsBuf = rest := wsBuf_dispatch _ _
          obtain ⟨hwritten, hanswered, hrest⟩ := ih (s := dispatch f { s with wsBuf := rest })
            (by rw [hbuf]; omega)
          rw [hbuf] at hwritten hanswered hrest
          rw [hstep]
          simp only [frames, items_ok consuming_parseFrame hparse, List.flatMap_cons]
          refine ⟨?_, ?_, ?_⟩
          · rw [hwritten, written_dispatch, List.append_assoc]
            rfl
          · rw [hanswered, answered_dispatch, List.append_assoc]
            rfl
          · intro hopen
            obtain ⟨hclosed, hmore, hnone⟩ := hrest hopen
            obtain ⟨hs, hf⟩ := (closed_dispatch _ _).mp hclosed
            refine ⟨hs, hmore, ?_⟩
            intro g hg
            rcases List.mem_cons.mp hg with rfl | hg
            · exact hf
            · exact hnone g hg

theorem Served.serveClient (h : Served sofar s) (hopen : s.closed = false) (chunk : Bytes) :
    Served (sofar ++ chunk) (serveClient s chunk) := by
  obtain ⟨hmore, hnone⟩ := h.rest hopen
  have hitems := items_append consuming_parseFrame stable_parseFrame sofar chunk
  have hsplit : items parseFrame sofar = (frames sofar, .more s.wsBuf) := Prod.ext rfl hmore
  rw [hsplit] at hitems
  obtain ⟨hwritten, hanswered, hrest⟩ :=
    drainFrames_spec (s := { s with wsBuf := s.wsBuf ++ chunk }) le_rfl
  have hframes : frames (sofar ++ chunk) = frames sofar ++ frames (s.wsBuf ++ chunk) := by
    simp only [frames, hitems]
  refine ⟨?_, ?_, ?_⟩
  · rw [hframes, List.flatMap_append, ← h.written]
    exact hwritten
  · rw [hframes, List.flatMap_append, ← h.answered]
    exact hanswered
  · intro hstill
    obtain ⟨-, hleft, hquiet⟩ := hrest hstill
    refine ⟨by rw [hitems]; exact hleft, ?_⟩
    intro f hf
    rw [hframes, List.mem_append] at hf
    exact hf.elim (hnone f) (hquiet f)

theorem Served.serveShell (h : Served sofar s) (shell : Option Bytes) :
    Served sofar (serveShell s shell) := by
  match shell with
  | none => exact h
  | some [] => exact ⟨h.written, h.answered, fun hopen => by cases hopen⟩
  | some (b :: out) =>
      refine ⟨?_, ?_, h.rest⟩
      · rw [← h.written]
        simp [WsConsole.serveShell, WsConsole.written]
      · rw [← h.answered]
        simp [WsConsole.serveShell, WsConsole.answered]

theorem Served.close (h : Served sofar s) : Served sofar { s with closed := true } :=
  ⟨h.written, h.answered, fun hopen => by cases hopen⟩

theorem Served.step (h : Served sofar s) (hopen : s.closed = false) (r : Round) :
    Served (sofar ++ chunkOf r) (step s r) := by
  match r with
  | .interrupted => simpa [chunkOf, WsConsole.step] using h
  | .failed => simpa [chunkOf, WsConsole.step] using h.close
  | .ready none shell => simpa [chunkOf, WsConsole.step] using h.serveShell shell
  | .ready (some []) shell => simpa [chunkOf, WsConsole.step] using h.close
  | .ready (some (b :: chunk)) shell => exact (h.serveClient hopen (b :: chunk)).serveShell shell

/-- However the rounds fall, the session has served the frames of what it received. -/
theorem Served.runs (hrun : Runs s rounds t) (h : Served sofar s) :
    Served (sofar ++ received rounds) t := by
  induction hrun generalizing sofar with
  | stop s => simpa [received] using h
  | next hopen _ ih =>
      have hnext := ih (h.step hopen _)
      rwa [List.append_assoc] at hnext

/-! ## The stream and its first `Close` frame -/

theorem served_start : Served [] {} :=
  ⟨rfl, rfl, fun _ =>
    ⟨rfl, by simp [frames, items_incomplete (show parseFrame [] = .incomplete from rfl)]⟩⟩

theorem beforeClose_append {fs gs : List Frame} (h : ∃ f ∈ fs, f.opcode = .close) :
    beforeClose (fs ++ gs) = beforeClose fs := by
  induction fs with
  | nil => simp at h
  | cons f fs ih =>
      by_cases hf : f.opcode = .close
      · simp [beforeClose, hf]
      · have hrest : ∃ g ∈ fs, g.opcode = .close := by simpa [hf] using h
        have htail := ih hrest
        simp only [beforeClose] at htail ⊢
        rw [List.cons_append, List.takeWhile_cons_of_pos (by simpa using hf),
          List.takeWhile_cons_of_pos (by simpa using hf), htail]

/-- What follows the first `Close` frame or an error does not count. -/
theorem beforeClose_frames_append (h : Stopped stream) (more : Bytes) :
    beforeClose (frames (stream ++ more)) = beforeClose (frames stream) := by
  have hitems := items_append consuming_parseFrame stable_parseFrame stream more
  cases hstream : items parseFrame stream with
  | mk found ending =>
      simp only [hstream] at hitems
      cases ending with
      | broken => simp only [frames, hitems, hstream]
      | more rest =>
          simp only [frames, hitems, hstream]
          refine beforeClose_append ?_
          rcases h with hclose | hbroken
          · simpa [frames, hstream] using hclose
          · rw [hstream] at hbroken
            cases hbroken

theorem flatMap_beforeClose_eq_iff {β : Type} (g : Frame → List β) (fs : List Frame) :
    fs.flatMap g = (beforeClose fs).flatMap g ↔
      ∀ f ∈ fs.dropWhile (fun f => f.opcode ≠ .close), g f = [] := by
  have hsplit : fs.flatMap g = (beforeClose fs).flatMap g ++
      (fs.dropWhile (fun f => f.opcode ≠ .close)).flatMap g := by
    rw [← List.flatMap_append, beforeClose, List.takeWhile_append_dropWhile]
  rw [hsplit, List.append_right_eq_self, List.flatMap_eq_nil_iff]

theorem session_stops_at_close_iff (hrun : Runs {} rounds t)
    (hstream : received rounds = stream ∨
      received rounds <+: stream ∧ Stopped (received rounds)) :
    (written t.log = (beforeClose (frames stream)).flatMap dataOf ∧
        answered t.log = (beforeClose (frames stream)).flatMap answersTo) ↔
      QuietAfterClose (received rounds) := by
  have hbefore : beforeClose (frames stream) = beforeClose (frames (received rounds)) := by
    rcases hstream with rfl | ⟨⟨more, rfl⟩, hstopped⟩
    · rfl
    · exact beforeClose_frames_append hstopped more
  have hserved : Served (received rounds) t := by simpa using Served.runs hrun served_start
  rw [hbefore, hserved.written, hserved.answered, flatMap_beforeClose_eq_iff,
    flatMap_beforeClose_eq_iff, ← forall₂_and]
  refine forall₂_congr fun f _ => ?_
  rw [and_comm, answersTo]
  split <;> simp_all

/-- A masked `Close` frame and the frame behind it, which types `ls`. -/
def closeFrame : Bytes := encodeFrame .close [] true [1, 2, 3, 4]

def listFrame : Bytes := encodeFrame .text [0x6c, 0x73, 0x0a] true [1, 2, 3, 4]

/-- In one chunk the shell still gets the command; in two it does not. -/
theorem command_behind_close_written :
    (∃ t, Runs {} [.ready (some (closeFrame ++ listFrame)) none] t ∧
        written t.log = [0x6c, 0x73, 0x0a]) ∧
      (∃ t, Runs {} [.ready (some closeFrame) none] t ∧ t.closed = true ∧ written t.log = []) ∧
      (beforeClose (frames (closeFrame ++ listFrame))).flatMap dataOf = [] := by
  refine ⟨⟨_, .next rfl (.stop _), by decide⟩, ⟨_, .next rfl (.stop _), by decide, by decide⟩,
    by decide⟩

/-- A frame cut in its header and in its payload, and the `Close` frame in a chunk of its own. -/
def cutRounds : List Round :=
  [.ready (some (listFrame.take 1)) none, .interrupted,
    .ready (some (listFrame.drop 1 |>.take 6)) none,
    .ready (some (listFrame.drop 7)) (some [0x24]), .ready (some closeFrame) none]

theorem cut_frame_written :
    ∃ t, Runs {} cutRounds t ∧ written t.log = [0x6c, 0x73, 0x0a] := by
  have hrun : Runs {} cutRounds _ :=
    .next rfl (.next rfl (.next rfl (.next rfl (.next rfl (.stop _)))))
  have hquiet : QuietAfterClose (received cutRounds) := by
    unfold QuietAfterClose
    decide
  refine ⟨_, hrun, ?_⟩
  rw [((session_stops_at_close_iff hrun (.inl rfl)).mpr hquiet).1]
  decide

end Crate.WsConsole
