import CallGraph.Loop
import CallGraph.Session
import CallGraph.Text.Bytes

/-!
**Connections.**

A connection is served one line after the other: a line is read, the reply is written with a line
break after it, and the command that stops the server is passed on once its reply is out. A client may
send any bytes; a line that is no text ends the connection, without a reply.

* `Port` — what is read from and written to while a connection is served, in some monad;
* `Port.turn` — one line served;
* `Wire` — the two directions of a connection, with the flag that stops the server; `step_of_end`,
  `step_of_fault`, `step_of_blank` and `step_of_reply` say all that a turn can do to it;
* `Wire.loop`, `Wire.serve` — turns up to the end of the connection.
-/

namespace CallGraph

/-- What serving a connection reads from and writes to. -/
structure Port (m : Type → Type) where
  /-- The bytes of the client's next line, its line break included; none at the end of what it sends. -/
  readLine : m (List UInt8)
  /-- The files that the query on a line can come across. -/
  files : String → m Files
  /-- How the reply to a line, without its blank ends, words what libraries report. -/
  voice : String → Voice
  /-- Whether the server has been told to stop. -/
  stopping : m Bool
  /-- The milliseconds on a clock. -/
  clock : m Nat
  write : String → m Unit
  /-- Tells the server to stop. -/
  stop : m Unit

namespace Port

variable {m : Type → Type} [Monad m] (p : Port m)

/-- Writes the reply to a line, if there is one, and passes on that the server is to stop. The
result says whether the connection goes on. -/
def tell (line : String) (started : Nat) : Option Reply → m Bool
  | none => return true
  | some reply => do
    let now ← p.clock
    p.write (reply.text (some (now - started)) (p.voice (Text.trim line)) ++ "\n")
    if reply.ends then
      p.stop
      return false
    else return true

/-- Serves one line. The result says whether the connection goes on. -/
def turn : m Bool := do
  let bytes ← p.readLine
  if bytes = [] then return false
  match Text.ofBytes? bytes with
  | none => return false
  | some line =>
    let started ← p.clock
    let files ← p.files line
    let stopping ← p.stopping
    p.tell line started (Session.respond files line stopping)

end Port

/-- A connection as it stands. -/
structure Wire where
  /-- What the client has sent and nobody has read yet. -/
  unread : List UInt8
  /-- How often the clock has been looked at. -/
  looks : Nat := 0
  /-- What has been written to the client. -/
  sent : String := ""
  /-- The server has been told to stop. -/
  stopping : Bool := false
  closed : Bool := false

/-- Some bytes up to the first line break, that included, and the rest. -/
def cutLine (bytes : List UInt8) : List UInt8 × List UInt8 :=
  match bytes.dropWhile (· != Text.lineBreak) with
  | [] => (bytes, [])
  | b :: rest => (bytes.takeWhile (· != Text.lineBreak) ++ [b], rest)

/-- A line is cut off the front, and it is not empty unless there is nothing. -/
theorem exists_cutLine {bytes : List UInt8} (more : bytes ≠ []) :
    ∃ line rest, line ≠ [] ∧ cutLine bytes = (line, rest) ∧ bytes = line ++ rest := by
  have whole := List.takeWhile_append_dropWhile (p := (· != Text.lineBreak)) (l := bytes)
  unfold cutLine
  split
  · exact ⟨bytes, [], more, rfl, (List.append_nil bytes).symm⟩
  · rename_i b rest same
    rw [same] at whole
    exact ⟨_, rest, by simp, rfl, by simp [whole]⟩

namespace Wire

/-- The port of a wire, with files that stay as they are, and the readings of the clock in turn. -/
def port (fs : Files) (voice : String → Voice) (clock : Nat → UInt64) : Port (StateM Wire) where
  readLine := modifyGet fun w => ((cutLine w.unread).1, { w with unread := (cutLine w.unread).2 })
  files _ := pure fs
  voice := voice
  stopping := return (← get).stopping
  clock := modifyGet fun w => ((clock w.looks).toNat, { w with looks := w.looks + 1 })
  write text := modify fun w => { w with sent := w.sent ++ text }
  stop := modify fun w => { w with stopping := true }

/-- A wire after one more line. -/
def step (fs : Files) (voice : String → Voice) (clock : Nat → UInt64) (w : Wire) : Wire :=
  let after := ((port fs voice clock).turn.run w).run
  { after.2 with closed := !after.1 }

section

variable {fs : Files} {voice : String → Voice} {clock : Nat → UInt64} {w : Wire} {line : String}
  {bytes rest : List UInt8}

theorem run_readLine (cut : cutLine w.unread = (bytes, rest)) :
    (port fs voice clock).readLine.run w = pure (bytes, { w with unread := rest }) := by
  show ((cutLine w.unread).1, { w with unread := (cutLine w.unread).2 }) = _
  rw [cut]
  rfl

theorem run_files : ((port fs voice clock).files line).run w = pure (fs, w) :=
  rfl

theorem run_stopping : (port fs voice clock).stopping.run w = pure (w.stopping, w) :=
  rfl

theorem run_clock : (port fs voice clock).clock.run w =
    pure ((clock w.looks).toNat, { w with looks := w.looks + 1 }) :=
  rfl

theorem run_write {text : String} : ((port fs voice clock).write text).run w =
    pure ((), { w with sent := w.sent ++ text }) :=
  rfl

theorem run_stop : (port fs voice clock).stop.run w = pure ((), { w with stopping := true }) :=
  rfl

/-- At the end of what the client sends the connection is closed. -/
theorem step_of_end (ended : w.unread = []) : step fs voice clock w = { w with closed := true } := by
  have read : (port fs voice clock).readLine.run w = pure ([], { w with unread := [] }) :=
    run_readLine (by rw [ended]; rfl)
  rw [step, Port.turn, StateT.run_bind, read, pure_bind, if_pos rfl, StateT.run_pure, Id.run_pure,
    ← ended]
  rfl

/-- At a line that is no text the connection is closed. -/
theorem step_of_fault (more : bytes ≠ []) (cut : cutLine w.unread = (bytes, rest))
    (fault : Text.ofBytes? bytes = none) :
    step fs voice clock w = { w with unread := rest, closed := true } := by
  rw [step, Port.turn, StateT.run_bind, run_readLine cut, pure_bind, if_neg more, fault]
  rfl

section

variable (more : bytes ≠ []) (cut : cutLine w.unread = (bytes, rest))
  (read : Text.ofBytes? bytes = some line)

include more cut read

/-- What a line leads to hangs on the reply to it. -/
theorem run_turn :
    (port fs voice clock).turn.run w =
      ((port fs voice clock).tell line (clock w.looks).toNat
        (Session.respond fs line w.stopping)).run { w with unread := rest, looks := w.looks + 1 } := by
  rw [Port.turn, StateT.run_bind, run_readLine cut, pure_bind, if_neg more, read]
  dsimp only
  rw [StateT.run_bind, run_clock, pure_bind, StateT.run_bind, run_files, pure_bind, StateT.run_bind,
    run_stopping, pure_bind]

/-- A line without a reply is passed over. -/
theorem step_of_blank (blank : Session.respond fs line w.stopping = none) :
    step fs voice clock w = { w with unread := rest, looks := w.looks + 1, closed := false } := by
  rw [step, run_turn more cut read, blank]
  rfl

/-- A reply is written, and the connection goes on unless the reply ends it. -/
theorem step_of_reply {reply : Reply} (replies : Session.respond fs line w.stopping = some reply) :
    step fs voice clock w = {
      unread := rest
      looks := w.looks + 2
      sent := w.sent ++ (reply.text (some ((clock (w.looks + 1)).toNat - (clock w.looks).toNat))
        (voice (Text.trim line)) ++ "\n")
      stopping := w.stopping || reply.ends
      closed := reply.ends } := by
  rw [step, run_turn more cut read, replies, Port.tell, StateT.run_bind, run_clock, pure_bind,
    StateT.run_bind, run_write, pure_bind]
  cases reply.ends with
  | false =>
    rw [if_neg Bool.false_ne_true, Bool.or_false]
    rfl
  | true =>
    rw [if_pos rfl, Bool.or_true, StateT.run_bind, run_stop]
    rfl

end

/-- How many lines may still be read, and once more for the end. -/
def rank (w : Wire) : Nat :=
  if w.closed then 0 else w.unread.length + 1

theorem rank_step_lt (goesOn : w.closed = false) : (step fs voice clock w).rank < w.rank := by
  have here : w.rank = w.unread.length + 1 := by rw [rank, if_neg (Bool.eq_false_iff.1 goesOn)]
  by_cases ended : w.unread = []
  · rw [step_of_end ended, here, rank, if_pos rfl]
    exact Nat.succ_pos _
  · obtain ⟨bytes, rest, more, cut, same⟩ := exists_cutLine ended
    have shorter : rest.length < w.unread.length := by
      have some : 0 < bytes.length := List.length_pos_iff.2 more
      rw [same, List.length_append]
      omega
    cases read : Text.ofBytes? bytes with
    | none =>
      rw [step_of_fault more cut read, here, rank, if_pos rfl]
      exact Nat.succ_pos _
    | some line =>
      cases said : Session.respond fs line w.stopping with
      | none =>
        rw [step_of_blank more cut read said, here, rank]
        simpa using shorter
      | some reply =>
        rw [step_of_reply more cut read said, here, rank]
        split
        · exact Nat.succ_pos _
        · simpa using shorter

end

/-- Serves a wire line by line until it is closed. -/
def loop (fs : Files) (voice : String → Voice) (clock : Nat → UInt64) : Loop Wire where
  finished := closed
  step := step fs voice clock
  rank := rank
  step_lt _ := rank_step_lt

/-- A wire at its end, on which a client has sent some bytes and no more. -/
def serve (fs : Files) (voice : String → Voice) (clock : Nat → UInt64) (bytes : List UInt8) : Wire :=
  (loop fs voice clock).run { unread := bytes }

end Wire

end CallGraph
