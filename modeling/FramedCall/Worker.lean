import FramedCall.Server.Pipe

/-!
# Workers

A worker is a program at the other end of a pipe: one that serves, one that gives everything back
that it is given, or one that has ended. When it has ended it has an exit code: zero after it has
gone through its input, one after a failure.
-/

namespace FramedCall

/-- A running program. -/
inductive Worker where
  /-- It serves. -/
  | serving (pipe : ServerPipe)
  /-- It gives back what it is given. -/
  | echoing (source : Source)
  /-- It has ended; `noticed` says whether the end of its output has been read. -/
  | exited (code : Nat) (noticed : Bool)

namespace Worker

/-- What a write to a pipe between processes says when nobody reads any more. -/
def broken : String := "Broken pipe (os error 32)"

/-- The program that fails at once. -/
def failed : Worker := .exited 1 false

/-- The program that serves its input. -/
def ofServer (server : Server) : Worker :=
  .serving (.start server ServerPipe.standardCapacity broken)

/-- The program of a given name. -/
def ofProgram (name : String) : Except CallError Worker :=
  if name = "cat" then .ok (.echoing .empty)
  else if name = "false" then .ok failed
  else .error (.io "No such file or directory (os error 2)")

/-- Bytes are written to the program's input. A program that has ended is missed only after that
has been noticed. -/
def write (w : Worker) (ss : List Bytes) : Except Refusal Nat × Worker :=
  match w with
  | .serving p =>
    let (r, p') := p.write ss
    (r, .serving p')
  | .echoing s => (.ok ss.flatten.length, .echoing (s.arrive (.chunk ss.flatten)))
  | .exited _ true => (.error (.failed broken), w)
  | .exited _ false => (.ok ss.flatten.length, w)

/-- Reads the program's output. -/
def read (w : Worker) (n : Nat) : ReadResult × Worker :=
  match w with
  | .serving p =>
    let (r, p') := p.read n
    (r, .serving p')
  | .echoing s =>
    let (r, s') := s.read n
    (r, .echoing s')
  | .exited code _ => (.eof, .exited code true)

/-- Ends the program's input. Its output can still be read. -/
def close (w : Worker) : Except String Unit × Worker :=
  match w with
  | .serving p => (.ok (), .serving p.endInput.settle)
  | .echoing s => (.ok (), .echoing (s.arrive .eof))
  | .exited .. => (.ok (), w)

/-- How much the program still has to see to, and how much of its output can be read. -/
def unread : Worker → Nat × Nat
  | .serving p => p.unread
  | .echoing s => (0, s.weight)
  | .exited .. => (0, 0)

/-- Each read of a program's output that gives bytes lowers what is left. -/
theorem unread_read_lt {w w' : Worker} {n : Nat} {data : Bytes} (hn : 0 < n)
    (h : w.read n = (.bytes data, w')) : Prod.Lex (· < ·) (· < ·) w'.unread w.unread := by
  match w with
  | .serving p =>
    obtain ⟨hr, rfl⟩ := Prod.mk.inj h
    exact ServerPipe.unread_read_lt hn (Prod.ext hr rfl)
  | .echoing s =>
    obtain ⟨hr, rfl⟩ := Prod.mk.inj h
    exact .right 0 (Source.weight_read_lt hn (Prod.ext hr rfl))
  | .exited .. => simp [read] at h

/-- A program as a channel. -/
def channel : Channel Worker where
  device := { write := write, flush := fun w => (.ok (), w) }
  read := read
  close := close
  unread := unread
  unread_read_lt := unread_read_lt

/-- The exit code of a program whose input has ended. -/
def exitCode? : Worker → Option Nat
  | .serving p => p.end?.map fun
    | .ok () => 0
    | .error _ => 1
  | .echoing _ => some 0
  | .exited code _ => some code

end Worker
end FramedCall
