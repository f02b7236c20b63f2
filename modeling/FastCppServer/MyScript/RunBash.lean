import FastCppServer.Lib.Execution

/-!
# Running a script

`MyBashEnvBot::runBash` in the parent, system call by system call, among the script and the other
processes that have inherited the pipes. Time passes, the script writes and ends, and the others
write, at any point. The pipes have no bound, so that a writer never waits. A signal that is to kill
does so at once.

The state records, besides what the parent has, what has been written and whether the script ended
before its timeout.
-/

namespace MyScript

/-- The ends of the pipes that the parent has open. -/
inductive End where
  | outRead
  | outWrite
  | errRead
  | errWrite
  deriving DecidableEq

inductive Status where
  | exited (code : UInt8)
  | signaled (signal : Nat)
  deriving DecidableEq

/-- `exit_code` of a status. -/
def Status.code : Status → Int
  | .exited code => code.toNat
  | .signaled signal => 128 + signal

inductive Script where
  | none
  | running
  | ended (status : Status)
  | reaped (status : Status)
  deriving DecidableEq

def SIGKILL : Nat := 9

def Script.kill : Script → Script
  | .running => .ended (.signaled SIGKILL)
  | script => script

structure ExecResult where
  exitCode : Int := -1
  timedOut : Bool := false
  stdoutStr : List UInt8 := []
  stderrStr : List UInt8 := []
  deriving DecidableEq

/-- Before which call the parent is. -/
inductive Pc where
  | pipeOut
  | pipeErr
  | fork
  | closeWrite
  | top
  | poll
  /-- `poll` has found something to read in `outpipe`, in `errpipe`. -/
  | readOut (out err : Bool)
  | readErr (err : Bool)
  | wait
  | drainOut
  | drainErr
  | close
  | waitKilled
  | returned
  deriving DecidableEq

structure State where
  /-- In milliseconds. -/
  now : Nat := 0
  script : Script := .none
  /-- What is in the pipes. -/
  out : List UInt8 := []
  err : List UInt8 := []
  /-- What the script has written. -/
  outWritten : List UInt8 := []
  errWritten : List UInt8 := []
  /-- How many bytes have been written, by whomever. -/
  total : Nat := 0
  /-- The script ended before its timeout. -/
  inTime : Bool := false
  pc : Pc := .pipeOut
  fds : List End := []
  start : Option Nat := none
  result : ExecResult := {}
  deriving DecidableEq

/-- `elapsed >= timeout_seconds`, where there is a timeout. -/
def expired (timeout : Int) (s : State) : Bool :=
  match s.start with
  | none => false
  | some start => 0 < timeout && timeout ≤ ((s.now - start) / 1000 : Nat)

def BUF : Nat := 4096

/-- What a `read` takes that may take `n` bytes: one at least, if there is one. -/
def taken (n : Nat) (pipe : List UInt8) : Nat := max 1 (min n (min BUF pipe.length))

/-- `read`, and `append`. -/
def readOut (s : State) (n : Nat) : State :=
  let n := taken n s.out
  { s with
    out := s.out.drop n
    result := { s.result with stdoutStr := s.result.stdoutStr ++ s.out.take n } }

def readErr (s : State) (n : Nat) : State :=
  let n := taken n s.err
  { s with
    err := s.err.drop n
    result := { s.result with stderrStr := s.result.stderrStr ++ s.err.take n } }

/-- The next call of the parent. `ok` is whether a call that may fail succeeds, and whether `poll`
finds anything; `n` is how much there is to read. -/
def call (timeout : Int) (s : State) (ok : Bool) (n : Nat) : State :=
  match s.pc with
  | .pipeOut =>
    if ok then { s with fds := [.outRead, .outWrite], pc := .pipeErr }
    else { s with pc := .returned }
  | .pipeErr =>
    if ok then { s with fds := s.fds ++ [.errRead, .errWrite], pc := .fork }
    else { s with fds := [], pc := .returned }
  | .fork =>
    if ok then { s with script := .running, pc := .closeWrite }
    else { s with fds := [], pc := .returned }
  | .closeWrite =>
    { s with
      fds := s.fds.filter fun fd => fd ≠ .outWrite ∧ fd ≠ .errWrite
      start := some s.now
      pc := .top }
  | .top =>
    if expired timeout s then
      { s with
        script := s.script.kill
        result := { s.result with timedOut := true }
        pc := .drainOut }
    else { s with pc := .poll }
  | .poll =>
    if ok then { s with pc := .readOut (s.out ≠ []) (s.err ≠ []) } else { s with pc := .wait }
  | .readOut out err => { if out then readOut s n else s with pc := .readErr err }
  | .readErr err => { if err then readErr s n else s with pc := .wait }
  | .wait =>
    match s.script with
    | .ended status =>
      { s with
        script := .reaped status
        result := { s.result with exitCode := status.code }
        pc := .drainOut }
    | _ => { s with pc := .top }
  | .drainOut => if s.out = [] then { s with pc := .drainErr } else readOut s n
  | .drainErr => if s.err = [] then { s with pc := .close } else readErr s n
  | .close =>
    { s with
      fds := s.fds.filter fun fd => fd ≠ .outRead ∧ fd ≠ .errRead
      pc := if s.result.timedOut then .waitKilled else .returned }
  | .waitKilled =>
    match s.script with
    | .ended status => { s with script := .reaped status, pc := .returned }
    | _ => s
  | .returned => s

inductive Label where
  /-- Time passes. -/
  | tick (ms : Nat)
  /-- The script ends, by itself or by a signal of another. -/
  | exit (status : Status)
  /-- The script writes, to its output or its errors. -/
  | write (toErr : Bool) (bytes : List UInt8)
  /-- Another process does, to a pipe that it has inherited. -/
  | others (toErr : Bool) (bytes : List UInt8)
  | call (ok : Bool) (n : Nat)

/-- Bytes that come to a pipe which has a reader. -/
def put (s : State) (toErr : Bool) (bytes : List UInt8) : Option State :=
  if toErr then
    if .errRead ∈ s.fds then some { s with err := s.err ++ bytes, total := s.total + bytes.length }
    else none
  else if .outRead ∈ s.fds then
    some { s with out := s.out ++ bytes, total := s.total + bytes.length }
  else none

def step (timeout : Int) (s : State) : Label → Option State
  | .tick ms => some { s with now := s.now + ms }
  | .exit status =>
    if s.script = .running then
      some { s with script := .ended status, inTime := !expired timeout s }
    else none
  | .write toErr bytes =>
    if s.script = .running then
      (put s toErr bytes).map fun t =>
        if toErr then { t with errWritten := t.errWritten ++ bytes }
        else { t with outWritten := t.outWritten ++ bytes }
    else none
  | .others toErr bytes => if s.script = .none then none else put s toErr bytes
  | .call ok n => some (call timeout s ok n)

/-- Before the call of `runBash`. -/
def init : State := {}

end MyScript
