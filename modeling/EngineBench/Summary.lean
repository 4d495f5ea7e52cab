import EngineBench.Configuration
import EngineBench.Teardown

/-!
# Run summaries

A summary is the record of one run. It is begun before anything happens, filled in by the parts of
the run, and finished with the outcome.
-/

namespace EngineBench

/-- The record of a run. -/
structure Summary where
  schemaVersion : UInt32
  version : String
  startedAt : Timestamp
  finishedAt : Option Timestamp
  outcome : Outcome
  exitCode : Int32
  configuration : Configuration
  engineLine : String
  clientLine : String
  /-- Where the output of the engine went. -/
  engineLog : Path
  /-- The process of the engine, if there was one. -/
  enginePid : Option UInt32
  /-- What was known of the engine after the cleanup. -/
  engineState : Option ProcessState
  healthAttempts : Option UInt32
  clientExitCode : Option Int32
  cleanup : Option CleanupAction
  /-- Why the cleanup could not confirm that the engine exited. -/
  cleanupError : Option String
  interruptedBy : Option Int32
  deriving DecidableEq

namespace Summary

def currentSchema : UInt32 := 1

def programVersion : String := "0.1.0"

/-- The summary of a run in which nothing has happened yet. -/
def begin (c : Configuration) (engineLine clientLine : String) (log : Path) (now : Timestamp) :
    Summary where
  schemaVersion := currentSchema
  version := programVersion
  startedAt := now
  finishedAt := none
  outcome := .success
  exitCode := 0
  configuration := c
  engineLine := engineLine
  clientLine := clientLine
  engineLog := log
  enginePid := none
  engineState := none
  healthAttempts := none
  clientExitCode := none
  cleanup := none
  cleanupError := none
  interruptedBy := none

def finish (s : Summary) (o : Outcome) (now : Timestamp) : Summary :=
  { s with outcome := o, exitCode := Int32.ofNat o.exitCode, finishedAt := some now }

def noteEngine (s : Summary) (p : ProcessId) : Summary := { s with enginePid := some p.number }

def noteAttempts (s : Summary) (n : Nat) : Summary :=
  { s with healthAttempts := some (UInt32.ofNat n) }

/-- Notes the exit of the client; a client that was ended by a signal has no exit code. -/
def noteClient (s : Summary) (status : ExitStatus) : Summary :=
  { s with clientExitCode := status.code?.map fun code => Int32.ofNat code.toNat }

def noteCleanup (s : Summary) : Except Unconfirmed CleanupAction → Summary
  | .ok action => { s with cleanup := some action }
  | .error u => { s with cleanupError := some u.message }

def noteState (s : Summary) (g : Guard) : Summary :=
  { s with engineState := g.engine.map Engine.state }

def noteSignal (s : Summary) (signal : Option Signal) : Summary :=
  { s with interruptedBy := signal.map fun g => Int32.ofNat g.number.toNat }

end Summary

end EngineBench
