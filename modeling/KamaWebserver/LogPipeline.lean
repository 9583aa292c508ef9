import KamaWebserver.LogFraming
import KamaWebserver.LogQueue
import KamaWebserver.WriteAccounting
import Mathlib.Logic.Function.Basic

set_option autoImplicit false

namespace KamaWebserver

open Outcome

/-- A log statement, with the clock it reads and what the memory of its stream holds. -/
structure LogStatement where
  now : Int
  memory : Vector UInt8 kSmallBufferSize
  filename : FileName
  line : IntegerType.int.Value
  level : LogLevel
  operands : List Operand

/-- What the C library answers in a call of `LogFile::append`. -/
structure WriteAnswers where
  results : List FwriteResult
  now : Int
  later : Int

def WriteAnswers.call (answers : WriteAnswers) (data : List UInt8) : AppendCall :=
  ⟨data, answers.results, answers.now, answers.later⟩

/-- The steps of the program's threads: a statement up to the `finish` in its destructor, what
that destructor does next, and those of the asynchronous logger. -/
inductive PipelineEvent
  | statement (thread : Nat) (statement : LogStatement)
  | effect (thread : Nat)
  | start (count now : Int)
  | stop
  | backend (answers : WriteAnswers)

/-- The logger behind `g_output`. `output` is the local variable of `threadFunc`, and
`destructors` holds what each thread's `~Logger` has still to do. Which records were made and
which were appended, and by which thread, is not in the source. -/
structure LogPipeline where
  logging : AsyncLogging
  output : Option LogFile
  destructors : Nat → List LogEffect
  aborted : Bool
  logged : List (Nat × List UInt8)
  sent : List (Nat × List UInt8)

def LogEffect.record : LogEffect → Option (List UInt8)
  | .output msg => some msg
  | .flush => none
  | .abort => none

/-- The records that are still to be handed to `g_output`. -/
def outputs (effects : List LogEffect) : List (List UInt8) := effects.filterMap LogEffect.record

namespace LogPipeline

/-- After `setOutput(asyncLog)`. -/
def create : LogPipeline where
  logging := .create
  output := none
  destructors := fun _ => []
  aborted := false
  logged := []
  sent := []

/-- A thread is in one destructor at a time. -/
def statement (env : LogEnvironment) (pipeline : LogPipeline) (thread : Nat)
    (statement : LogStatement) : Except Fault LogPipeline := do
  let effects ← logStatement env statement.now statement.memory statement.filename
    statement.line statement.level statement.operands
  if pipeline.destructors thread = [] then
    return { pipeline with
      destructors := Function.update pipeline.destructors thread effects
      logged := pipeline.logged ++ (outputs effects).map fun msg => (thread, msg) }
  else .error .notEnabled

/-- `g_output` is `asyncLog`, and `g_flush` flushes `stdout`. -/
def perform (pipeline : LogPipeline) (thread : Nat) : LogEffect → Except Fault LogPipeline
  | .output msg => do
      let logging ← pipeline.logging.append msg
      return { pipeline with logging, sent := pipeline.sent ++ [(thread, msg)] }
  | .flush => .ok pipeline
  | .abort => .ok { pipeline with aborted := true }

def effect (pipeline : LogPipeline) (thread : Nat) : Except Fault LogPipeline :=
  match pipeline.destructors thread with
  | effect :: rest =>
      { pipeline with
        destructors := Function.update pipeline.destructors thread rest }.perform thread effect
  | [] => .error .notEnabled

/-- The thread begins with `LogFile output(basename_, rollSize_)`. -/
def start (env : LogEnvironment) (basename : List UInt8) (rollSize : Int)
    (pipeline : LogPipeline) (count now : Int) : Except Fault LogPipeline := do
  let logging ← pipeline.logging.start
  return { pipeline with
    logging
    output := some (.construct env.localtime basename rollSize 3 1024 count now) }

/-- What the next step of `threadFunc` does to `output`. -/
def useOutput (env : LogEnvironment) (logging : AsyncLogging) (answers : WriteAnswers)
    (output : LogFile) : Except Fault LogFile :=
  match logging.pc with
  | .write index =>
      match logging.buffersToWrite[index]? with
      | some buffer => do
          let buffer ← deref buffer
          output.append env.localtime (answers.call buffer.contents)
      | none => .ok output
  | .recycle => output.flush
  | .test => if logging.running then .ok output else output.flush
  | _ => .ok output

def backend (env : LogEnvironment) (pipeline : LogPipeline) (answers : WriteAnswers) :
    Except Fault LogPipeline :=
  match pipeline.output with
  | some output => do
      let logging ← pipeline.logging.backend
      let output ← useOutput env pipeline.logging answers output
      return { pipeline with logging, output := some output }
  | none => .error .notEnabled

/-- Nothing happens after `abort`. -/
def step (env : LogEnvironment) (basename : List UInt8) (rollSize : Int)
    (pipeline : LogPipeline) (event : PipelineEvent) : Except Fault LogPipeline :=
  if pipeline.aborted then .error .notEnabled
  else
    match event with
    | .statement thread statement => pipeline.statement env thread statement
    | .effect thread => pipeline.effect thread
    | .start count now => pipeline.start env basename rollSize count now
    | .stop => .ok { pipeline with logging := pipeline.logging.stop }
    | .backend answers => pipeline.backend env answers

end LogPipeline

end KamaWebserver
