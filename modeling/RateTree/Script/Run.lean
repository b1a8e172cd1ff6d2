import RateTree.Bench
import RateTree.Limiter
import RateTree.Report
import RateTree.Script.Command

/-!
# Running scripts

A script is run line by line against a limiter on a simulated device. A line that cannot be carried
out is reported and counted, and the script goes on; a fault ends it, and so does a line too many
for the count. A script that ran to its end is followed by a summary, written after the limiter has
been torn down.
-/

namespace RateTree

/-- A limiter on a simulated device. -/
abbrev BenchLimiter := Limiter Bench

namespace ScriptCommand

/-- The lines that are shown of a tree. -/
def present (lines : Tree → List String) : Action BenchLimiter (List String) :=
  Limiter.ask fun tree => .ok (lines tree)

/-- The line with an identifier that was given out. -/
def idLine (id : NodeId) : List String := ["  -> " ++ id.display]

/-- Carries out a command; the result is what it prints. -/
def carryOut : ScriptCommand → Action BenchLimiter (List String)
  | .createNode kind service => do
    let id ← Limiter.createNode kind service
    return idLine id
  | .removeNode id => do
    Limiter.deleteNode id
    return []
  | .addCluster id service cir pir => do
    let _ ← Limiter.createSla (.cluster id service cir pir)
    return []
  | .addFunction owner service cir pir => do
    let sla ← Limiter.ask fun tree => (tree.leafRequest owner service cir pir : Except Error Sla)
    let id ← Limiter.createSla sla
    return idLine id
  | .addLeaf id parent service owner cir pir => do
    let _ ← Limiter.createSla (.leaf id parent service owner cir pir)
    return []
  | .update id cir pir parent => do
    Limiter.updateSla (.update id cir pir parent)
    return []
  | .delete id => do
    Limiter.deleteSla id
    return []
  | .query kind vf bank => do
    let reply ← Limiter.ask fun tree => tree.reply ⟨kind, vf, bank⟩
    return [reply.line kind]
  | .capabilities => present fun tree => [tree.capabilities.display]
  | .agreements => present Tree.slaReport
  | .tree => present Tree.report

end ScriptCommand

/-- A script under way. -/
structure ScriptSession where
  limiter : BenchLimiter
  /-- How many lines could not be carried out, a signed word of 32 bits. -/
  failures : Nat

/-- What came of one line. -/
inductive LineOutcome where
  | done (printed : List String)
  | failed (cause : ScriptError)
  | crashed (cause : Fault)

namespace ScriptSession

/-- Carries out the command that words stand for. -/
def perform (words : List String) (limiter : BenchLimiter) : LineOutcome × BenchLimiter :=
  match ScriptCommand.ofWords words with
  | .error (.error cause) => (.failed cause, limiter)
  | .error (.fault cause) => (.crashed cause, limiter)
  | .ok command =>
    match command.carryOut limiter with
    | (.ok printed, after) => (.done printed, after)
    | (.error (.error cause), after) => (.failed (.refused cause), after)
    | (.error (.fault cause), after) => (.crashed cause, after)

/-- The words of a line. -/
def wordsOf (line : List Char) : List String := (Text.words line).map String.ofList

/-- The line as it is echoed, behind its number. -/
def echo (number : Nat) (line : List Char) : String :=
  Text.padLeft 3 ' ' (toString number) ++ ": " ++ String.ofList line

/-- Runs numbered lines; the result is what is printed, and the session afterwards unless a fault
has ended it. -/
def run (session : ScriptSession) :
    List (Nat × List Char) → List String × Except Fault ScriptSession
  | [] => ([], .ok session)
  | (number, line) :: rest =>
    match perform (wordsOf line) session.limiter with
    | (.done printed, limiter) =>
      let (later, outcome) := run { session with limiter } rest
      (echo number line :: printed ++ later, outcome)
    | (.failed cause, limiter) =>
      match Word.add 31 session.failures 1 with
      | .error fault => ([echo number line], .error fault)
      | .ok failures =>
        let (later, outcome) := run ⟨limiter, failures⟩ rest
        (echo number line :: ("  !! " ++ cause.message) :: later, outcome)
    | (.crashed cause, _) => ([echo number line], .error cause)

/-- The lines that close a script, written when the limiter has been torn down. -/
def summary (failures : Nat) (device : Bench) : List String :=
  ["", toString failures ++ " failed; firmware saw " ++
    toString device.firmware.records.length ++ " requests, " ++
    toString device.pool.outstanding ++ " DMA blocks leaked"]

end ScriptSession

/-- Runs the text of a script on a limiter; the result is what is printed, and the fault that ended
the script, if one did. -/
def Script.run (limiter : BenchLimiter) (text : List Char) : List String × Option Fault :=
  match ScriptSession.run ⟨limiter, 0⟩ (Script.commandLines text) with
  | (printed, .ok session) =>
    match Limiter.tearDown session.limiter with
    | (.error (.fault cause), _) => (printed, some cause)
    | (_, after) => (printed ++ ScriptSession.summary session.failures after.device, none)
  | (printed, .error cause) => (printed, some cause)

end RateTree
