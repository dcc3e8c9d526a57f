import AccessGate.CommandLine

/-!
# The program

Answers the questions of the command line with the files of the machine.
-/

namespace AccessGate.CommandLine

/-- The answer of the machine to a question about its files. -/
def answer : (q : FileQuestion) → IO q.Answer
  | .read path => do
    try
      return some (← IO.FS.readBinFile path).toList
    catch _ => return none
  | .isThere path => do
    try
      let _ ← IO.FS.Handle.mk path .read
      return true
    catch
      | .noFileOrDirectory .. => return false
      | _ => return true
  | .create path text => do
    try
      IO.FS.writeFile path text
      return true
    catch _ => return false

/-- Carries a dialogue with the files through. -/
def carryOut {α : Type} : FileTalk α → IO α
  | .done a => return a
  | .ask q next => do carryOut (next (← answer q))

end AccessGate.CommandLine

open AccessGate in
/-- The program. -/
def main (args : List String) : IO UInt32 := do
  let ending ← CommandLine.carryOut (CommandLine.execute args)
  (← IO.getStdout).putStr ending.output
  (← IO.getStderr).putStr ending.errors
  return ending.exit.toUInt32
