/-
  Destructure/Main.lean
  =====================
  **The command** — runs the program on the arguments and the environment of the
  process.

  Mirrors the program's call of `main` with the arguments of its process.
-/
import Destructure.CommandLine.Run

open Destructure

/-- Runs the program and returns its exit status. -/
def main (args : List String) : IO UInt32 := do
  let refusal ← IO.getEnv "NO_COLOR"
  let setting ← IO.getEnv "CASEMATCH_COLOR"
  match runProgram (useColour refusal setting) args with
  | .ok outcome =>
    (← IO.getStdout).putStr outcome.stdout
    (← IO.getStderr).putStr outcome.stderr
    return outcome.exit.toUInt32
  | .error failure =>
    (← IO.getStderr).putStr (failure.text false ++ "\n")
    return 1
