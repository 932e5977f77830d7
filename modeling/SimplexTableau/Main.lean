import SimplexTableau.Benchmark
import SimplexTableau.Decimal.Fixed
import SimplexTableau.Instance.Command
import SimplexTableau.Startup

/-!
# Command line

`generate` writes random problems and takes its own options, `bench` times all methods on the
benchmark problems, and `serve` says how the server would talk.
-/

open SimplexTableau

/-- Prints a generator outcome and writes its file. -/
def writeOutcome (outcome : Instance.Outcome) : IO UInt32 := do
  IO.print outcome.output
  if let some (path, text) := outcome.file then
    IO.FS.writeFile path text
  return UInt32.ofNat outcome.exitCode

/-- Runs the generator. -/
def runGenerate (arguments : List String) : IO UInt32 := do
  match Instance.generate arguments with
  | .ok outcome => writeOutcome outcome
  | .error fault =>
    IO.eprintln fault.message
    return 1

/-- Runs the benchmark and adds the time of each run in milliseconds. -/
def runBench : IO UInt32 := do
  IO.println (Benchmark.heading ++ ",time_ms")
  for (name, problem, method) in Benchmark.runs do
    let before ← IO.monoNanosNow
    let line ← IO.lazyPure fun _ => Benchmark.line name method (problem.solve method {})
    let after ← IO.monoNanosNow
    let hundredths := Decimal.hundredths (after - before) 1000000
    IO.println (line ++ s!",{hundredths / 100}." ++ Decimal.twoDigits (hundredths % 100))
  return 0

/-- Says how the server would talk. -/
def runServe (arguments : List String) : IO UInt32 := do
  let names := ["LP_TABLEAU_LOG_LEVEL", "MCP_TRANSPORT", "PORT"]
  let environment ← names.filterMapM fun name => do
    return (← IO.getEnv name).map (name, ·)
  let startup := Startup.of environment arguments
  for entry in startup.entries do
    IO.eprintln (entry.level.name ++ " " ++ entry.source ++ ": " ++ entry.message)
  match startup.transport with
  | .ok _ => return 0
  | .error fault =>
    IO.eprintln fault.message
    return 1

def main (arguments : List String) : IO UInt32 := do
  match arguments with
  | "generate" :: rest => runGenerate rest
  | "bench" :: _ => runBench
  | "serve" :: rest => runServe rest
  | _ =>
    IO.eprintln "usage: simplex-tableau (generate [OPTION ...] | bench | serve [--stdio])"
    return 2
