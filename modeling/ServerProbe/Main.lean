/-
The program: reads its arguments, prints the reports, and shows an error on the
error output.
-/
import ServerProbe.CommandLine

set_option autoImplicit false

/-- Runs the command line. -/
def main (arguments : List String) : IO UInt32 := do
  let nonce ← IO.rand 0 (UInt32.size - 1)
  let result := ServerProbe.CommandLine.run (UInt32.ofNat nonce) arguments
  IO.print result.output
  match result.errorLine? with
  | some line => IO.eprintln line
  | none => pure ()
  return result.exitCode
