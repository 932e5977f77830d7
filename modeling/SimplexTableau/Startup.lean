import SimplexTableau.Decimal.Numeral
import SimplexTableau.Solve.Journal
import SimplexTableau.Text.Capital
import SimplexTableau.Text.Quoted

/-!
# Starting the server

The environment and the arguments decide how the server talks: over standard input and output,
or over HTTP on a port. A port that is not a whole number stops the start.
-/

namespace SimplexTableau

open SimplexTableau.Decimal

/-- Which foreign hosts and origins may connect. -/
structure TransportSecurity where
  rebindingProtection : Bool
  allowedHosts : List String
  allowedOrigins : List String
  deriving Repr, DecidableEq

/-- How the server talks. -/
inductive Transport where
  | standardStreams
  | http (host : String) (port : Int) (path : String) (security : TransportSecurity)
  deriving Repr, DecidableEq

def Transport.name : Transport → String
  | .standardStreams => "stdio"
  | .http .. => "streamable-http"

/-- A port that is not a whole number. -/
structure PortFault where
  text : String
  fault : WholeFault
  deriving Repr, DecidableEq

/-- The message cites the text of the port, cut off after two hundred characters. -/
def PortFault.message (f : PortFault) : String :=
  match f.fault with
  | .malformed =>
    "invalid literal for int() with base 10: " ++
      String.ofList ((Text.quoted f.text).toList.take 200)
  | .tooLong digits =>
    s!"Exceeds the limit ({maxDigits} digits) for integer string conversion: value has " ++
      s!"{digits} digits; use sys.set_int_max_str_digits() to increase the limit"

/-- What a start amounts to. -/
structure Startup where
  logLevel : String
  transport : Except PortFault Transport

namespace Startup

/-- The form of a line in the log. -/
def logFormat : String := "%(asctime)s %(levelname)s %(name)s: %(message)s"

/-- The security of a server that anyone may reach. -/
def openSecurity : TransportSecurity := ⟨false, ["*"], ["*"]⟩

/-- Reads the environment and the arguments. -/
def of (environment : List (String × String)) (arguments : List String) : Startup where
  logLevel := Text.capitals ((environment.lookup "LP_TABLEAU_LOG_LEVEL").getD "INFO")
  transport :=
    let wanted := (environment.lookup "MCP_TRANSPORT").getD "stdio"
    if wanted = "stdio" ∨ arguments.contains "--stdio" then .ok .standardStreams
    else
      let text := (environment.lookup "PORT").getD "8081"
      match readWhole text.toList with
      | .ok port => .ok (.http "0.0.0.0" port "/mcp" openSecurity)
      | .error fault => .error ⟨text, fault⟩

/-- What is written to the log when the server starts. -/
def entries (s : Startup) : List Entry :=
  let entry (place : String) : Entry :=
    ⟨.info, "lp_tableau.server", "Starting LP Tableau server on " ++ place⟩
  match s.transport with
  | .ok .standardStreams => [entry "stdio"]
  | .ok (.http _ port _ _) => [entry s!"port {port}"]
  | .error _ => []

end Startup

end SimplexTableau
