import SatSearch.Dimacs.Parser
import SatSearch.Log

/-!
# What reading DIMACS reports

A header that could be read is reported at once, whatever becomes of the clauses behind it.
-/

namespace SatSearch.Dimacs

/-- The lines that report a header. -/
def Header.log (h : Header) : List LogLine :=
  [{ level := .info, message := s!"[Parser] Num variables: {h.variableCount}" },
   { level := .info, message := s!"[Parser] Num clauses: {h.clauseCount}" }]

/-- What reading a text reports. -/
def textLog (text : List Char) : List LogLine :=
  match splitHeader text with
  | .ok (header, _) => header.log
  | .error _ => []

/-- What reading the bytes of a file reports. -/
def fileLog (bytes : List UInt8) : List LogLine :=
  match decodeFile bytes with
  | .ok text => textLog text
  | .error _ => []

end SatSearch.Dimacs
