import SatSearch.Clause
import SatSearch.Dimacs.Log
import SatSearch.Files

/-!
# Instances

An `Instance` is a formula to measure the search with: its name, its source, what loading it gives, and the
status known beforehand.
-/

namespace SatSearch

/-- Why the clauses of an instance cannot be loaded. -/
inductive LoadError where
  | file (error : FileError)
  | dimacs (error : Dimacs.Error)
  /-- A failure of a source outside this library. -/
  | foreign (kind message : String)

/-- The text that reports a load error: a word for its kind and its message. -/
def LoadError.text : LoadError → String
  | file e => e.kind ++ ": " ++ e.message
  | dimacs e => "DimacsError: " ++ e.message
  | foreign kind message => kind ++ ": " ++ message

/-- What loading gives: the places of the clauses, or why there are none, and what was reported. -/
structure Load where
  clauses : Except LoadError (List (List Element))
  log : List LogLine

namespace Load

/-- The places of the clauses of a formula. -/
def places (f : Cnf) : List (List Element) :=
  f.map (List.map Element.literal)

/-- A formula that is at hand. -/
def ofCnf (f : Cnf) : Load :=
  { clauses := .ok (places f), log := [] }

/-- The formula that a text describes. -/
def ofText (text : List Char) : Load :=
  { clauses :=
      match Dimacs.parse text with
      | .ok f => .ok (places f.clauses)
      | .error e => .error (.dimacs e)
    log := Dimacs.textLog text }

/-- The formula in a file that was read. -/
def ofFile : Except FileError (List UInt8) → Load
  | .ok bytes =>
    { clauses :=
        match Dimacs.parseFile bytes with
        | .ok f => .ok (places f.clauses)
        | .error e => .error (.dimacs e)
      log := Dimacs.fileLog bytes }
  | .error e => { clauses := .error (.file e), log := [] }

end Load

/-- A formula to measure the search with. -/
structure Instance where
  name : String
  source : String
  load : Load
  expected : Option String

end SatSearch
