import SatSearch.Dimacs.Formula
import SatSearch.Text.Blank
import SatSearch.Text.Integer
import SatSearch.Text.Newline

/-!
# Reading DIMACS

Blank lines and comments may stand anywhere. The first other line is the header; the lines after it are
the clauses, one a line, and nothing behind the declared number of them is looked at. `parse` reads a
text and `parseFile` the bytes of a file.
-/

namespace SatSearch.Dimacs

open SatSearch.Text

/-- Whether a line without blanks at its ends is empty or a comment. -/
def isRedundant : List Char → Bool
  | [] => true
  | c :: _ => c == 'c'

/-- The lines that say something, without blanks at their ends. -/
def significantLines (text : List Char) : List (List Char) :=
  ((lines text).map strip).filter (!isRedundant ·)

/-- Reads a header. Words behind the two numbers are ignored. -/
def parseHeader (line : List Char) : Except Error Header :=
  match words line with
  | p :: cnf :: rest =>
    if p = ['p'] ∧ cnf = ['c', 'n', 'f'] then
      match rest with
      | v :: m :: _ =>
        match integer? v, integer? m with
        | some v, some m => .ok { variableCount := v, clauseCount := m }
        | _, _ => .error .malformed
      | _ => .error .malformed
    else .error (.notCnf (String.ofList line))
  | _ => .error (.notCnf (String.ofList line))

/-- Reads one word of a clause. -/
def parseNumber (word : List Char) : Except Error Int :=
  match integer? word with
  | some n => .ok n
  | none => .error (.notANumber (String.ofList word))

/-- Reads a clause. A zero ends a clause and is never a literal. -/
def parseClause (line : List Char) : Except Error (List Literal) := do
  let numbers ← (words line).mapM parseNumber
  return numbers.filter (· ≠ 0)

/-- The header of a text and the lines behind it. -/
def splitHeader (text : List Char) : Except Error (Header × List (List Char)) :=
  match significantLines text with
  | [] => .error .malformed
  | line :: rest => do
    let header ← parseHeader line
    return (header, rest)

/-- Reads the clauses behind a header and checks the declared numbers. -/
def parseBody (header : Header) (rest : List (List Char)) : Except Error Formula := do
  let clauses ← (rest.take header.clauseCount.toNat).mapM parseClause
  let occurring := Cnf.variables clauses
  if (clauses.length : Int) ≠ header.clauseCount then
    throw (.clauseCount header.clauseCount clauses.length)
  if (occurring.length : Int) ≠ header.variableCount then
    throw (.variableCount header.variableCount occurring.length)
  return { header with clauses, «variables» := occurring }

/-- Reads a text. -/
def parse (text : List Char) : Except Error Formula := do
  let (header, rest) ← splitHeader text
  parseBody header rest

/-- The text in the bytes of a file. -/
def decodeFile (bytes : List UInt8) : Except Error (List Char) :=
  match decode bytes with
  | .ok text => .ok (unifyLineEnds text)
  | .error e => .error (.notText e)

/-- Reads the bytes of a file. -/
def parseFile (bytes : List UInt8) : Except Error Formula := do
  parse (← decodeFile bytes)

end SatSearch.Dimacs
