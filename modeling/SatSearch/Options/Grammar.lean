import SatSearch.Decimal.Reader
import SatSearch.Text.Integer
import SatSearch.Text.Quoted
import SatSearch.Value

/-!
# Options of a command

A `Grammar` says which options a command has and which arguments it takes besides. `UsageError` is why a list
of arguments does not fit it.
-/

namespace SatSearch.Options

/-- What an argument has to spell. -/
inductive ValueKind where
  | whole
  | real
  | text
deriving DecidableEq

namespace ValueKind

/-- The word that messages use for a kind. -/
def word : ValueKind → String
  | whole => "int"
  | real => "float"
  | text => "str"

/-- Reads an argument. -/
def read? (kind : ValueKind) (s : String) : Option Value :=
  match kind with
  | whole => (Text.integerArgument? s).map .whole
  | real => (Decimal.floatArgument? s).map .real
  | text => some (.word s)

end ValueKind

/-- What an option takes. -/
inductive Arity where
  /-- Nothing; the option asks for help. -/
  | help
  | none
  | one (kind : ValueKind)
  | several (kind : ValueKind)
deriving DecidableEq

/-- An option of a command. -/
structure Spec where
  /-- Its spellings, the shortest first. -/
  names : List String
  arity : Arity
deriving DecidableEq

namespace Spec

/-- An option with one spelling. -/
def long (name : String) (arity : Arity) : Spec :=
  { names := [name], arity }

/-- The option that asks for help, which every command has. -/
def askHelp : Spec :=
  { names := ["-h", "--help"], arity := .help }

/-- How messages name an option. -/
def text (o : Spec) : String :=
  "/".intercalate o.names

end Spec

/-- What a command takes besides its options. -/
inductive Operands where
  | none
  | one (name : String)
  /-- One or more. -/
  | several (name : String)
deriving DecidableEq

/-- The arguments a command understands. -/
structure Grammar where
  command : String
  options : List Spec
  operands : Operands

/-- Why a list of arguments does not fit. -/
inductive UsageError where
  /-- An abbreviation stands for more than one option. -/
  | ambiguous (argument : String) (candidates : List String)
  /-- A value is attached to an option that takes none. -/
  | ignoredValue (option : Spec) (value : String)
  | missingValue (option : Spec)
  | invalidValue (option : Spec) (kind : ValueKind) (value : String)
  | missingOperand (name : String)
  | unrecognised (arguments : List String)
  /-- Random formulas need more variables. -/
  | tooFewVariables (count : Int)
deriving DecidableEq

/-- The text that reports a usage error. -/
def UsageError.message : UsageError → String
  | ambiguous argument candidates =>
    "ambiguous option: " ++ argument ++ " could match " ++ ", ".intercalate candidates
  | ignoredValue o value => "argument " ++ o.text ++ ": ignored explicit argument " ++ Text.quoted value
  | missingValue o => "argument " ++ o.text ++ ": expected one argument"
  | invalidValue o kind value =>
    "argument " ++ o.text ++ ": invalid " ++ kind.word ++ " value: " ++ Text.quoted value
  | missingOperand name => "the following arguments are required: " ++ name
  | unrecognised arguments => "unrecognized arguments: " ++ " ".intercalate arguments
  | tooFewVariables count =>
    s!"--num-vars must be at least 3 for random 3-CNF instances, got {count}"

/-- Why a command does not run. -/
inductive Stop where
  | help
  | usage (error : UsageError)
deriving DecidableEq

/-- How the summary of a command shows an option. -/
def Spec.summary (o : Spec) : String :=
  "[" ++ ", ".intercalate o.names ++
    (match o.arity with
      | .help | .none => ""
      | .one kind => " " ++ kind.word
      | .several kind => " [" ++ kind.word ++ " ...]") ++ "]"

/-- How the summary of a command shows its operands. -/
def Operands.summary : Operands → List String
  | none => []
  | one name => [name]
  | several name => [name ++ " [" ++ name ++ " ...]"]

/-- The summary of a command. -/
def Grammar.summary (g : Grammar) : String :=
  "usage: " ++ " ".intercalate (g.command :: g.options.map Spec.summary ++ g.operands.summary)

/-- What a command prints when its arguments do not fit. -/
def Grammar.usageLine (g : Grammar) (e : UsageError) : String :=
  g.command ++ ": error: " ++ e.message

end SatSearch.Options
