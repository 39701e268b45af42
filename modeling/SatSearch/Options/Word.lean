import SatSearch.Options.Grammar

/-!
# Words of a command line

Every argument is first looked at on its own (`classify`): it is a value, an option, or a word that looks like
an option and is none. Two dashes end the options; all arguments behind them are values.
-/

namespace SatSearch.Options

/-- What an argument is by itself. -/
inductive Word where
  | value (s : String)
  /-- The two dashes that end the options. -/
  | separator
  | option (o : Spec) (attached : Option String)
  | unknown (s : String)

namespace Word

/-- Whether the word is no option, known or unknown. -/
def isOperand : Word → Bool
  | value _ | separator => true
  | option _ _ | unknown _ => false

/-- The value that a word is. -/
def value? : Word → Option String
  | value s => some s
  | _ => none

/-- The argument that an operand stands for. -/
def text : Word → String
  | value s | unknown s => s
  | separator => "--"
  | option o _ => o.text

end Word

/-- Whether a text is the spelling of a negative number, such as `-1` or `-.5`. A line feed may end it. -/
def isNegativeNumber (s : List Char) : Bool :=
  match s with
  | '-' :: rest =>
    let rest := if rest.getLast? = some '\n' then rest.dropLast else rest
    match rest.dropWhile Text.isDigit with
    | [] => !rest.isEmpty
    | '.' :: fraction => !fraction.isEmpty && fraction.all Text.isDigit
    | _ => false
  | _ => false

/-- The text in front of the first equals sign and the text behind it. -/
def splitAttached (s : String) : Option (String × String) :=
  let front := s.toList.takeWhile (· != '=')
  if front.length < s.length then
    some (String.ofList front, String.ofList (s.toList.drop (front.length + 1)))
  else none

/-- The option with this spelling. -/
def findOption? (options : List Spec) (name : String) : Option Spec :=
  options.find? (·.names.contains name)

/-- The spellings of options that an argument may abbreviate. -/
def abbreviated (options : List Spec) (start : String) : List (String × Spec) :=
  options.flatMap fun o => (o.names.filter (·.startsWith start)).map fun name => (name, o)

/-- Whether an option takes no value. -/
def Spec.takesNothing (o : Spec) : Bool :=
  o.arity == .help || o.arity == .none

/-- The option that a letter stands for. -/
def letterOption? (options : List Spec) (c : Char) : Option Spec :=
  findOption? options (String.ofList ['-', c])

/-- What is attached to a letter. If its option takes nothing, letters of other options may follow it; the
rest is a value. -/
def attachToLetter (options : List Spec) (o : Spec) : List Char → Word
  | [] => .option o none
  | c :: rest =>
    match if o.takesNothing then letterOption? options c else none with
    | some next => attachToLetter options next rest
    | none => .option o (some (String.ofList (c :: rest)))

/-- An option with a value attached by an equals sign. Behind a letter the value is looked at as if there
were none, unless it is empty. -/
def attachValue (options : List Spec) (name : String) (o : Spec) (value : String) : Word :=
  if name.startsWith "--" || value.isEmpty then .option o (some value)
  else attachToLetter options o value.toList

/-- The options an argument may stand for that is not the spelling of one. A single dash and a letter may
have more attached without an equals sign. -/
def candidates (options : List Spec) (s : String) : List (String × Word) :=
  if s.startsWith "--" then
    let (start, attached) :=
      match splitAttached s with
      | some (start, value) => (start, some value)
      | none => (s, none)
    (abbreviated options start).map fun (name, o) => (name, .option o attached)
  else
    match findOption? options (String.ofList (s.toList.take 2)) with
    | some o => [(String.ofList (s.toList.take 2), attachToLetter options o (s.toList.drop 2))]
    | none => []

/-- Classifies an argument in front of the two dashes. -/
def classify (options : List Spec) (s : String) : Except UsageError Word :=
  if !s.startsWith "-" then .ok (.value s)
  else
    match findOption? options s with
    | some o => .ok (.option o none)
    | none =>
      if s = "-" then .ok (.value s)
      else
        match (splitAttached s).bind fun (name, value) =>
            (findOption? options name).map fun o => attachValue options name o value with
        | some word => .ok word
        | none =>
          match candidates options s with
          | [(_, word)] => .ok word
          | [] =>
            if isNegativeNumber s.toList || s.toList.contains ' ' then .ok (.value s) else .ok (.unknown s)
          | several => .error (.ambiguous s (several.map (·.1)))

/-- Classifies all arguments. -/
def classifyAll (options : List Spec) : List String → Except UsageError (List Word)
  | [] => .ok []
  | s :: rest =>
    if s = "--" then .ok (.separator :: rest.map .value)
    else do
      let word ← classify options s
      let words ← classifyAll options rest
      return word :: words

end SatSearch.Options
