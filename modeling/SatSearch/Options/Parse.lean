import SatSearch.Options.Word

/-!
# Reading a command line

The words of a command line are read from the left. An option takes the values that follow it; a stretch of
values between options goes to the operands while they are still missing, and what nothing takes is left over
(`readWords`).
-/

namespace SatSearch.Options

/-- What was read so far. -/
structure Progress where
  /-- The operands still missing. -/
  pending : Operands
  /-- The options given with their values, newest first. -/
  given : List (Spec × List Value)
  operands : List String
  /-- The arguments that nothing takes, in order. -/
  leftOver : List String

/-- Reads the value of an option. -/
def readValue (o : Spec) (kind : ValueKind) (s : String) : Except Stop Value :=
  match kind.read? s with
  | some v => .ok v
  | none => .error (.usage (.invalidValue o kind s))

namespace Progress

/-- Notes an option with its values. -/
def give (p : Progress) (o : Spec) (values : List Value) : Progress :=
  { p with given := (o, values) :: p.given }

/-- Notes arguments that nothing takes. -/
def leave (p : Progress) (words : List Word) : Progress :=
  { p with leftOver := p.leftOver ++ words.map Word.text }

/-- Gives a stretch of values to the operands. A single operand takes the first value, with the two dashes
next to it. -/
def takeOperands (p : Progress) (stretch : List Word) : Progress :=
  match p.pending, stretch.filterMap Word.value? with
  | .one _, value :: _ =>
    let behind := (stretch.dropWhile (·.value?.isNone)).drop 1
    let rest := behind.dropWhile (·.value?.isNone)
    { p with pending := .none, operands := [value] }.leave rest
  | .several _, value :: more => { p with pending := .none, operands := value :: more }
  | _, _ => p.leave stretch

end Progress

/-- The words at the front that are values. -/
def leadingValues (words : List Word) : List String :=
  (words.takeWhile (·.value?.isSome)).filterMap Word.value?

/-- Reads an option and the values that follow it; `rest` are the words behind it. Also gives the number of
words it takes. -/
def readOption (p : Progress) (o : Spec) (attached : Option String) (rest : List Word) :
    Except Stop (Progress × Nat) :=
  match o.arity, attached with
  | .help, none => .error .help
  | .none, none => .ok (p.give o [], 0)
  | .help, some value | .none, some value => .error (.usage (.ignoredValue o value))
  | .one kind, some value => do
    let v ← readValue o kind value
    return (p.give o [v], 0)
  | .one kind, none =>
    match leadingValues rest with
    | [] => .error (.usage (.missingValue o))
    | value :: _ => do
      let v ← readValue o kind value
      return (p.give o [v], 1)
  | .several kind, some value => do
    let v ← readValue o kind value
    return (p.give o [v], 0)
  | .several kind, none => do
    let values ← (leadingValues rest).mapM (readValue o kind)
    return (p.give o values, values.length)

/-- Reads words from the left. -/
def readWords (p : Progress) : List Word → Except Stop Progress
  | [] => .ok p
  | .option o attached :: rest =>
    match readOption p o attached rest with
    | .error e => .error e
    | .ok (p, taken) => readWords p (rest.drop taken)
  | .unknown s :: rest => readWords (p.leave [.unknown s]) rest
  | word :: rest =>
    readWords (p.takeOperands (word :: rest.takeWhile Word.isOperand)) (rest.dropWhile Word.isOperand)
termination_by words => words.length
decreasing_by
  · simp only [List.length_drop, List.length_cons]
    omega
  · simp
  · have := (List.dropWhile_sublist Word.isOperand (l := rest)).length_le
    simp only [List.length_cons]
    omega

/-- The options and operands of a command line that fits. -/
structure Parsed where
  /-- The options given with their values, newest first. -/
  given : List (Spec × List Value)
  operands : List String

/-- Reads the arguments of a command. Missing operands are reported before arguments that nothing takes. -/
def parse (g : Grammar) (arguments : List String) : Except Stop Parsed := do
  let words ←
    match classifyAll g.options arguments with
    | .ok words => .ok words
    | .error e => .error (.usage e)
  let p ← readWords { pending := g.operands, given := [], operands := [], leftOver := [] } words
  match p.pending with
  | .one name | .several name => throw (.usage (.missingOperand name))
  | .none =>
    if p.leftOver.isEmpty then return { given := p.given, operands := p.operands }
    else throw (.usage (.unrecognised p.leftOver))

namespace Parsed

/-- The values of an option where it was given last. -/
def find? (p : Parsed) (o : Spec) : Option (List Value) :=
  p.given.lookup o

/-- Whether an option was given. -/
def has (p : Parsed) (o : Spec) : Bool :=
  (p.find? o).isSome

/-- The whole numbers given for an option. -/
def wholes? (p : Parsed) (o : Spec) : Option (List Int) :=
  (p.find? o).map fun vs => vs.filterMap fun
    | .whole n => some n
    | _ => none

/-- The whole number given for an option. -/
def whole? (p : Parsed) (o : Spec) : Option Int :=
  (p.wholes? o).bind List.head?

/-- The number given for an option. -/
def real? (p : Parsed) (o : Spec) : Option Float :=
  (p.find? o).bind fun vs => vs.head?.bind fun
    | .real x => some x
    | _ => none

/-- The text given for an option. -/
def text? (p : Parsed) (o : Spec) : Option String :=
  (p.find? o).bind fun vs => vs.head?.bind fun
    | .word s => some s
    | _ => none

end Parsed

end SatSearch.Options
