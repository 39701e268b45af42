import SatSearch.Text.Integer

/-!
# Drawing at random

A generator draws samples of a population and numbers between zero and one. `Draws σ` is what it needs for
that, over any kind of stream with state `σ`.
-/

namespace SatSearch

/-- Why a formula cannot be generated. -/
inductive GenerationError where
  /-- A clause asks for more variables than there are. -/
  | tooFewVariables (k variableCount : Int)
  /-- A sample of negative size or of more than the population was asked for. -/
  | sampleSize
  /-- A sample of a population was asked for whose size does not fit into 64 bits. -/
  | populationTooGreat
  /-- A prescribed list of draws has ended. -/
  | drawsEnded
  /-- No draw fell into the range asked for. -/
  | noDrawFits
  /-- The number of variables is too great for a number with a fraction. -/
  | tooManyVariables
  /-- The number of clauses is infinite. -/
  | infiniteRatio
  /-- The number of clauses is not a number. -/
  | ratioNotANumber
  /-- A name would hold an integer with too many digits. -/
  | nameTooLong
deriving DecidableEq

/-- The text that reports a generation error. -/
def GenerationError.message : GenerationError → String
  | tooFewVariables k n => s!"k={k} distinct variables requested but only {n} exist"
  | sampleSize => "Sample larger than population or is negative"
  | populationTooGreat => "Python int too large to convert to C ssize_t"
  | drawsEnded => "pop from empty list"
  | noDrawFits => "no draw fits"
  | tooManyVariables => "int too large to convert to float"
  | infiniteRatio => "cannot convert float infinity to integer"
  | ratioNotANumber => "cannot convert float NaN to integer"
  | nameTooLong =>
    s!"Exceeds the limit ({Text.digitLimit} digits) for integer string conversion; " ++
      "use sys.set_int_max_str_digits() to increase the limit"

/-- A computation that draws from a stream with state `σ`. -/
abbrev Draw (σ α : Type) : Type :=
  StateT σ (Except GenerationError) α

/-- The draws a generator is made of. -/
structure Draws (σ : Type) where
  /-- A sample of `k` of the numbers from one to `size`, in the order drawn. -/
  sample (size k : Int) : Draw σ (List Int)
  /-- A number from zero up to one. -/
  unit : Draw σ Float

/-! ### Prescribed draws -/

/-- Draws given in advance, and the samples that were asked for. -/
structure Script where
  samples : List (List Int)
  units : List Float
  /-- The size of the population and of the sample, last asked last. -/
  asked : List (Int × Int)

/-- The draws of a script, in order. -/
def Script.draws : Draws Script where
  sample size k := do
    let s ← get
    match s.samples with
    | [] => throw .drawsEnded
    | chosen :: samples =>
      set { s with samples, asked := s.asked ++ [(size, k)] }
      return chosen
  unit := do
    let s ← get
    match s.units with
    | [] => throw .drawsEnded
    | x :: units =>
      set { s with units }
      return x

end SatSearch
