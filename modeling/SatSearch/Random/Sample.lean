import SatSearch.Random.Draw

/-!
# Samples from a stream of words

Sampling without replacement from a stream of 32-bit words (`sampleFrom`). From a small population the
sample is drawn out of a pool, whose last element fills each gap. From a large one numbers are drawn and
those drawn before are refused. Both give up after a limit of draws that do not fit.
-/

namespace SatSearch

variable {σ : Type} (next : σ → UInt32 × σ)

/-- A number of `k` bits, the low words drawn first and the last word cut from above. -/
def drawBits (k : Nat) (s : σ) : Nat × σ :=
  if k ≤ 32 then
    let (w, s) := next s
    (w.toNat >>> (32 - k), s)
  else
    let (w, s) := next s
    let (high, s) := drawBits (k - 32) s
    (w.toNat + UInt32.size * high, s)
termination_by k

/-- Draws numbers of `k` bits until one lies below `n`. -/
def drawBelowWithin (n k : Nat) : Nat → Draw σ Nat
  | 0 => throw .noDrawFits
  | tries + 1 => do
    let r ← modifyGet (drawBits next k)
    if r < n then return r else drawBelowWithin n k tries

variable (limit : Nat)

/-- A number below `n`. -/
def drawBelow (n : Nat) : Draw σ Nat :=
  drawBelowWithin next n (Nat.log2 n + 1) limit

/-- Takes `k` elements out of a pool. -/
def drawFromPool : Nat → List Int → Draw σ (List Int)
  | 0, _ => return []
  | k + 1, pool => do
    let j ← drawBelow next limit pool.length
    let rest ← drawFromPool k (pool.set j (pool.getLastD 0)).dropLast
    return pool.getD j 0 :: rest

/-- A number below `n` that was not chosen before. -/
def drawFreshWithin (n : Nat) (chosen : List Nat) : Nat → Draw σ Nat
  | 0 => throw .noDrawFits
  | tries + 1 => do
    let j ← drawBelow next limit n
    if chosen.contains j then drawFreshWithin n chosen tries else return j

/-- `k` different numbers below `n`, none of them chosen before. -/
def drawFresh (n : Nat) : Nat → List Nat → Draw σ (List Nat)
  | 0, _ => return []
  | k + 1, chosen => do
    let j ← drawFreshWithin next limit n chosen limit
    let rest ← drawFresh n k (j :: chosen)
    return j :: rest

/-- The greatest population that a sample of `k` is drawn from by a pool: 21, and for `k > 5` the least
power of four from `3 * k` on in addition. -/
def poolLimit (k : Nat) : Nat :=
  if k ≤ 5 then 21 else 21 + Nat.pow 4 ((Nat.log2 (3 * k - 1) + 2) / 2)

/-- The numbers from one to `n`. -/
def population (n : Nat) : List Int :=
  (List.range n).map fun (i : Nat) => (i : Int) + 1

/-- A sample of `k` of the numbers from one to `size`. -/
def sampleFrom (size k : Int) : Draw σ (List Int) := do
  let n := size.toNat
  if n ≥ Nat.pow 2 63 then throw .populationTooGreat
  if k < 0 ∨ (n : Int) < k then throw .sampleSize
  if n ≤ poolLimit k.toNat then drawFromPool next limit k.toNat (population n)
  else
    let chosen ← drawFresh next limit n k.toNat []
    return chosen.map fun (j : Nat) => (j : Int) + 1

/-- A number from zero up to one with 53 bits, out of two words. -/
def unitFrom : Draw σ Float := do
  let a ← modifyGet next
  let b ← modifyGet next
  return (((a.toNat >>> 5) <<< 26) + (b.toNat >>> 6)).toFloat / (Nat.pow 2 53).toFloat

/-- The draws from a stream of words. -/
def wordDraws : Draws σ where
  sample := sampleFrom next limit
  unit := unitFrom next

end SatSearch
