import TraceDiff.Replay

/-! Replays whose gas is given by a value of any kind. -/
namespace TraceDiff.Replay.Given

open Rpc (Value)

/-- Gas as a number; an amount of a float is owed all the same, but is no number. -/
structure Gas where
  number : Int
  isFloat : Bool := false
deriving DecidableEq, Repr

/-- The gas of a transaction at a price. What is empty, or makes nothing at the price, is none. -/
def Gas.ofValue (v : Value) (price : Int) : Except Fault Gas :=
  match v with
  | .float x =>
    if (Binary64.ofInt? price).isNone then .error .beyondFloat
    else .ok { number := 0, isFloat := !(x.isZero || (x.isFinite && price = 0)) }
  | .text _ | .bytes _ | .list _ =>
    if v.truthy && 0 < price then .error .wrongKind else .ok { number := 0 }
  | v => (fun number => { number }) <$> v.number

/-- Seeds a replay. A float that is owed is no amount, which shows once all else is done. -/
def seed {σ : Type} (sources : Sources σ) (balancesOnly : Bool) (tx : Transaction) (gas : Value) :
    Run σ Unit := do
  let gas ← .ofExcept (Gas.ofValue gas tx.gasPrice)
  Replay.seed sources balancesOnly tx gas.number
  if gas.isFloat then .fail .wrongKind

end TraceDiff.Replay.Given
