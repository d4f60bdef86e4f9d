import LayeredDispatch.Machine.Basic

/-! The boxed values of the call in progress. -/

namespace LayeredDispatch
namespace Run

/-- Puts a value on top. -/
def push (value : Value) : Run Unit :=
  modify fun machine => { machine with values := machine.values ++ [value] }

/-- Puts values on top, the last one uppermost. -/
def pushAll (values : List Value) : Run Unit :=
  modify fun machine => { machine with values := machine.values ++ values }

/-- Puts a tensor on top. -/
def pushTensor (tensor : Tensor) : Run Unit :=
  push (.tensor tensor)

/-- The position of the first of the last `count` values; there is a fault if there are fewer. -/
def lastStart (count : Nat) : Run Nat := do
  let present := (← get).values.length
  if count ≤ present then return present - count
  else fault (.stackUnderflow count present)

/-- The last `count` values, which stay. -/
def peek (count : Nat) : Run (List Value) := do
  let start ← lastStart count
  read fun machine => machine.values.drop start

/-- Takes the last `count` values away. -/
def pop (count : Nat) : Run (List Value) := do
  let start ← lastStart count
  let machine ← get
  set { machine with values := machine.values.take start }
  return machine.values.drop start

/-- Replaces every tensor among the values from `start` up to `stop`, members of lists included. -/
def mapRange (start stop : Nat) (replace : Tensor → Run Tensor) : Run Unit := do
  let values ← read Machine.values
  if start ≤ stop ∧ stop ≤ values.length then
    let replaced ← Value.mapTensorsAllM replace ((values.take stop).drop start)
    modify fun machine =>
      { machine with values := values.take start ++ replaced ++ values.drop stop }
  else fault (.rangeOutOfBounds start stop values.length)

/-- Replaces every tensor among the last `count` values, members of lists included. -/
def mapLast (count : Nat) (replace : Tensor → Run Tensor) : Run Unit := do
  let start ← lastStart count
  mapRange start (start + count) replace

/-- Runs `body` on values of its own and gives its result with the values that it leaves; the values
around it are as before, however it ends. -/
def onValues (values : List Value) (body : Run α) : Run (α × List Value) := do
  let outer ← read Machine.values
  modify fun machine => { machine with values }
  ensuring
    (do return (← body, ← read Machine.values))
    (modify fun machine => { machine with values := outer })

/-- The tensors among values, members of lists included, one after another. -/
def forTensors (values : List Value) (visit : Tensor → Run Unit) : Run Unit :=
  (Value.tensorsAll values).forM visit

end Run
end LayeredDispatch
