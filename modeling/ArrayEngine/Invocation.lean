import ArrayEngine.Tensor

/-!
# Invocations of operations

An invocation holds what an operation works on: the inputs, the outputs that are bound to slots, and
the parameters. In place, there are no separate outputs: the output of a slot is the input of that
slot.
-/

namespace ArrayEngine

/-- The parameters of an operation. An operation reads those that it has a use for. -/
structure Params where
  /-- The axes to reduce; all if the list is missing. -/
  axes : Option (List Nat) := none
  /-- Keep the reduced axes with the extent one. -/
  keepDims : Bool := false
  /-- The element type of the output, where there is a choice. -/
  dtype : Option DType := none
  deriving DecidableEq, Repr

/-- The arrays and parameters that an operation works on. -/
structure Invocation where
  inputs : List Tensor := []
  outputs : List (Option Tensor) := []
  params : Params := {}
  inPlace : Bool := false
  deriving DecidableEq

/-- The input and the output of one slot. -/
inductive SlotPair where
  | separate (input output : Tensor)
  /-- In place: the input is the output. -/
  | aliased (tensor : Tensor)
  deriving DecidableEq

namespace Invocation

/-- There is no input in the slot. -/
def missingInput (slot : Nat) : Error :=
  .invalidSlot slot "no input array bound to this slot"

/-- There is no output in the slot. -/
def missingOutput (slot : Nat) : Error :=
  .invalidSlot slot "no output array bound to this slot"

/-- The array of a slot among the separate outputs. -/
def boundOutput? (invocation : Invocation) (slot : Nat) : Option Tensor :=
  (invocation.outputs[slot]?).join

/-- The input of a slot. -/
def input (invocation : Invocation) (slot : Nat) : Except Error Tensor :=
  match invocation.inputs[slot]? with
  | some tensor => .ok tensor
  | none => .error (missingInput slot)

/-- The output of a slot; in place, the input of that slot. -/
def output? (invocation : Invocation) (slot : Nat) : Option Tensor :=
  if invocation.inPlace then invocation.inputs[slot]? else invocation.boundOutput? slot

/-- The output of a slot, or an error if there is none. -/
def output (invocation : Invocation) (slot : Nat) : Except Error Tensor :=
  match invocation.output? slot with
  | some tensor => .ok tensor
  | none => .error (missingOutput slot)

/-- The layouts of the inputs. -/
def inputLayouts (invocation : Invocation) : List Layout :=
  invocation.inputs.map Tensor.layout

/-- The input and the output of a slot. -/
def slotPair (invocation : Invocation) (slot : Nat) : Except Error SlotPair :=
  match invocation.inputs[slot]? with
  | none => .error (missingInput slot)
  | some input =>
      if invocation.inPlace then .ok (.aliased input)
      else
        match invocation.boundOutput? slot with
        | none => .error (missingOutput slot)
        | some output => .ok (.separate input output)

/-- The invocation with an array as the output of a slot. Slots before it stay unbound. -/
def bindOutput (invocation : Invocation) (slot : Nat) (tensor : Tensor) : Invocation :=
  let padded :=
    invocation.outputs ++ List.replicate (slot + 1 - invocation.outputs.length) none
  { invocation with outputs := padded.set slot (some tensor) }

/-- The invocation with another array in place of the output of a slot that has one. -/
def replaceOutput (invocation : Invocation) (slot : Nat) (tensor : Tensor) : Invocation :=
  if invocation.inPlace then { invocation with inputs := invocation.inputs.set slot tensor }
  else { invocation with outputs := invocation.outputs.set slot (some tensor) }

/-- The change of an invocation that changes the output of a slot. -/
def updateOutput (slot : Nat) (update : Update Tensor) : Update Invocation := fun invocation ↦
  match invocation.output? slot with
  | none => .error (missingOutput slot) invocation
  | some tensor =>
      match update tensor with
      | .error error left => .error error (invocation.replaceOutput slot left)
      | .ok _ left => .ok () (invocation.replaceOutput slot left)

/-- The output of a slot, taken out of the invocation. In place it is copied, and the invocation
stays as it is. -/
def takeOutput (invocation : Invocation) (slot : Nat) : Except Error (Tensor × Invocation) :=
  match invocation.output? slot with
  | none => .error (missingOutput slot)
  | some tensor =>
      if invocation.inPlace then .ok (tensor, invocation)
      else .ok (tensor, { invocation with outputs := invocation.outputs.set slot none })

/-- The outputs that are bound, in the order of their slots; in place, the inputs. -/
def boundOutputs (invocation : Invocation) : List Tensor :=
  if invocation.inPlace then invocation.inputs else invocation.outputs.filterMap id

end Invocation

end ArrayEngine
