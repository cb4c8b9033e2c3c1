import ArrayEngine.Layout

/-!
# Layouts derived from layouts

Two axes of a layout can be exchanged, and a layout can be spread over a larger shape by giving the
new and the stretched axes the stride zero. No element is moved either way.
-/

namespace ArrayEngine.Layout

/-- The list with the entries at two places exchanged. -/
def exchange (entries : List Nat) (i j : Nat) : List Nat :=
  match entries[i]?, entries[j]? with
  | some x, some y => (entries.set i y).set j x
  | _, _ => entries

/-- The layout with two axes exchanged. The first axis that does not exist is reported. -/
def transpose (layout : Layout) (i j : Nat) : Except Error Layout :=
  if layout.rank ≤ i then .error (.invalidAxis i layout.rank)
  else if layout.rank ≤ j then .error (.invalidAxis j layout.rank)
  else
    .ok (make (exchange layout.extents i j) (exchange layout.strides i j) layout.order
      layout.dtype)

/-- The strides of axes stretched to target extents of the same number: an axis that has the target
extent keeps its stride, and one with a single coordinate is repeated by the stride zero. -/
def stretch? : List Nat → List Nat → List Nat → Option (List Nat)
  | extent :: extents, stride :: strides, target :: targets =>
      if extent = target then (stretch? extents strides targets).map (stride :: ·)
      else if extent = 1 then (stretch? extents strides targets).map (0 :: ·)
      else none
  | _, _, _ => some []

/-- The layout spread over a shape with at least as many axes. The axes of the layout are matched
with the last ones of the target. -/
def broadcastTo (layout : Layout) (target : List Nat) : Except Error Layout :=
  if target.length < layout.rank then .error (.shapeMismatch target layout.extents)
  else if (Size.count? target).isNone then .error (tooManyElements target)
  else
    let added := target.length - layout.rank
    match stretch? layout.extents layout.strides (target.drop added) with
    | none => .error (.shapeMismatch target layout.extents)
    | some strides =>
        .ok (make target (List.replicate added 0 ++ strides) layout.order layout.dtype)

end ArrayEngine.Layout
