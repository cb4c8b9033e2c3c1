import ArrayEngine.Proofs.Layout.Reshape
import ArrayEngine.Proofs.Layout.SplitSuccess

/-!
# Whether a derived layout would be accepted

A layout that was accepted with its strides can be reshaped many times over. What `strided` makes of
the extents and strides of the result is its `verdict`: they always agree in number and address
nothing too far away, and the uniform stride is the one that `strided` computes. The other two
checks are not made anew. Spreading a layout does not look at the number of axes, and exchanging
axes of an array without elements can bring large extents in front of the zero, where counting from
left to right fails. `strided_of_reshapeAll` puts this together.
-/

namespace ArrayEngine

open Layout

/-- A way to derive a layout from a layout. -/
inductive Reshaping where
  | transpose (i j : Nat)
  | broadcastTo (target : List Nat)
  | withDType (dtype : DType)
  deriving DecidableEq, Repr

namespace Layout

/-- The layout derived in the given way. -/
def reshape (layout : Layout) : Reshaping → Except Error Layout
  | .transpose i j => layout.transpose i j
  | .broadcastTo target => layout.broadcastTo target
  | .withDType dtype => .ok (layout.withDType dtype)

/-- The layout derived in the given ways, one after another. -/
def reshapeAll (layout : Layout) (reshapings : List Reshaping) : Except Error Layout :=
  reshapings.foldlM reshape layout

/-- What `strided` answers to the extents and strides of a layout, if only the number of axes and
the number of elements are in question. -/
def verdict (layout : Layout) : Except Error Layout :=
  if maxRank < layout.rank then
    .error (.invalidShape s!"rank {layout.rank} exceeds maximum rank {maxRank}")
  else if (Size.count? layout.extents).isNone then .error (tooManyElements layout.extents)
  else .ok layout

/-- The layout is accepted exactly if it has not too many axes and its elements can be counted. -/
theorem verdict_eq_ok_iff {layout other : Layout} :
    layout.verdict = .ok other ↔
      layout.rank ≤ maxRank ∧ (Size.count? layout.extents).isSome ∧ other = layout := by
  unfold verdict
  cases Size.count? layout.extents <;> grind

variable {layout other : Layout}

/-- The extents and strides of an addressable layout are asked for nothing else, and lead back to
the layout. -/
theorem Addressable.strided_eq_verdict (hlayout : layout.Addressable) :
    strided layout.extents layout.strides layout.order layout.dtype = layout.verdict := by
  have hmake : make layout.extents layout.strides layout.order layout.dtype = layout := by
    rw [make, ← hlayout.uniformStride_eq]
  have hspan : ¬(span? layout.extents layout.strides).isNone := by
    simpa [Option.isSome_iff_ne_none] using hlayout.isSome_span?
  rw [strided, verdict, if_neg (not_not_intro hlayout.length_strides.symm), if_neg hspan, hmake]
  rfl

/-! ## One step -/

theorem Addressable.of_reshape {reshaping : Reshaping} (hlayout : layout.Addressable)
    (h : layout.reshape reshaping = .ok other) : other.Addressable := by
  cases reshaping with
  | transpose i j => exact hlayout.of_transpose h
  | broadcastTo target => exact hlayout.of_broadcastTo h
  | withDType dtype =>
      cases h
      exact hlayout.withDType dtype

/-- Only a target shape can bring in more axes. -/
theorem rank_le_of_reshape {reshaping : Reshaping} {bound : Nat}
    (htarget : ∀ target, reshaping = .broadcastTo target → target.length ≤ bound)
    (hlayout : layout.rank ≤ bound) (h : layout.reshape reshaping = .ok other) :
    other.rank ≤ bound := by
  cases reshaping with
  | transpose i j =>
      obtain ⟨_, _, rfl⟩ := transpose_eq_ok_iff.mp h
      show (exchange layout.extents i j).length ≤ bound
      rw [length_exchange]
      exact hlayout
  | broadcastTo target =>
      obtain ⟨_, _, stretched, _, rfl⟩ := broadcastTo_eq_ok_iff.mp h
      exact htarget target rfl
  | withDType dtype =>
      cases h
      exact hlayout

/-- Only an exchange of axes can make the elements uncountable. -/
theorem isSome_count?_of_reshape {reshaping : Reshaping}
    (hstays : ∀ i j, reshaping ≠ .transpose i j) (hlayout : (Size.count? layout.extents).isSome)
    (h : layout.reshape reshaping = .ok other) : (Size.count? other.extents).isSome := by
  cases reshaping with
  | transpose i j => exact absurd rfl (hstays i j)
  | broadcastTo target =>
      obtain ⟨_, hcount, stretched, _, rfl⟩ := broadcastTo_eq_ok_iff.mp h
      exact hcount
  | withDType dtype =>
      cases h
      exact hlayout

/-! ## Many steps -/

/-- What holds of a layout and is kept by each step holds of the layout that is left. -/
theorem reshapeAll_induction {P : Layout → Prop} {reshapings : List Reshaping}
    (hstep : ∀ reshaping ∈ reshapings, ∀ {layout other : Layout}, P layout →
      layout.reshape reshaping = .ok other → P other)
    (hstart : P layout) (h : layout.reshapeAll reshapings = .ok other) : P other := by
  induction reshapings generalizing layout with
  | nil =>
      cases h
      exact hstart
  | cons reshaping rest ih =>
      rw [reshapeAll, List.foldlM_cons, bind_eq_ok] at h
      obtain ⟨next, hnext, hrest⟩ := h
      have hstart' := hstep reshaping List.mem_cons_self hstart hnext
      exact ih (fun later hlater ↦ hstep later (List.mem_cons_of_mem _ hlater)) hstart' hrest

theorem Addressable.of_reshapeAll {reshapings : List Reshaping} (hlayout : layout.Addressable)
    (h : layout.reshapeAll reshapings = .ok other) : other.Addressable :=
  reshapeAll_induction (fun _ _ _ _ hkept ↦ hkept.of_reshape) hlayout h

/-- A layout derived from an accepted one, by exchanging axes, by spreading it over larger shapes
and by changing its type, has as many strides as extents, needs a number of cells that is a size,
and has the uniform stride that is computed for its extents and strides. Hence it would be accepted
anew, and as it is, exactly if it has not too many axes and if its elements can be counted from left
to right. It has not too many axes if no shape it was spread over has, and its elements can be
counted if there are any or if no axes were exchanged. -/
theorem strided_of_reshapeAll {extents strides : List Nat} {order : Order} {dtype : DType}
    {reshapings : List Reshaping} (hlayout : strided extents strides order dtype = .ok layout)
    (h : layout.reshapeAll reshapings = .ok other) :
    other.strides.length = other.extents.length ∧
      (span? other.extents other.strides).isSome ∧
      other.uniformStride = findUniformStride other.extents other.strides other.order ∧
      strided other.extents other.strides other.order other.dtype = other.verdict ∧
      ((∀ target, .broadcastTo target ∈ reshapings → target.length ≤ maxRank) →
        other.rank ≤ maxRank) ∧
      ((0 < other.size ∨ ∀ i j, .transpose i j ∉ reshapings) →
        (Size.count? other.extents).isSome) := by
  have hother := (addressable_of_strided hlayout).of_reshapeAll h
  obtain ⟨hrank, _, _, hcount, rfl⟩ := strided_eq_ok_iff.mp hlayout
  refine ⟨hother.length_strides, hother.isSome_span?, hother.uniformStride_eq,
    hother.strided_eq_verdict, fun htargets ↦ ?_, ?_⟩
  · have hstart : (make extents strides order dtype).rank ≤ maxRank := hrank
    refine reshapeAll_induction (P := fun layout ↦ layout.rank ≤ maxRank) ?_ hstart h
    rintro reshaping hmem _ _ hkept hstep
    exact rank_le_of_reshape (fun target htarget ↦ htargets target (htarget ▸ hmem)) hkept hstep
  · rintro (hpos | hstays)
    · exact isSome_count? hpos hother.size_lt
    · refine reshapeAll_induction (P := fun layout ↦ (Size.count? layout.extents).isSome) ?_
        hcount h
      rintro reshaping hmem _ _ hkept hstep
      exact isSome_count?_of_reshape (fun i j htranspose ↦ hstays i j (htranspose ▸ hmem)) hkept
        hstep

/-- Two rows of every other cell with a gap between them. -/
def gappedRows : Layout :=
  make [2, 1, 3] [7, 5, 2] .rowMajor .f32

/-- The rows as columns, again and again. -/
def repeatedColumns : Layout :=
  make [4, 3, 6, 2] [0, 2, 0, 7] .rowMajor .i64

/-- A gapped array turned around and spread over a larger shape. -/
theorem strided_of_reshapeAll_gapped :
    strided [2, 1, 3] [7, 5, 2] .rowMajor .f32 = .ok gappedRows ∧
      gappedRows.reshapeAll [.transpose 0 2, .broadcastTo [4, 3, 6, 2], .withDType .i64] =
        .ok repeatedColumns ∧
      strided [4, 3, 6, 2] [0, 2, 0, 7] .rowMajor .i64 = .ok repeatedColumns := by
  have hlayout : strided [2, 1, 3] [7, 5, 2] .rowMajor .f32 = .ok gappedRows := rfl
  have hreshaped : gappedRows.reshapeAll
      [.transpose 0 2, .broadcastTo [4, 3, 6, 2], .withDType .i64] = .ok repeatedColumns := rfl
  obtain ⟨_, _, _, hverdict, hrank, hcount⟩ := strided_of_reshapeAll hlayout hreshaped
  have htargets : ∀ target, Reshaping.broadcastTo target ∈
      [.transpose 0 2, .broadcastTo [4, 3, 6, 2], .withDType .i64] → target.length ≤ maxRank := by
    simp [maxRank]
  have haccepted := verdict_eq_ok_iff.mpr ⟨hrank htargets, hcount (.inl (by decide)), rfl⟩
  exact ⟨hlayout, hreshaped, hverdict.trans haccepted⟩

/-- A single element spread over one axis too many, and an array without elements whose zero extent
was moved behind the large ones. -/
theorem strided_refuses_reshaped :
    (strided [1] [1] .rowMajor .f32 = .ok (make [1] [1] .rowMajor .f32) ∧
      (make [1] [1] .rowMajor .f32).reshapeAll [.broadcastTo (List.replicate 33 1)] =
        .ok (make (List.replicate 33 1) (List.replicate 32 0 ++ [1]) .rowMajor .f32) ∧
      strided (List.replicate 33 1) (List.replicate 32 0 ++ [1]) .rowMajor .f32 =
        .error (.invalidShape "rank 33 exceeds maximum rank 32")) ∧
    (strided [0, 2 ^ 40, 2 ^ 40] [1, 1, 1] .rowMajor .f32 =
        .ok (make [0, 2 ^ 40, 2 ^ 40] [1, 1, 1] .rowMajor .f32) ∧
      (make [0, 2 ^ 40, 2 ^ 40] [1, 1, 1] .rowMajor .f32).reshapeAll [.transpose 0 2] =
        .ok (make [2 ^ 40, 2 ^ 40, 0] [1, 1, 1] .rowMajor .f32) ∧
      strided [2 ^ 40, 2 ^ 40, 0] [1, 1, 1] .rowMajor .f32 =
        .error (tooManyElements [2 ^ 40, 2 ^ 40, 0])) := by
  refine ⟨⟨rfl, rfl, ?_⟩, rfl, rfl, rfl⟩
  decide

end Layout

end ArrayEngine
