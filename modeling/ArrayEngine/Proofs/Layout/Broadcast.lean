import ArrayEngine.Proofs.Layout.Reshape

/-!
# Spreading a layout over a larger shape

A layout can be spread over a shape exactly if the shape has enough axes and each axis of the layout
can be stretched to the one it is matched with. Nothing is moved: an element of the shape lies where
the element at its `origin` lies. Whether an axis is new, is stretched, or keeps its single
coordinate until a later step stretches it, its stride ends up the same, so that spreading in two
steps gives the very layout that one step gives (`spread_spread`). `broadcastTo_spec` has all of
this for the layouts that are accepted with given strides.
-/

namespace ArrayEngine.Layout

variable {layout : Layout} {extents middle targets first second : List Nat}

/-! ## Stretched axes -/

/-- Axes that can be stretched in two steps can be stretched in one. -/
theorem Stretches.trans (hfirst : Stretches extents middle) (hsecond : Stretches middle targets) :
    Stretches extents targets := by
  induction hfirst generalizing targets with
  | nil => exact hsecond
  | cons haxis _ ih =>
      cases hsecond with
      | cons hnext hrest => exact stretches_cons.mpr ⟨by omega, ih hrest⟩

/-- The entries that are left after two steps are those left after one. An axis that returns to its
first extent has never had another one. -/
theorem clearStretched_clearStretched (hfirst : Stretches extents middle)
    (hsecond : Stretches middle targets) (entries : List Nat) :
    clearStretched middle targets (clearStretched extents middle entries) =
      clearStretched extents targets entries := by
  induction hfirst generalizing targets entries with
  | nil =>
      cases hsecond
      rfl
  | @cons extent between extents middle haxis _ ih =>
      cases hsecond with
      | @cons _ target _ targets hnext hrest =>
          cases entries with
          | nil => rfl
          | cons entry entries =>
              rw [clearStretched_cons, clearStretched_cons, clearStretched_cons, ih hrest]
              congr 1
              grind

/-- Entries that are zero stay so. -/
theorem clearStretched_replicate_append {added : Nat} (hadded : added ≤ extents.length)
    (hlength : targets.length = extents.length) (entries : List Nat) :
    clearStretched extents targets (List.replicate added 0 ++ entries) =
      List.replicate added 0 ++
        clearStretched (extents.drop added) (targets.drop added) entries := by
  induction added generalizing extents targets with
  | zero => rfl
  | succ added ih =>
      obtain ⟨extent, extents, rfl⟩ := List.exists_cons_of_length_pos (Nat.zero_lt_of_lt hadded)
      obtain ⟨target, targets, rfl⟩ := List.exists_cons_of_length_eq_add_one hlength
      have hrest := ih (Nat.le_of_succ_le_succ hadded) (Nat.succ.inj hlength)
      rw [List.replicate_succ, List.cons_append, clearStretched_cons, ite_self, hrest]
      rfl

/-- The last offset is the same after axes were stretched: those with another extent had a single
coordinate before, and have the stride zero now. -/
theorem lastOffset_clearStretched (h : Stretches extents targets) (strides : List Nat) :
    lastOffset targets (clearStretched extents targets strides) = lastOffset extents strides := by
  induction h generalizing strides with
  | nil => simp [lastOffset]
  | @cons extent target extents targets haxis _ ih =>
      cases strides with
      | nil => simp [lastOffset, clearStretched]
      | cons stride strides =>
          rw [clearStretched_cons, lastOffset_cons, lastOffset_cons, ih]
          rcases haxis with rfl | rfl
          · rw [if_pos rfl]
          · split
            · rename_i hunit
              rw [← hunit]
            · simp

theorem lastOffset_replicate_append {added : Nat} (h : added ≤ targets.length)
    (strides : List Nat) :
    lastOffset targets (List.replicate added 0 ++ strides) =
      lastOffset (targets.drop added) strides := by
  rw [← sum_pred, sum_zipWith_replicate_append (by simpa using h), ← List.map_drop, sum_pred]

/-! ## Layouts spread over a shape -/

/-- A shape over which the layout cannot be spread is reported beside its own. -/
theorem broadcastTo_of_not_spreads (hlength : layout.strides.length = layout.extents.length)
    {target : List Nat} (hcount : (Size.count? target).isSome) (h : ¬layout.Spreads target) :
    layout.broadcastTo target = .error (.shapeMismatch target layout.extents) := by
  rw [broadcastTo]
  by_cases hrank : target.length < layout.rank
  · rw [if_pos hrank]
  · rw [if_neg hrank, if_neg (by simpa using Option.isSome_iff_ne_none.mp hcount)]
    have hstretch : stretch? layout.extents layout.strides
        (target.drop (target.length - layout.rank)) = none := by
      refine Option.eq_none_iff_forall_not_mem.mpr fun strides hstrides ↦ h ?_
      have henough := Nat.not_lt.mp hrank
      exact ⟨henough,
        ((stretch?_eq_some_iff hlength (length_drop_target henough)).mp hstrides).1⟩
    simp only [hstretch]

/-- The largest coordinates lie where they lay before. -/
theorem Spreads.lastOffset_eq {target : List Nat} (h : layout.Spreads target) :
    lastOffset target (layout.spread target).strides =
      lastOffset layout.extents layout.strides := by
  show lastOffset target (List.replicate _ 0 ++ clearStretched _ _ _) = _
  rw [lastOffset_replicate_append (Nat.sub_le ..), lastOffset_clearStretched h.2]

/-- Spreading a layout in two steps gives the layout that one step gives. -/
theorem spread_spread (hfirst : layout.Spreads first)
    (hsecond : (layout.spread first).Spreads second) :
    layout.Spreads second ∧ (layout.spread first).spread second = layout.spread second := by
  obtain ⟨hrank, hstretches⟩ := hfirst
  obtain ⟨hlength, hstretches'⟩ := hsecond
  have hlength : first.length ≤ second.length := hlength
  have hstretches' : Stretches first (second.drop (second.length - first.length)) := hstretches'
  -- The axes of the layout are matched with the last axes of either shape.
  have hadded : second.length - layout.rank =
      second.length - first.length + (first.length - layout.rank) := by omega
  have hdrop : (second.drop (second.length - first.length)).drop (first.length - layout.rank) =
      second.drop (second.length - layout.rank) := by
    rw [List.drop_drop, hadded]
  have hlast : Stretches (first.drop (first.length - layout.rank))
      (second.drop (second.length - layout.rank)) := by
    rw [← hdrop]
    exact List.forall₂_drop _ hstretches'
  refine ⟨⟨hrank.trans hlength, hstretches.trans hlast⟩, ?_⟩
  have hstrides : List.replicate (second.length - first.length) 0 ++
        clearStretched first (second.drop (second.length - first.length))
          (List.replicate (first.length - layout.rank) 0 ++
            clearStretched layout.extents (first.drop (first.length - layout.rank))
              layout.strides) =
      List.replicate (second.length - layout.rank) 0 ++
        clearStretched layout.extents (second.drop (second.length - layout.rank))
          layout.strides := by
    rw [clearStretched_replicate_append (Nat.sub_le ..) hstretches'.length_eq.symm, hdrop,
      clearStretched_clearStretched hstretches hlast, ← List.append_assoc,
      List.replicate_append_replicate, ← hadded]
  exact congrArg (fun strides ↦ make second strides layout.order layout.dtype) hstrides

/-- An accepted layout is spread over a shape whose elements can be counted exactly if the shape has
enough axes and the axes of the layout can be stretched to the last of them; otherwise both shapes
are reported. After it, an element of the shape, given by coordinates or by its number, lies where
the element at its origin lies, and if both arrays have elements, as many cells are needed as
before. Spreading the result further gives the layout that spreading the accepted layout at once
gives. -/
theorem broadcastTo_spec {strides : List Nat} {order : Order} {dtype : DType}
    (hlayout : strided extents strides order dtype = .ok layout) :
    (∀ {target : List Nat}, (Size.count? target).isSome →
      ((∃ other, layout.broadcastTo target = .ok other) ↔ layout.Spreads target) ∧
      (¬layout.Spreads target →
        layout.broadcastTo target = .error (.shapeMismatch target layout.extents))) ∧
    (∀ {target : List Nat} {other : Layout}, layout.broadcastTo target = .ok other →
      other.extents = target ∧ other.order = layout.order ∧ other.dtype = layout.dtype ∧
      (∀ {coords : List Nat}, InBox target coords →
        InBox layout.extents (layout.origin target coords) ∧
          other.offsetAt coords = layout.offsetAt (layout.origin target coords) ∧
          other.offsetOf (other.order.index target coords) =
            layout.offsetOf
              (layout.order.index layout.extents (layout.origin target coords))) ∧
      (0 < layout.size → 0 < other.size → other.requiredCells = layout.requiredCells)) ∧
    ∀ {first second : List Nat} {between other : Layout},
      layout.broadcastTo first = .ok between → between.broadcastTo second = .ok other →
        layout.broadcastTo second = .ok other := by
  have haddressable := addressable_of_strided hlayout
  have hlength := haddressable.length_strides
  refine ⟨fun hcount ↦ ?_, fun hother ↦ ?_, fun hbetween hother ↦ ?_⟩
  · refine ⟨⟨?_, ?_⟩, broadcastTo_of_not_spreads hlength hcount⟩
    · rintro ⟨other, hother⟩
      exact ((broadcastTo_eq_spread_iff hlength).mp hother).2.1
    · intro hspreads
      exact ⟨_, (broadcastTo_eq_spread_iff hlength).mpr ⟨hcount, hspreads, rfl⟩⟩
  · have hspread := haddressable.of_broadcastTo hother
    obtain ⟨_, hspreads, rfl⟩ := (broadcastTo_eq_spread_iff hlength).mp hother
    refine ⟨rfl, rfl, rfl, fun {coords} hbox ↦ ?_, fun hpos hpos' ↦ ?_⟩
    · have horigin := hspreads.inBox_origin hbox
      have hoffset : (layout.spread _).offsetAt coords = layout.offsetAt (layout.origin _ coords) :=
        offsetAt_spread hbox
      refine ⟨horigin, hoffset, ?_⟩
      rw [haddressable.offsetOf_index horigin, ← hoffset]
      exact hspread.offsetOf_index hbox
    · rw [hspread.requiredCells_eq (volume_pos_iff.mp hpos'),
        haddressable.requiredCells_eq (volume_pos_iff.mp hpos), ← hspreads.lastOffset_eq]
      rfl
  · obtain ⟨_, hfirst, rfl⟩ := (broadcastTo_eq_spread_iff hlength).mp hbetween
    obtain ⟨hcount, hsecond, rfl⟩ :=
      (broadcastTo_eq_spread_iff (hfirst.length_strides hlength)).mp hother
    obtain ⟨hspreads, hspread⟩ := spread_spread hfirst hsecond
    exact (broadcastTo_eq_spread_iff hlength).mpr ⟨hcount, hspreads, hspread⟩

/-- A single row of every other cell. -/
def spacedRow : Layout :=
  make [1, 1, 3] [7, 5, 2] .columnMajor .f32

/-- The row again and again. -/
def repeatedRow : Layout :=
  make [4, 2, 6, 3] [0, 0, 0, 2] .columnMajor .f32

/-- Two axes that have a single coordinate, one of which is stretched in the second step only, and a
new axis that is stretched after it was added. -/
theorem broadcastTo_spec_twice :
    strided [1, 1, 3] [7, 5, 2] .columnMajor .f32 = .ok spacedRow ∧
      spacedRow.broadcastTo [1, 2, 1, 3] = .ok (make [1, 2, 1, 3] [0, 0, 5, 2] .columnMajor .f32) ∧
      spacedRow.broadcastTo [4, 2, 6, 3] = .ok repeatedRow ∧
      repeatedRow.offsetAt [3, 1, 5, 2] = 4 ∧
      ¬∃ other, spacedRow.broadcastTo [2, 2, 1] = .ok other := by
  have hlayout : strided [1, 1, 3] [7, 5, 2] .columnMajor .f32 = .ok spacedRow := rfl
  have hfirst : spacedRow.broadcastTo [1, 2, 1, 3] =
      .ok (make [1, 2, 1, 3] [0, 0, 5, 2] .columnMajor .f32) := rfl
  have hsecond : (make [1, 2, 1, 3] [0, 0, 5, 2] .columnMajor .f32).broadcastTo [4, 2, 6, 3] =
      .ok repeatedRow := rfl
  obtain ⟨hiff, helements, hcompose⟩ := broadcastTo_spec hlayout
  have hboth := hcompose hfirst hsecond
  have hbox : InBox [4, 2, 6, 3] [3, 1, 5, 2] := by simp
  refine ⟨hlayout, hfirst, hboth, ((helements hboth).2.2.2.1 hbox).2.1, ?_⟩
  rw [(hiff rfl).1]
  simp [Spreads, spacedRow, make, rank]

end ArrayEngine.Layout
