import ArrayEngine.Layout.Reshape
import ArrayEngine.Proofs.Layout.Addressable
import Mathlib.Algebra.BigOperators.Group.List.Basic
import Mathlib.Logic.Equiv.Basic

/-!
# Derived layouts stay addressable

Exchanging two axes and spreading a layout over a larger shape lead from coordinates of the new
layout to coordinates of the old one with the same offset. Hence they keep a layout addressable
(`Addressable.of_transpose`, `Addressable.of_broadcastTo`).
-/

namespace ArrayEngine.Layout

variable {layout other : Layout} {extents coords entries : List Nat} {i j : Nat}

/-- Coordinates lie within extents if each of them does. -/
theorem inBox_iff_getElem? :
    InBox extents coords ↔ coords.length = extents.length ∧
      ∀ (axis coord extent : Nat), coords[axis]? = some coord → extents[axis]? = some extent →
        coord < extent := by
  rw [InBox, List.forall₂_iff_get]
  constructor
  · rintro ⟨hlength, hget⟩
    refine ⟨hlength, ?_⟩
    intro axis coord extent hcoord hextent
    obtain ⟨hleft, rfl⟩ := List.getElem?_eq_some_iff.mp hcoord
    obtain ⟨hright, rfl⟩ := List.getElem?_eq_some_iff.mp hextent
    exact hget axis hleft hright
  · rintro ⟨hlength, hget⟩
    exact ⟨hlength, fun axis hleft hright ↦
      hget axis _ _ (List.getElem?_eq_getElem hleft) (List.getElem?_eq_getElem hright)⟩

/-! ## Exchanging two axes -/

@[simp] theorem length_exchange (entries : List Nat) (i j : Nat) :
    (exchange entries i j).length = entries.length := by
  rw [exchange]
  split <;> simp

/-- After two entries have taken each other's place, an axis has the entry of its counterpart. -/
theorem getElem?_set_set {α : Type} {xs : List α} (hi : i < xs.length) (hj : j < xs.length)
    (axis : Nat) : ((xs.set i xs[j]).set j xs[i])[axis]? = xs[Equiv.swap i j axis]? := by
  rw [Equiv.swap_apply_def]
  by_cases hjaxis : axis = j
  · subst hjaxis
    by_cases hiaxis : axis = i
    · subst hiaxis
      simp [hi]
    · simp [hiaxis, hj]
  · by_cases hiaxis : axis = i
    · subst hiaxis
      simp [Ne.symm hjaxis, hi]
    · simp [hiaxis, hjaxis, Ne.symm hiaxis, Ne.symm hjaxis]

theorem exchange_eq (hi : i < entries.length) (hj : j < entries.length) :
    exchange entries i j = (entries.set i entries[j]).set j entries[i] := by
  have hleft := List.getElem?_eq_getElem hi
  have hright := List.getElem?_eq_getElem hj
  simp only [exchange, hleft, hright]

/-- The entry of an axis after an exchange is that of its counterpart before. -/
theorem getElem?_exchange (hi : i < entries.length) (hj : j < entries.length) (axis : Nat) :
    (exchange entries i j)[axis]? = entries[Equiv.swap i j axis]? := by
  rw [exchange_eq hi hj, getElem?_set_set hi hj]

theorem exchange_exchange (hi : i < entries.length) (hj : j < entries.length) :
    exchange (exchange entries i j) i j = entries := by
  apply List.ext_getElem?
  intro axis
  rw [getElem?_exchange (by simpa using hi) (by simpa using hj), getElem?_exchange hi hj,
    Equiv.swap_apply_self]

theorem exchange_perm (hi : i < entries.length) (hj : j < entries.length) :
    (exchange entries i j).Perm entries := by
  rw [exchange_eq hi hj]
  exact List.set_set_perm hi hj

/-- If two axes are exchanged in two lists, the pairs of entries are the same. -/
theorem zipWith_exchange_perm {α : Type} (f : Nat → Nat → α) {xs ys : List Nat}
    (hi : i < xs.length) (hj : j < xs.length) (hlength : xs.length = ys.length) :
    (List.zipWith f (exchange xs i j) (exchange ys i j)).Perm (List.zipWith f xs ys) := by
  have hzip : (List.zipWith f xs ys).length = xs.length := by
    rw [List.length_zipWith, ← hlength, Nat.min_self]
  have hi' : i < (List.zipWith f xs ys).length := hzip ▸ hi
  have hj' : j < (List.zipWith f xs ys).length := hzip ▸ hj
  have hexchange : List.zipWith f (exchange xs i j) (exchange ys i j) =
      ((List.zipWith f xs ys).set i (List.zipWith f xs ys)[j]).set j (List.zipWith f xs ys)[i] := by
    apply List.ext_getElem?
    intro axis
    rw [getElem?_set_set hi' hj', List.getElem?_zipWith, List.getElem?_zipWith,
      getElem?_exchange hi hj, getElem?_exchange (by omega) (by omega)]
  rw [hexchange]
  exact List.set_set_perm hi' hj'

/-- A sum over all axes is the same if two axes are exchanged in both lists. -/
theorem sum_zipWith_exchange {strides : List Nat} (hi : i < coords.length) (hj : j < coords.length)
    (hlength : coords.length = strides.length) :
    (List.zipWith (· * ·) (exchange coords i j) (exchange strides i j)).sum =
      (List.zipWith (· * ·) coords strides).sum :=
  (zipWith_exchange_perm (· * ·) hi hj hlength).sum_eq

theorem inBox_exchange (h : InBox extents coords) (hi : i < extents.length)
    (hj : j < extents.length) : InBox (exchange extents i j) (exchange coords i j) := by
  obtain ⟨hlength, hget⟩ := inBox_iff_getElem?.mp h
  refine inBox_iff_getElem?.mpr ⟨by simpa using hlength, ?_⟩
  intro axis coord extent hcoord hextent
  rw [getElem?_exchange (by omega) (by omega)] at hcoord
  rw [getElem?_exchange hi hj] at hextent
  exact hget _ coord extent hcoord hextent

/-- Two axes are exchanged exactly if both exist. -/
theorem transpose_eq_ok_iff :
    layout.transpose i j = .ok other ↔
      i < layout.rank ∧ j < layout.rank ∧
        other = make (exchange layout.extents i j) (exchange layout.strides i j) layout.order
          layout.dtype := by
  unfold transpose
  grind

/-- Exchanging two axes keeps a layout addressable. -/
theorem Addressable.of_transpose (hlayout : layout.Addressable)
    (h : layout.transpose i j = .ok other) : other.Addressable := by
  obtain ⟨hi, hj, rfl⟩ := transpose_eq_ok_iff.mp h
  rw [rank] at hi hj
  have hlength := hlayout.length_strides
  refine { length_strides := ?_, uniformStride_eq := rfl, size_lt := ?_, offsetAt_lt := ?_ }
  · show (exchange layout.strides i j).length = (exchange layout.extents i j).length
    rw [length_exchange, length_exchange, hlength]
  · show volume (exchange layout.extents i j) < Size.limit
    rw [volume_eq_prod, (exchange_perm hi hj).prod_eq, ← volume_eq_prod]
    exact hlayout.size_lt
  · intro coords hbox
    have hbox : InBox (exchange layout.extents i j) coords := hbox
    have hcoords : coords.length = layout.extents.length := by simpa using hbox.length_eq
    -- The coordinates with the two axes exchanged are those of the same element before.
    have hbefore := inBox_exchange hbox (by simpa using hi) (by simpa using hj)
    rw [exchange_exchange hi hj] at hbefore
    have hoffset := hlayout.offsetAt_lt hbefore
    rw [offsetAt, ← sum_zipWith_exchange (by simpa [hcoords] using hi) (by simpa [hcoords] using hj)
      (by simp [hcoords, hlength]), exchange_exchange (by omega) (by omega)] at hoffset
    exact hoffset

/-! ## Spreading over a larger shape -/

/-- The axes can be stretched to target extents: each of them has its target extent, or a single
coordinate. -/
def Stretches (extents targets : List Nat) : Prop :=
  List.Forall₂ (fun extent target ↦ extent = target ∨ extent = 1) extents targets

/-- The entries of axes that are stretched to target extents, with zero in place of those of the
axes that had another extent. -/
def clearStretched : List Nat → List Nat → List Nat → List Nat
  | extent :: extents, target :: targets, entry :: entries =>
      (if extent = target then entry else 0) :: clearStretched extents targets entries
  | _, _, _ => []

@[simp] theorem stretches_cons {extent target : Nat} {targets : List Nat} :
    Stretches (extent :: extents) (target :: targets) ↔
      (extent = target ∨ extent = 1) ∧ Stretches extents targets :=
  List.forall₂_cons

@[simp] theorem clearStretched_cons (extent target entry : Nat)
    (extents targets entries : List Nat) :
    clearStretched (extent :: extents) (target :: targets) (entry :: entries) =
      (if extent = target then entry else 0) :: clearStretched extents targets entries := rfl

theorem length_clearStretched {targets : List Nat} (htargets : targets.length = extents.length)
    (hentries : entries.length = extents.length) :
    (clearStretched extents targets entries).length = extents.length := by
  induction extents generalizing targets entries with
  | nil => rfl
  | cons extent extents ih =>
      obtain ⟨target, targets, rfl⟩ := List.exists_cons_of_length_eq_add_one htargets
      obtain ⟨entry, entries, rfl⟩ := List.exists_cons_of_length_eq_add_one hentries
      rw [clearStretched_cons, List.length_cons, List.length_cons,
        ih (Nat.succ.inj htargets) (Nat.succ.inj hentries)]

/-- Axes are stretched exactly if each of them can be. The strides of those that had another extent
become zero. -/
theorem stretch?_eq_some_iff {strides targets stretched : List Nat}
    (hstrides : strides.length = extents.length) (htargets : targets.length = extents.length) :
    stretch? extents strides targets = some stretched ↔
      Stretches extents targets ∧ stretched = clearStretched extents targets strides := by
  induction extents generalizing strides targets stretched with
  | nil =>
      obtain rfl := List.length_eq_zero_iff.mp htargets
      simp [stretch?, clearStretched, Stretches, eq_comm]
  | cons extent extents ih =>
      obtain ⟨stride, strides, rfl⟩ := List.exists_cons_of_length_eq_add_one hstrides
      obtain ⟨target, targets, rfl⟩ := List.exists_cons_of_length_eq_add_one htargets
      have hrest {rest : List Nat} : stretch? extents strides targets = some rest ↔ _ :=
        ih (Nat.succ.inj hstrides) (Nat.succ.inj htargets)
      rw [stretch?, stretches_cons, clearStretched_cons]
      by_cases hsame : extent = target
      · simp [hsame, hrest, and_assoc, eq_comm]
      · by_cases hunit : extent = 1
        · rw [if_neg hsame, if_pos hunit, if_neg hsame]
          simp [hunit, hrest, and_assoc, eq_comm]
        · simp [hsame, hunit]

/-- Coordinates on stretched axes are those of an element before, which has the coordinate zero on
each axis that had another extent. -/
theorem inBox_clearStretched {targets : List Nat} (h : Stretches extents targets)
    (hbox : InBox targets coords) : InBox extents (clearStretched extents targets coords) := by
  induction h generalizing coords with
  | nil => exact .nil
  | @cons extent target extents targets haxis _ ih =>
      cases hbox with
      | @cons coord _ coords _ hcoord hrest =>
          refine inBox_cons.mpr ⟨?_, ih hrest⟩
          split <;> omega

/-- It does not matter to an offset whether the strides of the stretched axes are cleared, or the
coordinates. -/
theorem sum_zipWith_clearStretched (extents targets coords strides : List Nat) :
    (List.zipWith (· * ·) coords (clearStretched extents targets strides)).sum =
      (List.zipWith (· * ·) (clearStretched extents targets coords) strides).sum := by
  induction extents generalizing targets coords strides with
  | nil => simp [clearStretched]
  | cons extent extents ih =>
      cases targets <;> cases coords <;> cases strides <;> simp [clearStretched, ih]

/-- Axes with the stride zero in front contribute nothing to an offset. -/
theorem sum_zipWith_replicate_append {strides : List Nat} {added : Nat}
    (h : added ≤ coords.length) :
    (List.zipWith (· * ·) coords (List.replicate added 0 ++ strides)).sum =
      (List.zipWith (· * ·) (coords.drop added) strides).sum := by
  induction added generalizing coords with
  | zero => rfl
  | succ added ih =>
      cases coords with
      | nil => simp at h
      | cons coord coords =>
          have hrest := ih (Nat.le_of_succ_le_succ h)
          simp [List.replicate_succ, hrest]

/-- A layout is spread over a shape exactly if the shape has enough axes, its elements can be
counted, and each axis of the layout can be stretched. -/
theorem broadcastTo_eq_ok_iff {target : List Nat} :
    layout.broadcastTo target = .ok other ↔
      layout.rank ≤ target.length ∧ (Size.count? target).isSome ∧
        ∃ stretched, stretch? layout.extents layout.strides
            (target.drop (target.length - layout.rank)) = some stretched ∧
          other = make target (List.replicate (target.length - layout.rank) 0 ++ stretched)
            layout.order layout.dtype := by
  unfold broadcastTo
  by_cases hrank : target.length < layout.rank
  · simp [hrank]
  · cases hcount : Size.count? target with
    | none => simp [hrank]
    | some count =>
        cases hstretch : stretch? layout.extents layout.strides
            (target.drop (target.length - layout.rank)) with
        | none => simp [hrank, hstretch]
        | some stretched => simp [hrank, Nat.not_lt.mp hrank, hstretch, eq_comm]

/-- The layout can be spread over a shape: the shape has enough axes, and the last of them are those
to which the axes of the layout can be stretched. -/
def Spreads (layout : Layout) (target : List Nat) : Prop :=
  layout.rank ≤ target.length ∧
    Stretches layout.extents (target.drop (target.length - layout.rank))

/-- The layout spread over a shape. The axes that are new and those that had another extent have the
stride zero. -/
def spread (layout : Layout) (target : List Nat) : Layout :=
  make target
    (List.replicate (target.length - layout.rank) 0 ++
      clearStretched layout.extents (target.drop (target.length - layout.rank)) layout.strides)
    layout.order layout.dtype

/-- The coordinates of the element that has the given coordinates after the layout was spread over a
shape: those on new axes are dropped, and those on axes that had another extent are zero. -/
def origin (layout : Layout) (target coords : List Nat) : List Nat :=
  clearStretched layout.extents (target.drop (target.length - layout.rank))
    (coords.drop (target.length - layout.rank))

theorem length_drop_target {target : List Nat} (h : layout.rank ≤ target.length) :
    (target.drop (target.length - layout.rank)).length = layout.extents.length := by
  rw [List.length_drop]
  show _ = layout.rank
  omega

/-- A layout is spread over a shape exactly if that is possible and the elements of the shape can be
counted. -/
theorem broadcastTo_eq_spread_iff (hlength : layout.strides.length = layout.extents.length)
    {target : List Nat} :
    layout.broadcastTo target = .ok other ↔
      (Size.count? target).isSome ∧ layout.Spreads target ∧ other = layout.spread target := by
  rw [broadcastTo_eq_ok_iff, Spreads, spread]
  constructor
  · rintro ⟨hrank, hcount, stretched, hstretch, rfl⟩
    obtain ⟨hstretches, rfl⟩ :=
      (stretch?_eq_some_iff hlength (length_drop_target hrank)).mp hstretch
    exact ⟨hcount, ⟨hrank, hstretches⟩, rfl⟩
  · rintro ⟨hcount, ⟨hrank, hstretches⟩, rfl⟩
    exact ⟨hrank, hcount, _,
      (stretch?_eq_some_iff hlength (length_drop_target hrank)).mpr ⟨hstretches, rfl⟩, rfl⟩

/-- An element of the shape lies where the element of the layout lies. -/
theorem offsetAt_spread {target : List Nat} (hbox : InBox target coords) :
    (layout.spread target).offsetAt coords = layout.offsetAt (layout.origin target coords) := by
  have hcoords := hbox.length_eq
  rw [offsetAt, offsetAt, origin, ← sum_zipWith_clearStretched,
    ← sum_zipWith_replicate_append (by omega)]
  rfl

namespace Spreads

variable {target : List Nat} (h : layout.Spreads target)

include h

theorem length_strides (hlength : layout.strides.length = layout.extents.length) :
    (layout.spread target).strides.length = target.length := by
  have hstretched := length_clearStretched (length_drop_target h.1) hlength
  have hrank := h.1
  rw [rank] at hrank
  show (List.replicate _ 0 ++ clearStretched _ _ _).length = _
  rw [List.length_append, List.length_replicate, hstretched, rank]
  omega

/-- Each element of the shape is an element of the layout. -/
theorem inBox_origin (hbox : InBox target coords) :
    InBox layout.extents (layout.origin target coords) :=
  inBox_clearStretched h.2 (List.forall₂_drop _ hbox)

end Spreads

/-- Spreading a layout over a larger shape keeps it addressable. -/
theorem Addressable.of_broadcastTo {target : List Nat} (hlayout : layout.Addressable)
    (h : layout.broadcastTo target = .ok other) : other.Addressable := by
  obtain ⟨hsome, hspreads, rfl⟩ := (broadcastTo_eq_spread_iff hlayout.length_strides).mp h
  obtain ⟨count, hcount⟩ := Option.isSome_iff_exists.mp hsome
  obtain ⟨hlimit, rfl⟩ := eq_volume_of_count? hcount
  refine
    { length_strides := hspreads.length_strides hlayout.length_strides
      uniformStride_eq := rfl
      size_lt := hlimit
      offsetAt_lt := ?_ }
  intro coords hbox
  have hbox : InBox target coords := hbox
  rw [offsetAt_spread hbox]
  exact hlayout.offsetAt_lt (hspreads.inBox_origin hbox)

/-- The element type has no influence on where the elements lie. -/
theorem Addressable.withDType (hlayout : layout.Addressable) (dtype : DType) :
    (layout.withDType dtype).Addressable :=
  ⟨hlayout.length_strides, hlayout.uniformStride_eq, hlayout.size_lt, hlayout.offsetAt_lt⟩

end ArrayEngine.Layout
