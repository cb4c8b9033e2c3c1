import ArrayEngine.Proofs.Layout.Cursor
import ArrayEngine.Proofs.Parallel.Partition
import ArrayEngine.Reduction.Engine

/-!
# The engine reduces a list of elements

A view selects a list of elements from a buffer. `reduce_eq_reduceList` says that the engine makes
of them what it makes of the list: buffer, layout and view do not matter otherwise.
`reduce_eq_mergeAll` describes the result for any strategy as the merged folds of consecutive parts
of the list, and for a strategy whose folds can be joined as the fold of the whole list.
-/

namespace ArrayEngine

open Layout

/-! ## Reading cells -/

section

variable {α : Type} {cells : Array α} {offsets : List Nat}

/-- If every offset lies within the buffer, the cells are those at the offsets. -/
theorem getElem?_gather (h : ∀ offset ∈ offsets, offset < cells.size) (i : Nat) :
    (gather cells offsets)[i]? = (offsets[i]?).bind (cells[·]?) := by
  induction offsets generalizing i with
  | nil => rfl
  | cons offset rest ih =>
      have hoffset := h offset (by simp)
      have hcons : gather cells (offset :: rest) = cells[offset] :: gather cells rest := by
        simp [gather, hoffset]
      rw [hcons]
      cases i with
      | zero => simp [hoffset]
      | succ i => simpa using ih (fun o ho ↦ h o (by simp [ho])) i

theorem map_some_gather (h : ∀ offset ∈ offsets, offset < cells.size) :
    (gather cells offsets).map some = offsets.map (cells[·]?) := by
  apply List.ext_getElem?
  intro i
  rw [List.getElem?_map, List.getElem?_map, getElem?_gather h]
  cases hoffset : offsets[i]? with
  | none => rfl
  | some offset =>
      have hcell := h offset (List.mem_of_getElem? hoffset)
      simp [hcell]

end

/-! ## The elements of a view -/

namespace View

/-- The offset of the `i`-th element. -/
def offsetOf : View → Nat → Nat
  | strided base stride _, i => base + i * stride
  | indexed base indexer, i => base + indexer.offsetOf i

/-- The elements that the view selects from a buffer, in their order. -/
def elements {α : Type} (view : View) (cells : Array α) : List α :=
  gather cells ((List.range view.size).map view.offsetOf)

/-- The view selects cells of a buffer of this size, either by a stride or by the indexer of a
layout. -/
structure Within (view : View) (held : Nat) : Prop where
  addressable {base : Nat} {indexer : Indexer} :
    view = .indexed base indexer → ∃ layout, layout.Addressable ∧ indexer = .ofLayout layout
  offsetOf_lt {i : Nat} : i < view.size → view.offsetOf i < held

/-- The offsets of a chunk are those of its indices, although they are found by stepping on from the
first one. -/
theorem Within.offsets_eq {view : View} {held : Nat} (h : view.Within held) {chunk : Chunk}
    (hstop : chunk.stop ≤ view.size) :
    view.offsets chunk = (List.range' chunk.offset chunk.length).map view.offsetOf := by
  cases view with
  | strided base stride size =>
      apply List.ext_getElem
      · simp [View.offsets]
      · intro i _ _
        simp only [View.offsets, List.getElem_range', List.getElem_map, offsetOf]
        ring
  | indexed base indexer =>
      -- The cursor divides once, for the first index of the chunk, and counts from there.
      obtain ⟨layout, hlayout, rfl⟩ := h.addressable rfl
      have hstop : chunk.offset + chunk.length ≤ layout.size := hstop
      rw [View.offsets, hlayout.toList_cursor hstop, List.map_map]
      apply List.map_congr_left
      intro i hi
      have hmem := List.mem_range'_1.mp hi
      rw [offsetOf, hlayout.offsetOf_ofLayout (by omega)]
      rfl

section

variable {α : Type} {view : View} {cells : Array α} (h : view.Within cells.size)

include h

/-- The elements of a view are the cells at its offsets. -/
theorem Within.getElem?_elements {i : Nat} (hi : i < view.size) :
    (view.elements cells)[i]? = cells[view.offsetOf i]? := by
  rw [elements, getElem?_gather]
  · simp [hi]
  · simpa using fun i ↦ h.offsetOf_lt

theorem Within.length_elements : (view.elements cells).length = view.size := by
  rw [elements, length_gather]
  · simp
  · simpa using fun i ↦ h.offsetOf_lt

/-- What a worker reads for its chunk is the part of the elements that belongs to the chunk. -/
theorem Within.gather_offsets {chunk : Chunk} (hstop : chunk.stop ≤ view.size) :
    gather cells (view.offsets chunk) = chunk.slice (view.elements cells) := by
  have hindex {i : Nat} (hi : i < chunk.length) : chunk.offset + i < view.size := by
    rw [Chunk.stop] at hstop
    omega
  apply List.ext_getElem?
  intro i
  rw [h.offsets_eq hstop, getElem?_gather]
  · by_cases hi : i < chunk.length
    · simp [Chunk.slice, hi, h.getElem?_elements (hindex hi)]
    · simp [Chunk.slice, hi]
  · intro offset hoffset
    obtain ⟨i, hi, rfl⟩ := List.mem_map.mp hoffset
    have hmem := List.mem_range'_1.mp hi
    exact h.offsetOf_lt (by rw [Chunk.stop] at hstop; omega)

end

end View

/-! ## Folding in parts -/

namespace Strategy

variable {α β γ : Type} {strategy : Strategy α β γ}

/-- Joining the accumulators of two lists gives the accumulator of both together. -/
def Joins (strategy : Strategy α β γ) : Prop :=
  ∀ left right, strategy.merge (strategy.fold left) (strategy.fold right) =
    strategy.fold (left ++ right)

/-- If accumulators can be joined, it does not matter into which parts a list is divided. -/
theorem Joins.mergeAll_map_fold (h : strategy.Joins) (parts : List (List α)) :
    strategy.mergeAll (parts.map strategy.fold) = strategy.fold parts.flatten := by
  -- The accumulator of the parts that are done is the invariant of the merge.
  have hfoldl (done : List α) (rest : List (List α)) :
      (rest.map strategy.fold).foldl strategy.merge (strategy.fold done) =
        strategy.fold (done ++ rest.flatten) := by
    induction rest generalizing done with
    | nil => simp
    | cons part rest ih =>
        rw [List.map_cons, List.foldl_cons, h, ih, List.flatten_cons, List.append_assoc]
  cases parts with
  | nil => rfl
  | cons first rest => exact hfoldl first rest

end Strategy

variable {α β γ : Type} (workers : Workers) (strategy : Strategy α β γ)

/-- The result for a list of elements: the parts that belong to the chunks are folded each from the
seed on, the accumulators are joined in order, and the last one is finalized with the number of all
elements. -/
def reduceList (elements : List α) (requested : Option Nat) : γ :=
  strategy.finalize
    (strategy.mergeAll ((divide elements.length
      (workers.budget requested elements.length)).map fun chunk ↦
        strategy.fold (chunk.slice elements)))
    elements.length

/-- The engine makes of the elements of a view what it makes of their list. -/
theorem reduce_eq_reduceList {cells : Array α} {view : View} (h : view.Within cells.size)
    (requested : Option Nat) :
    reduce workers strategy cells view requested =
      reduceList workers strategy (view.elements cells) requested := by
  rw [reduce, reduceList, h.length_elements]
  split
  · rename_i hempty
    rw [hempty]
    rfl
  · have hfold : (divide view.size (workers.budget requested view.size)).map
          (foldChunk strategy cells view) =
        (divide view.size (workers.budget requested view.size)).map fun chunk ↦
          strategy.fold (chunk.slice (view.elements cells)) :=
      List.map_congr_left fun chunk hchunk ↦ by
        rw [foldChunk, h.gather_offsets (Chunk.stop_le hchunk)]
    simp only [hfold]

/-- A list is reduced in consecutive parts that are not empty. -/
theorem exists_parts (elements : List α) (requested : Option Nat) :
    ∃ parts : List (List α), parts.flatten = elements ∧ (∀ part ∈ parts, part ≠ []) ∧
      reduceList workers strategy elements requested =
        strategy.finalize (strategy.mergeAll (parts.map strategy.fold)) elements.length := by
  refine ⟨(divide elements.length (workers.budget requested elements.length)).map
    fun chunk ↦ chunk.slice elements, flatten_divide elements _, fun part hpart ↦ ?_, ?_⟩
  · obtain ⟨chunk, hchunk, rfl⟩ := List.mem_map.mp hpart
    exact Chunk.slice_ne_nil hchunk
  · rw [reduceList, List.map_map]
    rfl

/-- A single element is taken in once. -/
theorem reduceList_singleton (x : α) (requested : Option Nat) :
    reduceList workers strategy [x] requested =
      strategy.finalize (strategy.combine strategy.seed x) 1 := by
  obtain ⟨parts, hflatten, hnonempty, hreduce⟩ := exists_parts workers strategy [x] requested
  have hparts : parts = [[x]] := by
    cases parts with
    | nil => cases hflatten
    | cons first rest =>
        rw [List.flatten_cons] at hflatten
        rcases List.append_eq_singleton_iff.mp hflatten with ⟨hfirst, _⟩ | ⟨hfirst, hrest⟩
        · exact absurd hfirst (hnonempty first (by simp))
        · have hnil : rest = [] := by
            refine List.eq_nil_iff_forall_not_mem.mpr fun part hpart ↦ ?_
            exact hnonempty part (by simp [hpart]) (List.flatten_eq_nil_iff.mp hrest part hpart)
          rw [hfirst, hnil]
  rw [hreduce, hparts]
  rfl

variable {strategy}

/-- If accumulators can be joined, the number of workers does not matter. -/
theorem reduceList_eq_fold (h : strategy.Joins) (elements : List α) (requested : Option Nat) :
    reduceList workers strategy elements requested =
      strategy.finalize (strategy.fold elements) elements.length := by
  obtain ⟨parts, hflatten, _, hreduce⟩ := exists_parts workers strategy elements requested
  rw [hreduce, h.mergeAll_map_fold, hflatten]

variable (strategy)

/-- The engine folds consecutive parts of the elements that a view selects, each from the seed on,
and joins the accumulators from left to right. If accumulators can be joined, this is the fold of
all elements, for all workers and every requested number of them. -/
theorem reduce_eq_mergeAll {cells : Array α} {view : View} (h : view.Within cells.size)
    (requested : Option Nat) :
    (view.elements cells).length = view.size ∧
      (∀ i < view.size, (view.elements cells)[i]? = cells[view.offsetOf i]?) ∧
      (∃ parts : List (List α), parts.flatten = view.elements cells ∧ (∀ part ∈ parts, part ≠ []) ∧
        reduce workers strategy cells view requested =
          strategy.finalize (strategy.mergeAll (parts.map strategy.fold)) view.size) ∧
      (view.size = 0 →
        reduce workers strategy cells view requested = strategy.finalize strategy.seed 0) ∧
      (strategy.Joins →
        reduce workers strategy cells view requested =
          strategy.finalize (strategy.fold (view.elements cells)) view.size) := by
  have hlength := h.length_elements
  refine ⟨hlength, fun i hi ↦ h.getElem?_elements hi, ?_, fun hempty ↦ ?_, fun hjoins ↦ ?_⟩
  · rw [reduce_eq_reduceList workers strategy h, ← hlength]
    exact exists_parts workers strategy (view.elements cells) requested
  · rw [reduce, if_pos hempty]
  · rw [reduce_eq_reduceList workers strategy h, reduceList_eq_fold workers hjoins, hlength]

/-- The strategy that lists the elements and gives their number. -/
def Strategy.listing : Strategy Nat (List Nat) (List Nat × Nat) :=
  ⟨[], fun seen x ↦ seen ++ [x], (· ++ ·), Prod.mk⟩

/-- A row of two numbers with a gap, twice. -/
def repeatedNumbers : Layout :=
  make [2, 2] [0, 3] .rowMajor .i32

/-- Three workers collect the elements of a view that reads two cells twice. -/
theorem reduce_eq_mergeAll_repeated :
    (View.indexed 1 (.ofLayout repeatedNumbers)).Within 5 ∧
      reduce .small Strategy.listing #[10, 20, 30, 40, 50]
          (.indexed 1 (.ofLayout repeatedNumbers)) none =
        ([20, 50, 20, 50], 4) := by
  have hlayout : strided [2, 2] [0, 3] .rowMajor .i32 = .ok repeatedNumbers := rfl
  have hoffset : ∀ i < 4, (View.indexed 1 (.ofLayout repeatedNumbers)).offsetOf i < 5 := by
    decide
  have hwithin : (View.indexed 1 (.ofLayout repeatedNumbers)).Within 5 := by
    refine ⟨?_, fun hi ↦ hoffset _ hi⟩
    rintro base indexer ⟨rfl, rfl⟩
    exact ⟨_, addressable_of_strided hlayout, rfl⟩
  have hjoins : Strategy.listing.Joins := by
    intro left right
    simp [Strategy.fold, Strategy.listing]
  refine ⟨hwithin, ?_⟩
  exact (reduce_eq_mergeAll _ _ hwithin none).2.2.2.2 hjoins

end ArrayEngine
