import ArrayEngine.Benchmark.Report
import ArrayEngine.Proofs.Text.Listing
import ArrayEngine.Size
import Mathlib.Algebra.Order.BigOperators.Group.List
import Mathlib.Algebra.Order.Group.Nat
import Mathlib.Algebra.Ring.Nat
import Mathlib.Data.List.GetD
import Mathlib.Data.List.Sort

/-!
# What a report says and what its line keeps

The mean and the median of a list of times do not depend on their order. The mean lies between the
times and is the same with machine arithmetic, and at least half of the times lie on either side of
the median. `line_injective` says that nothing is lost when a report is printed: the columns can be
told apart, since none of them holds a tab, and each column can be read back.
-/

namespace ArrayEngine.Benchmark.Report

/-! ## The mean -/

variable {samples : List Nat}

theorem meanOf_eq (samples : List Nat) : meanOf samples = samples.sum / samples.length := by
  rw [meanOf, List.sum_eq_foldl_nat]

theorem le_meanOf (hne : samples ≠ []) {bound : Nat} (h : ∀ x ∈ samples, bound ≤ x) :
    bound ≤ meanOf samples := by
  rw [meanOf_eq, Nat.le_div_iff_mul_le (List.length_pos_iff.mpr hne), Nat.mul_comm]
  exact List.card_nsmul_le_sum samples bound h

theorem meanOf_le {bound : Nat} (h : ∀ x ∈ samples, x ≤ bound) : meanOf samples ≤ bound := by
  rw [meanOf_eq]
  exact Nat.div_le_of_le_mul (List.sum_le_card_nsmul samples bound h)

/-- As long as there are no more times than a machine can count, no sum of the first ones needs more
than two words. -/
theorem sum_take_lt (hsamples : ∀ x ∈ samples, x < Size.limit)
    (hlength : samples.length < Size.limit) (count : Nat) :
    (samples.take count).sum < Size.limit ^ 2 := by
  have hlargest : ∀ x ∈ samples.take count, x ≤ Size.largest :=
    fun x hx ↦ Nat.le_pred_of_lt (hsamples x (List.mem_of_mem_take hx))
  calc (samples.take count).sum
      ≤ (samples.take count).length * Size.largest := List.sum_le_card_nsmul _ _ hlargest
    _ ≤ Size.largest * Size.largest :=
        Nat.mul_le_mul_right _ ((List.length_take_le' _ _).trans (Nat.le_pred_of_lt hlength))
    _ < Size.limit ^ 2 := by decide

theorem meanOf_perm {other : List Nat} (h : other.Perm samples) :
    meanOf other = meanOf samples := by
  rw [meanOf_eq, meanOf_eq, h.sum_nat, h.length_eq]

/-! ## The median -/

/-- The times from the shortest to the longest. -/
def sorted (samples : List Nat) : List Nat :=
  samples.mergeSort (· ≤ ·)

theorem sorted_perm (samples : List Nat) : (sorted samples).Perm samples :=
  List.mergeSort_perm samples _

theorem sortedLE_sorted (samples : List Nat) : (sorted samples).SortedLE :=
  List.sortedLE_mergeSort

theorem medianOf_eq (h : samples.length / 2 < (sorted samples).length) :
    medianOf samples = (sorted samples)[samples.length / 2] :=
  List.getD_eq_getElem _ _ h

section

variable {ordered : List Nat} (hordered : ordered.SortedLE) {k : Nat} (hk : k < ordered.length)

include hordered

/-- An entry of an ordered list is no less than itself and those before it. -/
theorem lt_countP_le : k < ordered.countP (· ≤ ordered[k]) := by
  have hall : ∀ x ∈ ordered.take (k + 1), decide (x ≤ ordered[k]) = true := by
    intro x hx
    obtain ⟨i, hi, rfl⟩ := List.mem_take_iff_getElem.mp hx
    exact decide_eq_true (hordered.getElem_le_getElem_of_le (by omega))
  calc k < (ordered.take (k + 1)).length := by rw [List.length_take]; omega
    _ = (ordered.take (k + 1)).countP (· ≤ ordered[k]) := (List.countP_eq_length.mpr hall).symm
    _ ≤ ordered.countP (· ≤ ordered[k]) := (List.take_sublist _ _).countP_le

/-- An entry of an ordered list is no greater than itself and those behind it. -/
theorem length_sub_le_countP : ordered.length - k ≤ ordered.countP (ordered[k] ≤ ·) := by
  have hall : ∀ x ∈ ordered.drop k, decide (ordered[k] ≤ x) = true := by
    intro x hx
    obtain ⟨i, hi, rfl⟩ := List.mem_drop_iff_getElem.mp hx
    exact decide_eq_true (hordered.getElem_le_getElem_of_le (by omega))
  calc ordered.length - k = (ordered.drop k).length := List.length_drop.symm
    _ = (ordered.drop k).countP (ordered[k] ≤ ·) := (List.countP_eq_length.mpr hall).symm
    _ ≤ ordered.countP (ordered[k] ≤ ·) := (List.drop_sublist _ _).countP_le

end

/-- The median is a time, and at least half of the times lie on either side of it. -/
theorem medianOf_spec (hne : samples ≠ []) :
    medianOf samples ∈ samples ∧
      samples.length / 2 < samples.countP (· ≤ medianOf samples) ∧
      samples.length - samples.length / 2 ≤ samples.countP (medianOf samples ≤ ·) := by
  have hperm := sorted_perm samples
  have hlength := hperm.length_eq
  have hmiddle : samples.length / 2 < (sorted samples).length := by
    rw [hlength]
    exact Nat.div_lt_self (List.length_pos_iff.mpr hne) (by decide)
  rw [medianOf_eq hmiddle]
  refine ⟨hperm.mem_iff.mp (List.getElem_mem hmiddle), ?_, ?_⟩
  · rw [← hperm.countP_eq]
    exact lt_countP_le (sortedLE_sorted samples) hmiddle
  · rw [← hperm.countP_eq]
    have hcount := length_sub_le_countP (sortedLE_sorted samples) hmiddle
    omega

theorem medianOf_perm {other : List Nat} (h : other.Perm samples) :
    medianOf other = medianOf samples := by
  have hperm : (sorted other).Perm (sorted samples) :=
    ((sorted_perm other).trans h).trans (sorted_perm samples).symm
  have hsorted : sorted other = sorted samples :=
    hperm.eq_of_sortedLE (sortedLE_sorted other) (sortedLE_sorted samples)
  rw [medianOf, medianOf, ← sorted, ← sorted, hsorted, h.length_eq]

/-! ## The line -/

/-- The columns of the line of a report. -/
def columns (report : Report) : List (List Char) :=
  [(toString report.opcode).toList, report.dtype.name.toList,
    (Text.bracketed report.extents).toList, (toString report.mean).toList,
    (toString report.median).toList]

theorem toList_line (report : Report) : report.line.toList = ['\t'].intercalate report.columns := by
  simp [line, columns]

/-- The columns are the line split at tabs. -/
theorem splitOn_line (report : Report) : report.line.toList.splitOn '\t' = report.columns := by
  rw [toList_line]
  refine List.splitOn_intercalate '\t' ?_ (List.cons_ne_nil _ _)
  have hname : '\t' ∉ report.dtype.name.toList := by
    cases report.dtype <;> decide
  simp only [columns, List.forall_mem_cons]
  exact ⟨Text.notMem_decimal rfl, hname, Text.tab_notMem_bracketed _, Text.notMem_decimal rfl,
    Text.notMem_decimal rfl, fun _ h ↦ (nomatch h)⟩

theorem line_injective {a b : Report} (h : a.line = b.line) : a = b := by
  have hcolumns : a.columns = b.columns := by
    rw [← splitOn_line, ← splitOn_line, h]
  simp only [columns, List.cons.injEq, and_true] at hcolumns
  obtain ⟨hopcode, hname, hextents, hmean, hmedian⟩ := hcolumns
  have hdtype : a.dtype = b.dtype := DType.name_injective (String.toList_inj.mp hname)
  cases a
  cases b
  simp only [mk.injEq]
  exact ⟨Text.decimal_injective hopcode, hdtype, Text.bracketed_injective hextents,
    Text.decimal_injective hmean, Text.decimal_injective hmedian⟩

/-- A report on times that fit a machine word, no more of them than a machine can hold, has their
mean, cut down to a whole number: no sum of the first times needs more than two words, and the mean
fits one word, since it lies between the least and the greatest time. The median is a time with half
of the times on either side. Neither depends on the order of the times. Reports with the same line
are the same. -/
theorem ofSamples_spec (hne : samples ≠ []) (hsamples : ∀ x ∈ samples, x < Size.limit)
    (hlength : samples.length < Size.limit) (opcode : Nat) (dtype : DType) (extents : List Nat) :
    let report := ofSamples opcode dtype extents samples
    (report.mean = samples.sum / samples.length ∧
      (∀ count, (samples.take count).sum < Size.limit ^ 2) ∧ report.mean < Size.limit ∧
      (∀ bound, (∀ x ∈ samples, bound ≤ x) → bound ≤ report.mean) ∧
      ∀ bound, (∀ x ∈ samples, x ≤ bound) → report.mean ≤ bound) ∧
    (report.median ∈ samples ∧
      samples.length / 2 + 1 ≤ samples.countP (· ≤ report.median) ∧
      samples.length - samples.length / 2 ≤ samples.countP (report.median ≤ ·)) ∧
    (∀ other, other.Perm samples → ofSamples opcode dtype extents other = report) ∧
    Function.Injective line := by
  intro report
  have hmean : report.mean ≤ Size.largest :=
    meanOf_le fun x hx ↦ Nat.le_pred_of_lt (hsamples x hx)
  refine ⟨⟨meanOf_eq samples, sum_take_lt hsamples hlength, ?_, fun _ ↦ le_meanOf hne,
    fun _ ↦ meanOf_le⟩, medianOf_spec hne, fun other hperm ↦ ?_, fun _ _ ↦ line_injective⟩
  · exact Nat.lt_of_le_of_lt hmean (by decide)
  · simp only [report, ofSamples, meanOf_perm hperm, medianOf_perm hperm]

/-- Of three times near the largest size, two of them equal, the mean and the median are exact. -/
theorem ofSamples_spec_large :
    [Size.largest, Size.largest - 2, Size.largest] ≠ [] ∧
      (∀ x ∈ [Size.largest, Size.largest - 2, Size.largest], x < Size.limit) ∧
      [Size.largest, Size.largest - 2, Size.largest].length < Size.limit ∧
      (ofSamples 0 .f32 [4] [Size.largest, Size.largest - 2, Size.largest]).mean =
        Size.largest - 1 ∧
      (ofSamples 0 .f32 [4] [Size.largest, Size.largest - 2, Size.largest]).median =
        Size.largest := by
  have hne : [Size.largest, Size.largest - 2, Size.largest] ≠ [] := List.cons_ne_nil _ _
  have hsamples : ∀ x ∈ [Size.largest, Size.largest - 2, Size.largest], x < Size.limit := by decide
  have hlength : [Size.largest, Size.largest - 2, Size.largest].length < Size.limit := by decide
  obtain ⟨⟨hmean, -⟩, ⟨hmem, hle, -⟩, -⟩ := ofSamples_spec hne hsamples hlength 0 .f32 [4]
  refine ⟨hne, hsamples, hlength, hmean.trans (by decide), ?_⟩
  generalize (ofSamples 0 .f32 [4] [Size.largest, Size.largest - 2, Size.largest]).median = median
    at hmem hle ⊢
  -- The shortest time is no median, since only one time is not longer than it.
  have hcount :
      [Size.largest, Size.largest - 2, Size.largest].countP (· ≤ Size.largest - 2) = 1 := by
    decide
  simp only [List.mem_cons, List.not_mem_nil, or_false] at hmem
  rcases hmem with rfl | rfl | rfl
  · rfl
  · rw [hcount] at hle
    exact absurd hle (by decide)
  · rfl

end ArrayEngine.Benchmark.Report
