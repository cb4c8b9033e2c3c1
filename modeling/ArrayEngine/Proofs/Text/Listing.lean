import ArrayEngine.Text.Listing
import Mathlib.Data.List.Basic

/-!
# Numbers can be read back

The decimal digits of a number denote it, and since digits are neither commas nor blanks, a list of
numbers in brackets can be taken apart again: `bracketed_injective` says that distinct lists have
distinct texts.
-/

namespace ArrayEngine

namespace Text

theorem toList_decimal (n : Nat) : (toString n).toList = Nat.toDigits 10 n :=
  Nat.toList_repr

/-- The decimal digits of a number denote it. -/
theorem decimal_injective {a b : Nat} (h : (toString a).toList = (toString b).toList) : a = b := by
  rw [toList_decimal, toList_decimal] at h
  calc a = Nat.ofDigitChars 10 (Nat.toDigits 10 a) 0 := Nat.ofDigitChars_ten_toDigits.symm
    _ = Nat.ofDigitChars 10 (Nat.toDigits 10 b) 0 := by rw [h]
    _ = b := Nat.ofDigitChars_ten_toDigits

theorem decimal_ne_nil (n : Nat) : (toString n).toList ≠ [] := by
  rw [toList_decimal]
  exact Nat.toDigits_ne_nil

theorem isDigit_of_mem_decimal {n : Nat} {c : Char} (h : c ∈ (toString n).toList) : c.isDigit := by
  rw [toList_decimal] at h
  exact Nat.isDigit_of_mem_toDigits (by decide) (by decide) h

/-- A character that is no digit is not in the decimal digits of a number. -/
theorem notMem_decimal {n : Nat} {c : Char} (h : c.isDigit = false) : c ∉ (toString n).toList := by
  intro hc
  rw [isDigit_of_mem_decimal hc] at h
  cases h

/-- A separator of two characters is the same as the first one alone, if the second one belongs to
the parts behind it. -/
theorem intercalate_pair {α : Type} (a b : α) (first : List α) (rest : List (List α)) :
    [a, b].intercalate (first :: rest) = [a].intercalate (first :: rest.map (b :: ·)) := by
  induction rest generalizing first with
  | nil => rfl
  | cons second rest ih =>
      rw [List.intercalate_cons_cons, ih, List.map_cons, List.intercalate_cons_cons]
      simp

theorem toList_bracketed (numbers : List Nat) :
    (bracketed numbers).toList =
      '[' :: (([',', ' '].intercalate (numbers.map fun n ↦ (toString n).toList)) ++ [']']) := by
  simp [bracketed, Function.comp_def]

theorem notMem_intercalate {α : Type} {x : α} {separator : List α} {parts : List (List α)}
    (hseparator : x ∉ separator) (hparts : ∀ part ∈ parts, x ∉ part) :
    x ∉ separator.intercalate parts := by
  induction parts with
  | nil => simp
  | cons first rest ih =>
      obtain ⟨hfirst, hrest⟩ := List.forall_mem_cons.mp hparts
      cases rest with
      | nil => rwa [List.intercalate_singleton]
      | cons second rest =>
          rw [List.intercalate_cons_cons]
          simp only [List.mem_append, not_or]
          exact ⟨⟨hfirst, hseparator⟩, ih hrest⟩

theorem tab_notMem_bracketed (numbers : List Nat) : '\t' ∉ (bracketed numbers).toList := by
  have hparts : ∀ part ∈ numbers.map fun n ↦ (toString n).toList, '\t' ∉ part := by
    intro part hpart
    obtain ⟨n, -, rfl⟩ := List.mem_map.mp hpart
    exact notMem_decimal rfl
  have hinner := notMem_intercalate (show '\t' ∉ [',', ' '] by decide) hparts
  rw [toList_bracketed]
  simp only [List.mem_cons, List.mem_append, List.not_mem_nil, or_false, not_or]
  exact ⟨by decide, hinner, by decide⟩

/-- The numbers of a list that is not empty are its text split at commas, less the blanks. -/
theorem splitOn_decimals (first : Nat) (rest : List Nat) :
    ([',', ' '].intercalate ((first :: rest).map fun n ↦ (toString n).toList)).splitOn ',' =
      (toString first).toList :: rest.map fun n ↦ ' ' :: (toString n).toList := by
  rw [List.map_cons, intercalate_pair, List.map_map]
  refine List.splitOn_intercalate ',' ?_ (List.cons_ne_nil _ _)
  intro part hpart
  rcases List.mem_cons.mp hpart with rfl | hrest
  · exact notMem_decimal rfl
  · obtain ⟨n, -, rfl⟩ := List.mem_map.mp hrest
    exact List.not_mem_cons_of_ne_of_not_mem (by decide) (notMem_decimal rfl)

/-- A list of numbers can be read back from its text. -/
theorem bracketed_injective {a b : List Nat} (h : (bracketed a).toList = (bracketed b).toList) :
    a = b := by
  rw [toList_bracketed, toList_bracketed] at h
  have hinner := List.append_cancel_right (List.cons.inj h).2
  have hempty (first : Nat) (rest : List Nat) :
      [',', ' '].intercalate ((first :: rest).map fun n ↦ (toString n).toList) ≠ [] := by
    intro hnil
    have hsplit := splitOn_decimals first rest
    rw [hnil, List.splitOn_nil] at hsplit
    exact decimal_ne_nil first (List.cons.inj hsplit).1.symm
  cases a with
  | nil =>
      cases b with
      | nil => rfl
      | cons first rest => exact absurd hinner.symm (hempty first rest)
  | cons first rest =>
      cases b with
      | nil => exact absurd hinner (hempty first rest)
      | cons other others =>
          have hsplit := congrArg (List.splitOn ',') hinner
          rw [splitOn_decimals, splitOn_decimals] at hsplit
          obtain ⟨hfirst, hrest⟩ := List.cons.inj hsplit
          rw [decimal_injective hfirst, List.map_injective_iff.mpr _ hrest]
          intro m n hmn
          exact decimal_injective (List.cons.inj hmn).2

end Text

end ArrayEngine
