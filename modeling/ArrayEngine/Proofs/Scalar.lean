import ArrayEngine.Scalar
import Mathlib.Algebra.Ring.Nat
import Mathlib.Algebra.Ring.Int.Defs
import Mathlib.Data.Int.ModEq

/-!
# Integer elements as integers

An element of an integer type is known by its value, and the values of a type are the integers from
`leastValue` to `greatestValue`. The operations on elements are those on integers: sums and products
are kept modulo the width (`value_add`, `value_mul`), the larger and the smaller element are so by
their values, and `value_magnitude` is the absolute value, cut off at the largest number.

A conversion between integer types keeps the value modulo the width of the target, and is known by
this (`eq_convert_iff`). So conversions to a type that is no wider may be made at any stage of a
computation with sums and products (`convert_convert`, `convert_add`, `convert_mul`).
-/

namespace ArrayEngine.Scalar

variable {platform : Platform} {dtype : DType}

theorem width_pos (dtype : DType) : 0 < dtype.width := by
  cases dtype <;> decide

theorem width_le_width_i64 (dtype : DType) : dtype.width ≤ DType.i64.width := by
  cases dtype <;> decide

theorem leastValue_nonpos (dtype : DType) : leastValue dtype ≤ 0 := by
  cases dtype <;> decide

theorem greatestValue_pos (dtype : DType) : 0 < greatestValue dtype := by
  cases dtype <;> decide

/-- Elements with the same value are the same. -/
theorem eq_of_value_eq {x y : Scalar dtype} (h : x.value = y.value) : x = y := by
  cases x with
  | mk left =>
      cases y with
      | mk right =>
          by_cases hsigned : dtype.isSignedInt
          · simp only [value, if_pos hsigned] at h
            rw [BitVec.eq_of_toInt_eq h]
          · simp only [value, if_neg hsigned] at h
            rw [BitVec.eq_of_toNat_eq (Int.ofNat.inj h)]

/-- Elements with the same bits are the same. -/
theorem pattern_injective : Function.Injective (pattern : Scalar dtype → Nat) := by
  intro x y h
  cases x with
  | mk left =>
      cases y with
      | mk right => exact congrArg Scalar.mk (BitVec.eq_of_toNat_eq h)

/-! ## Ranges -/

theorem leastValue_of_signed (h : dtype.isSignedInt) :
    leastValue dtype = -2 ^ (dtype.width - 1) := by
  rw [leastValue, if_pos h, Nat.one_shiftLeft]
  push_cast
  rfl

theorem leastValue_of_unsigned (h : ¬dtype.isSignedInt) : leastValue dtype = 0 := by
  rw [leastValue, if_neg h]

theorem greatestValue_of_signed (h : dtype.isSignedInt) :
    greatestValue dtype = 2 ^ (dtype.width - 1) - 1 := by
  rw [greatestValue, if_pos h, Nat.one_shiftLeft]
  push_cast
  rfl

theorem greatestValue_of_unsigned (h : ¬dtype.isSignedInt) :
    greatestValue dtype = 2 ^ dtype.width - 1 := by
  rw [greatestValue, if_neg h, Nat.one_shiftLeft]
  push_cast
  rfl

theorem leastValue_le_value (x : Scalar dtype) : leastValue dtype ≤ x.value := by
  by_cases h : dtype.isSignedInt
  · rw [leastValue_of_signed h, value, if_pos h]
    exact BitVec.le_toInt x.bits
  · rw [leastValue_of_unsigned h, value, if_neg h]
    exact Int.natCast_nonneg _

theorem value_le_greatestValue (x : Scalar dtype) : x.value ≤ greatestValue dtype := by
  by_cases h : dtype.isSignedInt
  · rw [greatestValue_of_signed h, value, if_pos h]
    exact Int.le_sub_one_of_lt BitVec.toInt_lt
  · have hlt : (x.bits.toNat : Int) < 2 ^ dtype.width := by exact_mod_cast x.bits.isLt
    rw [greatestValue_of_unsigned h, value, if_neg h]
    exact Int.le_sub_one_of_lt hlt

/-- The bits of a number within the range of the type have this number as their value. -/
theorem value_ofInt {n : Int} (hleast : leastValue dtype ≤ n)
    (hgreatest : n ≤ greatestValue dtype) :
    (Scalar.mk (BitVec.ofInt dtype.width n)).value = n := by
  by_cases h : dtype.isSignedInt
  · rw [leastValue_of_signed h] at hleast
    rw [greatestValue_of_signed h] at hgreatest
    rw [value, if_pos h]
    exact BitVec.toInt_ofInt_eq_self (width_pos dtype) hleast (by omega)
  · rw [leastValue_of_unsigned h] at hleast
    rw [greatestValue_of_unsigned h] at hgreatest
    have hmod : n % 2 ^ dtype.width = n := Int.emod_eq_of_lt hleast (by omega)
    rw [value, if_neg h, BitVec.toNat_ofInt, Nat.cast_pow, Nat.cast_ofNat, hmod,
      Int.toNat_of_nonneg hleast]

@[simp] theorem value_lowest (dtype : DType) : (lowest dtype).value = leastValue dtype := by
  have hleast := leastValue_nonpos dtype
  have hgreatest := greatestValue_pos dtype
  exact value_ofInt (Int.le_refl _) (by omega)

@[simp] theorem value_highest (dtype : DType) : (highest dtype).value = greatestValue dtype := by
  have hleast := leastValue_nonpos dtype
  have hgreatest := greatestValue_pos dtype
  exact value_ofInt (by omega) (Int.le_refl _)

/-- An integer type keeps the bits of an integer. -/
theorem ofInt_of_isInt (hint : dtype.isInt) (n : Int) :
    ofInt platform dtype n = ⟨BitVec.ofInt dtype.width n⟩ := by
  cases dtype <;> first | rfl | exact absurd hint (by decide)

@[simp] theorem value_zero (dtype : DType) : (zero dtype).value = 0 := by
  simp [value, zero, ofPattern]

theorem value_one (hint : dtype.isInt) : (one dtype).value = 1 := by
  cases dtype <;> first | rfl | exact absurd hint (by decide)

/-! ## Arithmetic -/

/-- Both readings of the bits agree modulo the width. -/
theorem value_modEq (x : Scalar dtype) : x.value ≡ x.bits.toNat [ZMOD 2 ^ dtype.width] := by
  rw [value]
  split
  · rw [BitVec.toInt_eq_toNat_bmod, Int.ModEq]
    exact_mod_cast Int.bmod_emod
  · rfl

/-- Elements whose bits agree modulo the width agree in their values modulo the width. -/
theorem value_modEq_of_toNat {x : Scalar dtype} {n : Nat} (h : x.bits.toNat = n % 2 ^ dtype.width) :
    x.value ≡ n [ZMOD 2 ^ dtype.width] := by
  refine (value_modEq x).trans ?_
  rw [h, Int.ModEq]
  push_cast
  exact Int.emod_emod_of_dvd _ (Int.dvd_refl _)

theorem value_add (x y : Scalar dtype) :
    (x.add y).value ≡ x.value + y.value [ZMOD 2 ^ dtype.width] := by
  have hbits : (x.add y).value ≡ x.bits.toNat + y.bits.toNat [ZMOD 2 ^ dtype.width] := by
    exact_mod_cast value_modEq_of_toNat (BitVec.toNat_add x.bits y.bits)
  exact hbits.trans ((value_modEq x).add (value_modEq y)).symm

theorem value_mul (x y : Scalar dtype) :
    (x.mul y).value ≡ x.value * y.value [ZMOD 2 ^ dtype.width] := by
  have hbits : (x.mul y).value ≡ x.bits.toNat * y.bits.toNat [ZMOD 2 ^ dtype.width] := by
    exact_mod_cast value_modEq_of_toNat (BitVec.toNat_mul x.bits y.bits)
  exact hbits.trans ((value_modEq x).mul (value_modEq y)).symm

@[simp] theorem value_max (x y : Scalar dtype) : (x.max y).value = Max.max x.value y.value := by
  rw [Scalar.max, max_def]
  split <;> rfl

@[simp] theorem value_min (x y : Scalar dtype) : (x.min y).value = Min.min x.value y.value := by
  rw [Scalar.min, min_def]
  split <;> rfl

/-- An integer type keeps any integer modulo its width. -/
theorem value_ofInt_modEq (hint : dtype.isInt) (n : Int) :
    (ofInt platform dtype n).value ≡ n [ZMOD 2 ^ dtype.width] := by
  have hpow : (2 : Int) ^ dtype.width ≠ 0 := pow_ne_zero _ (by decide)
  rw [ofInt_of_isInt hint]
  refine (value_modEq _).trans ?_
  rw [BitVec.toNat_ofInt, Nat.cast_pow, Nat.cast_ofNat,
    Int.toNat_of_nonneg (Int.emod_nonneg n hpow)]
  exact Int.mod_modEq n _

/-- Between integer types, a conversion keeps the number modulo the width of the target. -/
theorem value_convert {target : DType} (hint : dtype.isInt) (htarget : target.isInt)
    (x : Scalar dtype) : (x.convert platform target).value ≡ x.value [ZMOD 2 ^ target.width] := by
  have hexact : x.convert platform target = ofInt platform target x.value := by
    cases dtype <;> first | rfl | exact absurd hint (by decide)
  rw [hexact]
  exact value_ofInt_modEq htarget x.value

/-- Only signed types have numbers below zero. -/
theorem isSignedInt_of_value_neg {x : Scalar dtype} (h : x.value < 0) : dtype.isSignedInt := by
  by_contra hunsigned
  rw [value, if_neg hunsigned] at h
  omega

/-- The element with the opposite bits has the opposite value, if the type has that number. -/
theorem value_neg_bits {x : Scalar dtype} (hneg : x.value < 0)
    (hleast : x.value ≠ leastValue dtype) :
    (Scalar.mk (-x.bits)).value = -x.value := by
  have hsigned := isSignedInt_of_value_neg hneg
  rw [leastValue_of_signed hsigned] at hleast
  simp only [value, if_pos hsigned] at hleast ⊢
  refine BitVec.toInt_neg_of_ne_intMin fun hmin ↦ hleast ?_
  rw [hmin, BitVec.toInt_intMin_of_pos (width_pos dtype)]

theorem value_magnitude (x : Scalar dtype) :
    x.magnitude.value = Min.min |x.value| (greatestValue dtype) := by
  have hgreatest := value_le_greatestValue x
  rw [magnitude]
  split
  · rename_i hneg
    rw [abs_of_neg hneg]
    -- The opposite of the least value is one more than the greatest.
    split
    · rename_i hleast
      have hsigned := isSignedInt_of_value_neg hneg
      have hlast : greatestValue dtype ≤ -leastValue dtype := by
        rw [greatestValue_of_signed hsigned, leastValue_of_signed hsigned]
        omega
      rw [value_highest, hleast, min_eq_right hlast]
    · rename_i hleast
      have hvalue := value_neg_bits hneg hleast
      have hle := value_le_greatestValue (Scalar.mk (-x.bits))
      rw [hvalue] at hle ⊢
      exact (min_eq_left hle).symm
  · rename_i hnonneg
    rw [abs_of_nonneg (Int.not_lt.mp hnonneg), min_eq_left hgreatest]

/-! ## Laws -/

protected theorem add_assoc (x y z : Scalar dtype) : (x.add y).add z = x.add (y.add z) :=
  congrArg Scalar.mk (BitVec.add_assoc x.bits y.bits z.bits)

protected theorem mul_assoc (x y z : Scalar dtype) : (x.mul y).mul z = x.mul (y.mul z) :=
  congrArg Scalar.mk (BitVec.mul_assoc x.bits y.bits z.bits)

protected theorem max_assoc (x y z : Scalar dtype) : (x.max y).max z = x.max (y.max z) := by
  refine eq_of_value_eq ?_
  simp only [value_max]
  exact max_assoc x.value y.value z.value

protected theorem min_assoc (x y z : Scalar dtype) : (x.min y).min z = x.min (y.min z) := by
  refine eq_of_value_eq ?_
  simp only [value_min]
  exact min_assoc x.value y.value z.value

protected theorem add_zero (x : Scalar dtype) : x.add (zero dtype) = x :=
  congrArg mk (BitVec.add_zero x.bits)

protected theorem mul_one (hint : dtype.isInt) (x : Scalar dtype) : x.mul (one dtype) = x := by
  cases dtype <;> first | exact absurd hint (by decide) | exact congrArg mk (BitVec.mul_one x.bits)

protected theorem max_eq_left {x y : Scalar dtype} (h : y.value ≤ x.value) : x.max y = x := by
  refine eq_of_value_eq ?_
  rw [value_max, max_eq_left h]

protected theorem min_eq_left {x y : Scalar dtype} (h : x.value ≤ y.value) : x.min y = x := by
  refine eq_of_value_eq ?_
  rw [value_min, min_eq_left h]

/-! ## Conversions -/

/-- Elements whose values agree modulo the width are the same. -/
theorem eq_of_value_modEq {x y : Scalar dtype} (h : x.value ≡ y.value [ZMOD 2 ^ dtype.width]) :
    x = y := by
  have hbits : (x.bits.toNat : Int) ≡ y.bits.toNat [ZMOD (2 ^ dtype.width : Nat)] := by
    push_cast
    exact (value_modEq x).symm.trans (h.trans (value_modEq y))
  exact pattern_injective
    ((Int.natCast_modEq_iff.mp hbits).eq_of_lt_of_lt x.bits.isLt y.bits.isLt)

section

variable {source target : DType}

/-- Integers that agree modulo the width of a type do so modulo a smaller width. -/
theorem modEq_of_width_le {a b : Int} (hwidth : target.width ≤ source.width)
    (h : a ≡ b [ZMOD 2 ^ source.width]) : a ≡ b [ZMOD 2 ^ target.width] :=
  h.of_dvd (pow_dvd_pow 2 hwidth)

variable (hsource : source.isInt) (htarget : target.isInt)

include hsource htarget

/-- Between integer types, the conversion of an element is the one element of the target that agrees
with it modulo the width of the target. -/
theorem eq_convert_iff {x : Scalar source} {y : Scalar target} :
    y = x.convert platform target ↔ y.value ≡ x.value [ZMOD 2 ^ target.width] := by
  have hvalue : (x.convert platform target).value ≡ _ [ZMOD _] := value_convert hsource htarget x
  constructor
  · rintro rfl
    exact hvalue
  · intro h
    exact eq_of_value_modEq (h.trans hvalue.symm)

theorem convert_zero : (zero source).convert platform target = zero target := by
  refine ((eq_convert_iff hsource htarget).mpr ?_).symm
  rw [value_zero, value_zero]

theorem convert_one : (one source).convert platform target = one target := by
  refine ((eq_convert_iff hsource htarget).mpr ?_).symm
  rw [value_one hsource, value_one htarget]

section

variable {middle : DType} (hmiddle : middle.isInt) (x : Scalar source)

include hmiddle

/-- A conversion by way of a type that is no narrower than the target is the conversion to the
target. -/
theorem convert_convert (hwidth : target.width ≤ middle.width) :
    (x.convert platform middle).convert platform target = x.convert platform target := by
  refine (eq_convert_iff hsource htarget).mpr ?_
  calc ((x.convert platform middle).convert platform target).value
      ≡ (x.convert platform middle).value [ZMOD 2 ^ target.width] :=
        value_convert hmiddle htarget _
    _ ≡ x.value [ZMOD 2 ^ target.width] :=
        modEq_of_width_le hwidth (value_convert hsource hmiddle x)

omit htarget in
/-- From a type that is no narrower, an element can be converted back. -/
theorem convert_convert_self (hwidth : source.width ≤ middle.width) :
    (x.convert platform middle).convert platform source = x := by
  rw [convert_convert hsource hsource hmiddle x hwidth]
  exact ((eq_convert_iff hsource hsource).mpr (Int.ModEq.refl _)).symm

end

variable (hwidth : target.width ≤ source.width) (x y : Scalar source)

include hwidth

/-- A conversion to a type that is no wider goes along with sums. -/
theorem convert_add :
    (x.add y).convert platform target =
      (x.convert platform target).add (y.convert platform target) := by
  refine ((eq_convert_iff hsource htarget).mpr ?_).symm
  calc ((x.convert platform target).add (y.convert platform target)).value
      ≡ (x.convert platform target).value + (y.convert platform target).value
          [ZMOD 2 ^ target.width] :=
        value_add _ _
    _ ≡ x.value + y.value [ZMOD 2 ^ target.width] :=
        (value_convert hsource htarget x).add (value_convert hsource htarget y)
    _ ≡ (x.add y).value [ZMOD 2 ^ target.width] :=
        (modEq_of_width_le hwidth (value_add x y)).symm

/-- A conversion to a type that is no wider goes along with products. -/
theorem convert_mul :
    (x.mul y).convert platform target =
      (x.convert platform target).mul (y.convert platform target) := by
  refine ((eq_convert_iff hsource htarget).mpr ?_).symm
  calc ((x.convert platform target).mul (y.convert platform target)).value
      ≡ (x.convert platform target).value * (y.convert platform target).value
          [ZMOD 2 ^ target.width] :=
        value_mul _ _
    _ ≡ x.value * y.value [ZMOD 2 ^ target.width] :=
        (value_convert hsource htarget x).mul (value_convert hsource htarget y)
    _ ≡ (x.mul y).value [ZMOD 2 ^ target.width] :=
        (modEq_of_width_le hwidth (value_mul x y)).symm

end

end ArrayEngine.Scalar
