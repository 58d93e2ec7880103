import Formulae.Number.Binary
import Mathlib.Tactic.IntervalCases

/-!
# Doubles in source

Source has no signed numbers: a minus is an operator.  Accordingly a double read from digits
has no sign bit (`Binary.isNegative_of_unsigned`), and it is a number (`isNaN_nearest`), though
it may be infinite.  An integer is a number as a double too (`isNaN_toFloat`).  Both properties
are followed from the digits through rounding, multiplication and division to the stored word.
-/

namespace Formulae.Number

open Float.Model
open Float.Model.UnpackedFloat

section

variable {c : Prop} [Decidable c] {α : Type} {value : α}

theorem dite_eq (f : UnpackedFloat → α) {x : c → UnpackedFloat} {y : ¬c → UnpackedFloat}
    (left : ∀ h, f (x h) = value) (right : ∀ h, f (y h) = value) : f (dite c x y) = value := by
  split
  · exact left _
  · exact right _

theorem ite_eq (f : UnpackedFloat → α) {x y : UnpackedFloat} (left : f x = value)
    (right : f y = value) : f (if c then x else y) = value :=
  dite_eq f (fun _ => left) fun _ => right

end

/-! ## The sign through the operations -/

/-- The sign of an unpacked double; what is no number has none. -/
def signOf : UnpackedFloat → Sign
  | .infinity sign | .zero sign | .finite sign _ _ _ => sign
  | .notANumber => .positive

theorem signOf_roundWithAccuracy (spec : Float.Model.Format) (sign : Sign) (mantissa : Nat)
    (exponent : Int) (accuracy : Accuracy) :
    signOf (roundWithAccuracy spec sign mantissa exponent accuracy) = sign := by
  delta roundWithAccuracy
  exact dite_eq signOf (fun _ => rfl) fun _ => rfl

theorem signOf_mul {spec : Float.Model.Format} {x y : UnpackedFloat}
    (left : signOf x = .positive) (right : signOf y = .positive) :
    signOf (mul spec x y) = .positive := by
  cases x <;> cases y <;> cases left <;> cases right <;> first
    | rfl
    | exact signOf_roundWithAccuracy ..

theorem signOf_div {spec : Float.Model.Format} {x y : UnpackedFloat}
    (left : signOf x = .positive) (right : signOf y = .positive) :
    signOf (div spec x y) = .positive := by
  cases x <;> cases y <;> cases left <;> cases right <;> first
    | rfl
    | exact signOf_roundWithAccuracy ..

theorem signOf_ofNat (spec : Float.Model.Format) (n : Nat) :
    signOf (UnpackedFloat.ofNat spec n) = .positive := by
  simp only [UnpackedFloat.ofNat, UnpackedFloat.ofInt, UnpackedFloat.normalize]
  split
  · next negative =>
      rw [Int.compare_eq_lt] at negative
      omega
  · rfl
  · exact signOf_roundWithAccuracy ..

theorem signOf_ofScientific (spec : Float.Model.Format) (digits : Nat) (exponent : Int) :
    signOf (UnpackedFloat.ofScientific spec digits exponent) = .positive := by
  delta UnpackedFloat.ofScientific
  apply dite_eq signOf fun _ => rfl
  intro nonzero
  exact ite_eq signOf rfl (ite_eq signOf rfl
    (ite_eq signOf (signOf_mul rfl rfl) (signOf_div rfl rfl)))

/-! ## The sign bit -/

theorem unpackSign_packComponents (spec : Float.Model.Format) (sign : Sign)
    (exponent : BitVec spec.exponentBits) (mantissa : BitVec spec.mantissaBitsWithoutImplicit) :
    unpackSign (packComponents spec sign exponent mantissa) = sign.toBitVec := by
  ext bit bound
  have only : bit = 0 := by omega
  delta unpackSign
  simp [only, packComponents, BitVec.getLsbD_append, BitVec.getElem_append]

theorem unpackSign_pack (spec : Float.Model.Format) (x : UnpackedFloat) :
    unpackSign (UnpackedFloat.pack spec x) = (signOf x).toBitVec := by
  cases x with
  | finite sign mantissa exponent positive =>
      change unpackSign _ = sign.toBitVec
      delta UnpackedFloat.pack
      dsimp only
      split
      · exact unpackSign_packComponents ..
      · split <;> exact unpackSign_packComponents ..
  | _ => exact unpackSign_packComponents ..

theorem signOf_unpack {spec : Float.Model.Format} {bits : BitVec spec.numBits}
    (h : unpackSign bits = 0#1) : signOf (UnpackedFloat.unpack spec bits) = .positive := by
  have sign : Sign.ofBitVec (unpackSign bits) = .positive := by rw [h]; rfl
  delta UnpackedFloat.unpack
  exact ite_eq signOf (ite_eq signOf sign rfl)
    (ite_eq signOf (dite_eq signOf (fun _ => sign) fun _ => sign) sign)

/-- The sign bit of the double is zero. -/
def Unsigned (x : Float) : Prop :=
  @unpackSign .binary64 x.toBits.toBitVec = 0#1

theorem unsigned_ofModel_pack {x : UnpackedFloat} (h : signOf x = .positive) :
    Unsigned (.ofModel (Float.Model.pack x)) := by
  have bit := unpackSign_pack .binary64 x
  rw [h] at bit
  exact bit

theorem signOf_unpack_of_unsigned {x : Float} (h : Unsigned x) :
    signOf x.toModel.unpack = .positive :=
  signOf_unpack h

theorem unsigned_mul {x y : Float} (left : Unsigned x) (right : Unsigned y) : Unsigned (x * y) :=
  unsigned_ofModel_pack
    (signOf_mul (signOf_unpack_of_unsigned left) (signOf_unpack_of_unsigned right))

theorem unsigned_div {x y : Float} (left : Unsigned x) (right : Unsigned y) : Unsigned (x / y) :=
  unsigned_ofModel_pack
    (signOf_div (signOf_unpack_of_unsigned left) (signOf_unpack_of_unsigned right))

theorem unsigned_toFloat (n : UInt64) : Unsigned n.toFloat :=
  unsigned_ofModel_pack (signOf_ofNat _ _)

theorem unsigned_ofBits {bits : UInt64} (h : @unpackSign .binary64 bits.toBitVec = 0#1) :
    Unsigned (Float.ofBits bits) :=
  unsigned_ofModel_pack (signOf_unpack h)

theorem unsigned_powersOfTen (e : Nat) (h : e < Float.exactlyRepresentablePowersOfTen.size) :
    Unsigned Float.exactlyRepresentablePowersOfTen[e] := by
  have bound : e < 23 := h
  interval_cases e <;> exact unsigned_ofBits (by decide)

theorem unsigned_ofScientific (digits : Nat) (negative : Bool) (exponent : Nat) :
    Unsigned (Float.ofScientific digits negative exponent) := by
  unfold Float.ofScientific
  split
  · cases negative
    · exact unsigned_mul (unsigned_toFloat _) (unsigned_powersOfTen _ _)
    · exact unsigned_div (unsigned_toFloat _) (unsigned_powersOfTen _ _)
  · exact unsigned_ofModel_pack (signOf_ofScientific _ _ _)

/-- A double read from digits has no sign. -/
theorem unsigned_nearest (digits : Nat) (exponent : Int) : Unsigned (nearest digits exponent) := by
  simp only [nearest]
  split
  · exact unsigned_ofScientific ..
  · split
    · exact unsigned_div (unsigned_ofScientific ..) (unsigned_ofScientific ..)
    · split <;> exact unsigned_ofScientific ..

theorem Binary.isNegative_of_unsigned {x : Float} (h : Unsigned x) :
    (Binary.ofFloat x).isNegative = false := by
  have bit : x.toBits.toNat / Binary.signBit % 2 = 0 := by
    have value : (@unpackSign .binary64 x.toBits.toBitVec).toNat = 0 := congrArg BitVec.toNat h
    have weight : Binary.signBit = 9223372036854775808 := by decide
    delta unpackSign at value
    simpa [Nat.shiftRight_eq_div_pow, weight] using value
  have notOne : ¬x.toBits.toNat / Binary.signBit = 1 := by omega
  simp only [Binary.ofFloat, notOne, decide_false]
  split
  · split <;> rfl
  · split <;> rfl

/-! ## Numbers -/

/-- A double that is a number is one when it is packed. -/
theorem isNaN_unpack_pack {spec : Float.Model.Format} {x : UnpackedFloat}
    (isNumber : x.isNaN = false) :
    (UnpackedFloat.unpack spec (UnpackedFloat.pack spec x)).isNaN = false := by
  have ofExponent {bits : BitVec spec.numBits}
      (exponent : unpackExponent bits ≠ -BitVec.ofNat spec.exponentBits 1) :
      (UnpackedFloat.unpack spec bits).isNaN = false := by
    delta UnpackedFloat.unpack
    dsimp only
    rw [if_neg exponent]
    exact ite_eq UnpackedFloat.isNaN (dite_eq UnpackedFloat.isNaN (fun _ => rfl) fun _ => rfl) rfl
  have ofInfinity (sign : Sign) :
      (UnpackedFloat.unpack spec (packedInfinity spec sign)).isNaN = false := by
    have isInfinite : unpackExponent (packedInfinity spec sign)
        = -BitVec.ofNat spec.exponentBits 1 := unpackExponent_packComponents
    have noMantissa : unpackMantissa (packedInfinity spec sign)
        = BitVec.ofNat spec.mantissaBitsWithoutImplicit 0 := unpackMantissa_packComponents
    delta UnpackedFloat.unpack
    dsimp only
    rw [if_pos isInfinite, if_pos noMantissa]
    rfl
  fun_cases UnpackedFloat.pack with
  | case1 => cases isNumber
  | case2 sign => exact ofInfinity sign
  | case3 sign =>
      apply ofExponent
      simp [packedZero, Nat.pos_iff_ne_zero.mp spec.he]
  | case4 sign => exact ofInfinity sign
  | case5 sign mantissa exponent positive bits biased small normal =>
      apply ofExponent
      rw [unpackExponent_packComponents, BitVec.neg_one_eq_allOnes, Ne, ← BitVec.toNat_inj,
        BitVec.toNat_ofNat, BitVec.toNat_allOnes, Nat.mod_eq_of_lt (by omega)]
      omega
  | case6 sign mantissa exponent positive bits biased small subnormal =>
      apply ofExponent
      simp [Nat.pos_iff_ne_zero.mp spec.he]

theorem isNaN_ofModel_pack {x : UnpackedFloat} (isNumber : x.isNaN = false) :
    (Float.ofModel (Float.Model.pack x)).isNaN = false :=
  isNaN_unpack_pack isNumber

theorem isNaN_roundWithAccuracy (spec : Float.Model.Format) (sign : Sign) (mantissa : Nat)
    (exponent : Int) (accuracy : Accuracy) :
    (roundWithAccuracy spec sign mantissa exponent accuracy).isNaN = false := by
  delta roundWithAccuracy
  exact dite_eq UnpackedFloat.isNaN (fun _ => rfl) fun _ => rfl

theorem isNaN_ofNat (spec : Float.Model.Format) (n : Nat) :
    (UnpackedFloat.ofNat spec n).isNaN = false := by
  unfold UnpackedFloat.ofNat UnpackedFloat.ofInt UnpackedFloat.normalize
  split
  · exact isNaN_roundWithAccuracy ..
  · rfl
  · exact isNaN_roundWithAccuracy ..

theorem isNaN_neg {x : Float} (isNumber : x.isNaN = false) : (-x).isNaN = false := by
  apply isNaN_ofModel_pack
  change x.toModel.unpack.isNaN = false at isNumber
  cases unpacked : x.toModel.unpack <;> rw [unpacked] at isNumber <;> first | rfl | cases isNumber

/-- An integer is a number as a double. -/
theorem isNaN_toFloat (a : Int64) : (toFloat a).isNaN = false := by
  have magnitude : a.toInt.natAbs.toUInt64.toFloat.isNaN = false :=
    isNaN_ofModel_pack (isNaN_ofNat _ _)
  unfold toFloat
  split
  · exact isNaN_neg magnitude
  · exact magnitude

/-! ## Doubles read from digits -/

/-- The unpacked double is finite and not zero. -/
def isNonzero : UnpackedFloat → Bool
  | .finite _ _ _ _ => true
  | _ => false

theorem isNaN_mul {spec : Float.Model.Format} {x y : UnpackedFloat} (isNumber : x.isNaN = false)
    (nonzero : isNonzero y) : (UnpackedFloat.mul spec x y).isNaN = false := by
  cases y <;> cases nonzero
  cases x with
  | finite => exact isNaN_roundWithAccuracy ..
  | infinity | zero => rfl
  | notANumber => cases isNumber

theorem isNaN_div {spec : Float.Model.Format} {x y : UnpackedFloat} (isNumber : x.isNaN = false)
    (nonzero : isNonzero y) : (UnpackedFloat.div spec x y).isNaN = false := by
  cases y <;> cases nonzero
  cases x with
  | finite => exact isNaN_roundWithAccuracy ..
  | infinity | zero => rfl
  | notANumber => cases isNumber

theorem isNonzero_powersOfTen (e : Nat) (h : e < Float.exactlyRepresentablePowersOfTen.size) :
    isNonzero Float.exactlyRepresentablePowersOfTen[e].toModel.unpack := by
  have all : Float.exactlyRepresentablePowersOfTen.all fun x => isNonzero x.toModel.unpack := by
    decide +kernel
  exact Array.all_eq_true.mp all e h

theorem isNaN_unpacked_ofScientific (spec : Float.Model.Format) (digits : Nat) (exponent : Int) :
    (UnpackedFloat.ofScientific spec digits exponent).isNaN = false := by
  delta UnpackedFloat.ofScientific
  apply dite_eq UnpackedFloat.isNaN fun _ => rfl
  intro nonzero
  exact ite_eq UnpackedFloat.isNaN rfl (ite_eq UnpackedFloat.isNaN rfl
    (ite_eq UnpackedFloat.isNaN (isNaN_mul rfl rfl) (isNaN_div rfl rfl)))

theorem isNaN_ofScientific (digits : Nat) (negative : Bool) (exponent : Nat) :
    (Float.ofScientific digits negative exponent).isNaN = false := by
  have whole : digits.toUInt64.toFloat.isNaN = false := isNaN_ofModel_pack (isNaN_ofNat _ _)
  unfold Float.ofScientific
  split
  · cases negative
    · exact isNaN_ofModel_pack (isNaN_mul whole (isNonzero_powersOfTen _ _))
    · exact isNaN_ofModel_pack (isNaN_div whole (isNonzero_powersOfTen _ _))
  · exact isNaN_ofModel_pack (isNaN_unpacked_ofScientific _ _ _)

/-- A double read from digits is a number. -/
theorem isNaN_nearest (digits : Nat) (exponent : Int) :
    (nearest digits exponent).isNaN = false := by
  simp only [nearest]
  split
  · exact isNaN_ofScientific ..
  · split
    · decide +kernel
    · split <;> exact isNaN_ofScientific ..

theorem Binary.ofFloat_ne_nan {x : Float} (isNumber : x.isNaN = false) :
    Binary.ofFloat x ≠ .nan := by
  intro isNaN
  have numeric : x.toModel.unpack.isNaN = false := isNumber
  have weight : hiddenBit = 4503599627370496 := by decide
  simp only [Binary.ofFloat] at isNaN
  split at isNaN
  case isTrue largest =>
    split at isNaN
    · cases isNaN
    · next fraction =>
        have exponent : @unpackExponent .binary64 x.toBits.toBitVec = -1#11 := by
          apply BitVec.eq_of_toNat_eq
          delta unpackExponent
          simpa [Nat.shiftRight_eq_div_pow, weight, exponentMask] using largest
        have mantissa : @unpackMantissa .binary64 x.toBits.toBitVec ≠ 0#52 := by
          intro zero
          have value : (@unpackMantissa .binary64 x.toBits.toBitVec).toNat = 0 :=
            congrArg BitVec.toNat zero
          delta unpackMantissa at value
          exact fraction (by simpa [weight] using value)
        have isNaN : x.toModel.unpack = .notANumber := by
          delta Float.Model.unpack UnpackedFloat.unpack
          exact (if_pos exponent).trans (if_neg mantissa)
        rw [isNaN] at numeric
        cases numeric
  case isFalse =>
    split at isNaN <;> cases isNaN

end Formulae.Number
