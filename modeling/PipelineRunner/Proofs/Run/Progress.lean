import Mathlib.Algebra.Group.Nat.Defs
import Mathlib.Logic.Basic
import PipelineRunner.Status
import PipelineRunner.Word

/-!
# Progress is a number

The progress of a run divides one count by another. A count that is not zero is a number with all
its 53 bits once it is rounded, and stays finite when it is packed, so the quotient is never the
one that is no number.
-/

namespace PipelineRunner.Progress

open Float.Model (Format totalExponent UnpackedFloat)
open Float.Model.UnpackedFloat

/-! ### Rounding -/

/-- A finite number with all 53 bits, far from the ends of the range. -/
def Normal (u : UnpackedFloat) : Prop :=
  ∃ s m e, ∃ h : 0 < m, u = .finite s m e h ∧ 2 ^ 52 ≤ m ∧ m < 2 ^ 53 ∧ -1000 ≤ e ∧ e ≤ 900

theorem mantissa_shiftRight (em : ExtendedMantissa) (k : Nat) :
    (em >>> k).mantissa = em.mantissa / 2 ^ k := by
  show (k.repeat ExtendedMantissa.shiftRightOne em).mantissa = _
  induction k with
  | zero => rw [Nat.repeat, Nat.pow_zero, Nat.div_one]
  | succ k ih =>
    rw [Nat.repeat, Nat.pow_succ, ← Nat.div_div_eq_div_mul, ← ih]
    rfl

theorem roundedMantissa_bounds (em : ExtendedMantissa) :
    em.mantissa ≤ em.roundedMantissa ∧ em.roundedMantissa ≤ em.mantissa + 1 := by
  obtain ⟨m, r, s⟩ := em
  cases r <;> cases s <;>
    simp only [ExtendedMantissa.roundedMantissa, ExtendedMantissa.accuracy,
      Accuracy.roundToNearestEven] <;> omega

theorem log2_eq {m k : Nat} (hlo : 2 ^ k ≤ m) (hhi : m < 2 ^ (k + 1)) : m.log2 = k := by
  have hpos := Nat.two_pow_pos k
  exact (Nat.log2_eq_iff (by omega)).mpr ⟨hlo, hhi⟩

theorem targetExponent_eq (x : Int) :
    Format.binary64.targetExponent x = max (x - 53) Format.binary64.minExponent := rfl

/-- A shift to the target drops all bits but the first 53. -/
theorem shiftToTargetExponent_eq {m : Nat} {e : Int} (hm : 52 ≤ m.log2) (he : -1000 ≤ e) :
    (shiftToTargetExponent .binary64 m e .exact).1.mantissa = m / 2 ^ (m.log2 - 52) ∧
      (shiftToTargetExponent .binary64 m e .exact).2 = e + (m.log2 - 52 : Nat) := by
  have hk : (Format.binary64.targetExponent (totalExponent m e) - e).toNat = m.log2 - 52 := by
    simp only [targetExponent_eq, totalExponent, Format.minExponent]
    omega
  unfold shiftToTargetExponent shiftToExponent
  simp only [hk, mantissa_shiftRight]
  exact ⟨rfl, trivial⟩

theorem div_two_pow_bounds {m : Nat} (hm : 52 ≤ m.log2) :
    2 ^ 52 ≤ m / 2 ^ (m.log2 - 52) ∧ m / 2 ^ (m.log2 - 52) < 2 ^ 53 := by
  have hpos : m ≠ 0 := by
    rintro rfl
    simp at hm
  obtain ⟨hlo, hhi⟩ := (Nat.log2_eq_iff hpos).mp rfl
  have hdrop := Nat.two_pow_pos (m.log2 - 52)
  have hfirst : 52 + (m.log2 - 52) = m.log2 := by omega
  have hlast : 53 + (m.log2 - 52) = m.log2 + 1 := by omega
  rw [Nat.le_div_iff_mul_le hdrop, Nat.div_lt_iff_lt_mul hdrop, ← Nat.pow_add, ← Nat.pow_add,
    hfirst, hlast]
  exact ⟨hlo, hhi⟩

theorem roundWithAccuracy_normal (s : Sign) {m : Nat} {e : Int} (hm : 52 ≤ m.log2)
    (hm' : m.log2 ≤ 63) (he : -1000 ≤ e) (he' : e ≤ 800) :
    Normal (roundWithAccuracy .binary64 s m e .exact) := by
  obtain ⟨hcut, hexp⟩ := shiftToTargetExponent_eq hm he
  have hbits := div_two_pow_bounds hm
  have hrounded := roundedMantissa_bounds (shiftToTargetExponent .binary64 m e .exact).1
  unfold roundWithAccuracy
  generalize shiftToTargetExponent .binary64 m e .exact = first at *
  obtain ⟨em, e₁⟩ := first
  dsimp only at *
  rw [← hcut] at hbits
  generalize em.roundedMantissa = r at *
  -- the rounded mantissa has 53 bits, or 54 if the rounding carried through all of them
  have hr : r.log2 = 52 ∧ r < 2 ^ 53 ∨ r.log2 = 53 ∧ r = 2 ^ 53 := by
    rcases Nat.lt_or_ge r (2 ^ 53) with hlt | hge
    · exact Or.inl ⟨log2_eq (by omega) hlt, hlt⟩
    · have hcarry : r = 2 ^ 53 := by omega
      exact Or.inr ⟨by rw [hcarry, Nat.log2_two_pow], hcarry⟩
  obtain ⟨hcut', hexp'⟩ := shiftToTargetExponent_eq (m := r) (e := e₁) (by omega) (by omega)
  have hbits' := div_two_pow_bounds (m := r) (by omega)
  rw [← hcut'] at hbits'
  generalize shiftToTargetExponent .binary64 r e₁ .exact = second at *
  obtain ⟨em', e₂⟩ := second
  dsimp only at *
  have hne : em'.mantissa ≠ 0 := by omega
  rw [dif_neg hne]
  exact ⟨s, _, _, _, rfl, hbits'.1, hbits'.2, by omega, by omega⟩

theorem ofNat_normal {n : Nat} (hn : n ≠ 0) (hlt : n < 2 ^ 64) : Normal (ofNat .binary64 n) := by
  have hlog : n.log2 < 64 := (Nat.log2_lt hn).mpr hlt
  have hgt : compare (n : Int) 0 = .gt := Int.compare_eq_gt.mpr (by omega)
  have hk : ((0 : Int) - Format.binary64.targetExponent (totalExponent n 0)).toNat =
      52 - n.log2 := by
    simp only [targetExponent_eq, totalExponent, Format.minExponent]
    omega
  have hshift : (n <<< (52 - n.log2)).log2 = n.log2 + (52 - n.log2) := by
    obtain ⟨hlo, hhi⟩ := (Nat.log2_eq_iff hn).mp rfl
    have hnext : n.log2 + (52 - n.log2) + 1 = n.log2 + 1 + (52 - n.log2) := by omega
    rw [Nat.shiftLeft_eq]
    refine log2_eq ?_ ?_
    · rw [Nat.pow_add]
      exact Nat.mul_le_mul_right _ hlo
    · rw [hnext, Nat.pow_add]
      exact Nat.mul_lt_mul_of_pos_right hhi (Nat.two_pow_pos _)
  unfold ofNat ofInt UnpackedFloat.normalize
  rw [hgt]
  dsimp only
  unfold UnpackedFloat.round
  simp only [decreaseExponent, Int.toNat_natCast, hk]
  exact roundWithAccuracy_normal _ (by omega) (by omega) (by omega) (by omega)

/-! ### Packing -/

theorem unpack_pack (u : UnpackedFloat) :
    (Float.Model.pack u).unpack =
      UnpackedFloat.unpack .binary64 (UnpackedFloat.pack .binary64 u) := rfl

theorem leading_bit_pos {n : Nat} (b : BitVec n) : 0 < (1#1 ++ b).toNat := by
  simp

theorem unpack_of_exponent {b : BitVec Format.binary64.numBits} (hones : unpackExponent b ≠ -1#_)
    (hzeros : unpackExponent b ≠ 0#_) :
    ∃ s m e, ∃ hm : 0 < m, UnpackedFloat.unpack .binary64 b = .finite s m e hm := by
  unfold UnpackedFloat.unpack
  dsimp only
  rw [if_neg hones, if_neg hzeros]
  exact ⟨_, _, _, leading_bit_pos _, rfl⟩

theorem pack_finite (s : Sign) {m : Nat} (e : Int) (hm : 0 < m) :
    UnpackedFloat.pack .binary64 (.finite s m e hm) =
      if 2048 ≤ (e + 1075).toNat + 1 then packedInfinity .binary64 s
      else if m.log2 + 1 = 53 then
        packComponents .binary64 s (BitVec.ofNat 11 (e + 1075).toNat) (BitVec.ofNat 52 m)
      else packComponents .binary64 s 0#11 (BitVec.ofNat 52 m) := by
  have hbias : e + 1075 = e + 1023 + 52 := by omega
  rw [hbias]
  rfl

theorem unpack_pack_normal {u : UnpackedFloat} (h : Normal u) :
    ∃ s m e, ∃ hm : 0 < m, (Float.Model.pack u).unpack = .finite s m e hm := by
  obtain ⟨s, m, e, hm, rfl, hlo, hhi, helo, hehi⟩ := h
  have hlog : m.log2 = 52 := log2_eq hlo hhi
  have hexponent : unpackExponent (UnpackedFloat.pack .binary64 (.finite s m e hm)) =
      BitVec.ofNat 11 (e + 1075).toNat := by
    rw [pack_finite, if_neg (by omega), if_pos (by omega)]
    exact unpackExponent_packComponents
  have hsmall : (BitVec.ofNat 11 (e + 1075).toNat).toNat = (e + 1075).toNat := by
    rw [BitVec.toNat_ofNat]
    omega
  rw [unpack_pack]
  apply unpack_of_exponent
  · rw [hexponent]
    intro heq
    have hnat := congrArg BitVec.toNat heq
    rw [hsmall] at hnat
    change (e + 1075).toNat = 2047 at hnat
    omega
  · rw [hexponent]
    intro heq
    have hnat := congrArg BitVec.toNat heq
    rw [hsmall] at hnat
    change (e + 1075).toNat = 0 at hnat
    omega

theorem components_of_unpack_nan {b : BitVec Format.binary64.numBits}
    (h : UnpackedFloat.unpack .binary64 b = .notANumber) :
    unpackExponent b = -1#_ ∧ unpackMantissa b ≠ 0#_ := by
  unfold UnpackedFloat.unpack at h
  dsimp only at h
  by_cases hones : unpackExponent b = -1#_
  · rw [if_pos hones] at h
    refine ⟨hones, fun hmantissa => ?_⟩
    rw [if_pos hmantissa] at h
    cases h
  · rw [if_neg hones] at h
    by_cases hzeros : unpackExponent b = 0#_
    · rw [if_pos hzeros] at h
      by_cases hmantissa : unpackMantissa b = 0#_
      · rw [dif_pos hmantissa] at h
        cases h
      · rw [dif_neg hmantissa] at h
        cases h
    · rw [if_neg hzeros] at h
      cases h

theorem unpack_pack_ne_nan {u : UnpackedFloat} (h : u ≠ .notANumber) :
    (Float.Model.pack u).unpack ≠ .notANumber := by
  rw [unpack_pack]
  intro hnan
  obtain ⟨hexp, hman⟩ := components_of_unpack_nan hnan
  cases u with
  | notANumber => exact h rfl
  | infinity s => exact hman unpackMantissa_packComponents
  | zero s => exact hman unpackMantissa_packComponents
  | finite s m e hm =>
    rw [pack_finite] at hexp hman
    split at hexp
    · rename_i hinf
      rw [if_pos hinf] at hman
      exact hman unpackMantissa_packComponents
    · rename_i hfinite
      split at hexp
      · rw [unpackExponent_packComponents] at hexp
        have hnat := congrArg BitVec.toNat hexp
        rw [BitVec.toNat_ofNat] at hnat
        change _ % 2048 = 2047 at hnat
        omega
      · rw [unpackExponent_packComponents] at hexp
        revert hexp
        decide

/-! ### Dividing -/

theorem roundWithAccuracy_ne_nan (s : Sign) (m : Nat) (e : Int) (a : Accuracy) :
    roundWithAccuracy .binary64 s m e a ≠ .notANumber := by
  unfold roundWithAccuracy
  dsimp only
  rw [Ne, dite_eq_iff]
  rintro (⟨_, hzero⟩ | ⟨_, hfinite⟩)
  · cases hzero
  · cases hfinite

theorem div_ne_nan {u v : UnpackedFloat} (hu : u ≠ .notANumber)
    (hv : ∃ s m e, ∃ hm : 0 < m, v = .finite s m e hm) :
    UnpackedFloat.div .binary64 u v ≠ .notANumber := by
  obtain ⟨s, m, e, hm, rfl⟩ := hv
  cases u with
  | notANumber => exact absurd rfl hu
  | infinity s' => exact fun h => UnpackedFloat.noConfusion h
  | zero s' => exact fun h => UnpackedFloat.noConfusion h
  | finite s' m' e' hm' => exact roundWithAccuracy_ne_nan _ _ _ _

theorem isNaN_eq_false {u : UnpackedFloat} (h : u ≠ .notANumber) : u.isNaN = false := by
  cases u with
  | notANumber => exact absurd rfl h
  | infinity s => rfl
  | zero s => rfl
  | finite s m e hm => rfl

theorem toFloat_div_not_nan (x : UInt64) {y : UInt64} (hy : y ≠ 0) :
    (x.toFloat / y.toFloat).isNaN = false := by
  have hy' : y.toNat ≠ 0 := fun h => hy (UInt64.toNat_inj.mp h)
  have hdivisor := unpack_pack_normal (ofNat_normal hy' y.toNat_lt)
  have hdividend : (Float.Model.pack (ofNat .binary64 x.toNat)).unpack ≠ .notANumber := by
    apply unpack_pack_ne_nan
    by_cases hx : x.toNat = 0
    · rw [hx]
      simp [ofNat, ofInt, UnpackedFloat.normalize]
    · obtain ⟨s, m, e, h, heq, -⟩ := ofNat_normal hx x.toNat_lt
      rw [heq]
      exact fun h => UnpackedFloat.noConfusion h
  exact isNaN_eq_false (unpack_pack_ne_nan (div_ne_nan hdividend hdivisor))

end PipelineRunner.Progress

namespace PipelineRunner

theorem RunState.progress_not_nan {s : RunState} (h : s.totalSteps < Word.size64) :
    s.progress.isNaN = false := by
  unfold RunState.progress
  split
  · decide
  · rename_i htotal
    apply Progress.toFloat_div_not_nan
    intro hzero
    have hnat := congrArg UInt64.toNat hzero
    rw [UInt64.toNat_ofNat_of_lt' h] at hnat
    exact htotal hnat

end PipelineRunner
