import Mathlib.Algebra.Order.Field.Power
import Mathlib.Data.Int.ConditionallyCompleteOrder
import Mathlib.Data.Int.Log
import Mathlib.Data.Rat.Floor
import Mathlib.Tactic.Linarith
import Mathlib.Tactic.Positivity

namespace FfmpegPlayer.Binary64

def nearestEven (x : ℚ) : ℤ :=
  if 2 * Int.fract x < 1 ∨ 2 * Int.fract x = 1 ∧ Even ⌊x⌋ then ⌊x⌋ else ⌊x⌋ + 1

theorem floor_le_nearestEven (x : ℚ) : ⌊x⌋ ≤ nearestEven x := by
  unfold nearestEven
  split <;> omega

theorem nearestEven_le (x : ℚ) : nearestEven x ≤ ⌊x⌋ + 1 := by
  unfold nearestEven
  split <;> omega

theorem nearestEven_intCast (n : ℤ) : nearestEven n = n := by
  simp [nearestEven]

theorem nearestEven_mono : Monotone nearestEven := by
  intro x y hxy
  rcases (Int.floor_le_floor hxy).lt_or_eq with hlt | heq
  · calc nearestEven x ≤ ⌊x⌋ + 1 := nearestEven_le x
      _ ≤ ⌊y⌋ := hlt
      _ ≤ nearestEven y := floor_le_nearestEven y
  · have hfract : Int.fract x ≤ Int.fract y := by
      rw [Int.fract, Int.fract, heq]
      exact sub_le_sub_right hxy _
    have htwice : 2 * Int.fract x ≤ 2 * Int.fract y := mul_le_mul_of_nonneg_left hfract zero_le_two
    unfold nearestEven
    rw [heq]
    split
    · split <;> omega
    next hx =>
      rw [if_neg]
      rintro (hy | ⟨hy, he⟩)
      · exact hx (.inl (htwice.trans_lt hy))
      · rcases htwice.lt_or_eq with hlt | hsame
        · exact hx (.inl (hlt.trans_eq hy))
        · exact hx (.inr ⟨hsame.trans hy, he⟩)

def lastBit (x : ℚ) : ℤ := max (Int.log 2 x - 52) (-1074)

/-- Round to the nearest multiple of the last bit. Overflow is left out. -/
def roundPos (x : ℚ) : ℚ := nearestEven (x / 2 ^ lastBit x) * 2 ^ lastBit x

/-- What storing a rational in a double makes of it. -/
def round (x : ℚ) : ℚ := if 0 ≤ x then roundPos x else -roundPos (-x)

theorem roundPos_nonneg {x : ℚ} (hx : 0 ≤ x) : 0 ≤ roundPos x := by
  have hfloor : 0 ≤ ⌊x / 2 ^ lastBit x⌋ := Int.floor_nonneg.mpr (by positivity)
  have hn : (0 : ℚ) ≤ nearestEven (x / 2 ^ lastBit x) := by
    exact_mod_cast hfloor.trans (floor_le_nearestEven _)
  exact mul_nonneg hn (by positivity)

theorem zpow_eq_mul {b e : ℤ} (h : b ≤ e) : ∃ n : ℤ, (2 : ℚ) ^ e = n * 2 ^ b := by
  obtain ⟨k, rfl⟩ := Int.le.dest h
  refine ⟨2 ^ k, ?_⟩
  rw [add_comm, zpow_add₀ two_ne_zero]
  simp

theorem roundPos_le_mul {x : ℚ} {n : ℤ} (h : x ≤ n * 2 ^ lastBit x) :
    roundPos x ≤ n * 2 ^ lastBit x := by
  have hle : nearestEven (x / 2 ^ lastBit x) ≤ nearestEven n :=
    nearestEven_mono ((div_le_iff₀ (by positivity)).mpr h)
  rw [nearestEven_intCast] at hle
  exact mul_le_mul_of_nonneg_right (by exact_mod_cast hle) (by positivity)

theorem mul_le_roundPos {x : ℚ} {n : ℤ} (h : n * 2 ^ lastBit x ≤ x) :
    n * 2 ^ lastBit x ≤ roundPos x := by
  have hle : nearestEven n ≤ nearestEven (x / 2 ^ lastBit x) :=
    nearestEven_mono ((le_div_iff₀ (by positivity)).mpr h)
  rw [nearestEven_intCast] at hle
  exact mul_le_mul_of_nonneg_right (by exact_mod_cast hle) (by positivity)

theorem roundPos_mono {x y : ℚ} (hx : 0 < x) (hxy : x ≤ y) : roundPos x ≤ roundPos y := by
  have hy := hx.trans_le hxy
  have hlog : Int.log 2 x ≤ Int.log 2 y := Int.log_mono_right hx hxy
  by_cases hbit : lastBit x = lastBit y
  · have hle := nearestEven_mono (div_le_div_of_nonneg_right hxy
      (by positivity : (0 : ℚ) ≤ 2 ^ lastBit y))
    rw [roundPos, roundPos, hbit]
    exact mul_le_mul_of_nonneg_right (by exact_mod_cast hle) (by positivity)
  · -- a power of two lies between the two, and both are rounded on their own side of it
    have hxe : Int.log 2 x + 1 ≤ Int.log 2 y := by
      simp only [lastBit] at hbit
      omega
    have hbits : lastBit x ≤ Int.log 2 y ∧ lastBit y ≤ Int.log 2 y := by
      simp only [lastBit] at hbit ⊢
      omega
    obtain ⟨m, hm⟩ := zpow_eq_mul hbits.1
    obtain ⟨n, hn⟩ := zpow_eq_mul hbits.2
    have hbelow : x ≤ 2 ^ Int.log 2 y :=
      (Int.lt_zpow_succ_log_self (by decide) x).le.trans (zpow_le_zpow_right₀ (by norm_num) hxe)
    have habove : (2 : ℚ) ^ Int.log 2 y ≤ y := Int.zpow_log_le_self (by decide) hy
    calc roundPos x ≤ 2 ^ Int.log 2 y := by
          rw [hm] at hbelow ⊢
          exact roundPos_le_mul hbelow
      _ ≤ roundPos y := by
          rw [hn] at habove ⊢
          exact mul_le_roundPos habove

theorem roundPos_zero : roundPos 0 = 0 := by
  have h := nearestEven_intCast 0
  rw [Int.cast_zero] at h
  simp [roundPos, h]

theorem round_zero : round 0 = 0 := by
  rw [round, if_pos le_rfl, roundPos_zero]

theorem round_mono : Monotone round := by
  have hnonneg : ∀ {x y : ℚ}, 0 ≤ x → x ≤ y → roundPos x ≤ roundPos y := by
    intro x y hx hxy
    rcases hx.eq_or_lt with rfl | hpos
    · rw [roundPos_zero]
      exact roundPos_nonneg hxy
    · exact roundPos_mono hpos hxy
  intro x y hxy
  unfold round
  split
  next hx => rw [if_pos (hx.trans hxy)]; exact hnonneg hx hxy
  next hx =>
    split
    next hy =>
      have hneg := roundPos_nonneg (x := -x) (by linarith)
      have hpos := roundPos_nonneg hy
      linarith
    next hy =>
      have hle := hnonneg (x := -y) (y := -x) (by linarith) (by linarith)
      linarith

end FfmpegPlayer.Binary64
