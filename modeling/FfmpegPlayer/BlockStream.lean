import Mathlib.Algebra.BigOperators.Group.List.Basic
import Mathlib.Algebra.GroupWithZero.Nat

namespace FfmpegPlayer.BlockStream

variable {β γ : Type*}

def total (bs : List (β × Nat)) : Nat := (bs.map Prod.snd).sum

def locate : List (β × Nat) → Nat → Option (β × Nat)
  | [], _ => none
  | b :: bs, n => if n < b.2 then some (b.1, n) else locate bs (n - b.2)

@[simp] theorem total_nil : total ([] : List (β × Nat)) = 0 := rfl

@[simp] theorem total_cons (b : β × Nat) (bs : List (β × Nat)) : total (b :: bs) = b.2 + total bs := by
  simp [total]

@[simp] theorem total_append (bs cs : List (β × Nat)) : total (bs ++ cs) = total bs + total cs := by
  simp [total]

theorem locate_append (bs cs : List (β × Nat)) {n : Nat} (h : n < total bs) :
    locate (bs ++ cs) n = locate bs n := by
  induction bs generalizing n with
  | nil => simp at h
  | cons b bs ih =>
      simp only [List.cons_append, locate]
      by_cases hb : n < b.2
      · rw [if_pos hb, if_pos hb]
      · rw [if_neg hb, if_neg hb]
        apply ih
        simp only [total_cons] at h
        omega

theorem locate_of_lt (bs : List (β × Nat)) {n : Nat} (h : n < total bs) :
    ∃ pre b post, bs = pre ++ b :: post ∧ total pre ≤ n ∧ locate bs n = some (b.1, n - total pre) := by
  induction bs generalizing n with
  | nil => simp at h
  | cons b bs ih =>
      by_cases hb : n < b.2
      · exact ⟨[], b, bs, rfl, Nat.zero_le _, by simp [locate, hb]⟩
      · obtain ⟨pre, c, post, rfl, hle, hl⟩ := ih (n := n - b.2) (by simp only [total_cons] at h; omega)
        refine ⟨b :: pre, c, post, rfl, by simp only [total_cons]; omega, ?_⟩
        rw [locate, if_neg hb, hl, total_cons, Nat.sub_sub]

theorem total_filter (bs : List (β × Nat)) : total (bs.filter (fun b => 0 < b.2)) = total bs := by
  induction bs with
  | nil => rfl
  | cons b bs ih =>
      rw [List.filter_cons]
      split
      next => rw [total_cons, total_cons, ih]
      next hb => simp only [decide_eq_true_eq] at hb; rw [ih, total_cons]; omega

theorem locate_filter (bs : List (β × Nat)) (n : Nat) :
    locate (bs.filter (fun b => 0 < b.2)) n = locate bs n := by
  induction bs generalizing n with
  | nil => rfl
  | cons b bs ih =>
      rw [List.filter_cons]
      split
      next => simp only [locate, ih]
      next hb =>
        simp only [decide_eq_true_eq, Nat.not_lt, Nat.le_zero] at hb
        rw [ih, locate, hb]
        simp

end FfmpegPlayer.BlockStream
