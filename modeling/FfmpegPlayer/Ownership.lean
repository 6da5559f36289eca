import Mathlib.Data.Multiset.Range
import Mathlib.Data.Multiset.Count
import Mathlib.Data.Multiset.AddSub

namespace FfmpegPlayer.Ownership

/-- Allocation records: addresses below `allocated` have been handed out,
`owned` counts the places that hold each address, `freed` its releases. -/
structure Ledger where
  allocated : ℕ
  owned : Multiset ℕ
  freed : Multiset ℕ

inductive Ledger.Step : Ledger → Ledger → Prop
  | move (l) : Step l l
  | alloc (l) :
      Step l { l with allocated := l.allocated + 1, owned := l.allocated ::ₘ l.owned }
  | free (l a owned) (h : l.owned = a ::ₘ owned) :
      Step l { l with owned := owned, freed := a ::ₘ l.freed }

def Ledger.Balanced (l : Ledger) : Prop := l.owned + l.freed = Multiset.range l.allocated

theorem Ledger.Step.balanced {l m : Ledger} (h : Ledger.Step l m) (hl : l.Balanced) : m.Balanced := by
  unfold Ledger.Balanced at hl ⊢
  cases h with
  | move => exact hl
  | alloc => simp [Multiset.range_succ, hl]
  | free a owned h => rw [← hl, h]; simp

variable {l : Ledger} {a : ℕ}

theorem Ledger.Balanced.count (h : l.Balanced) (a : ℕ) :
    l.owned.count a + l.freed.count a = if a < l.allocated then 1 else 0 := by
  rw [← Multiset.count_add, h]
  by_cases ha : a < l.allocated
  · simp [ha, Multiset.count_eq_one_of_mem (Multiset.nodup_range _) (Multiset.mem_range.mpr ha)]
  · simp [ha]

/-- An allocated address has one owner and is live, or has none and was
released once. -/
theorem Ledger.Balanced.owned_or_freed (h : l.Balanced) (ha : a < l.allocated) :
    (l.owned.count a = 1 ∧ l.freed.count a = 0) ∨ (l.owned.count a = 0 ∧ l.freed.count a = 1) := by
  have := h.count a
  simp only [ha, if_true] at this
  omega

theorem Ledger.Balanced.owned_lt (h : l.Balanced) (ha : a ∈ l.owned) : a < l.allocated := by
  rw [← Multiset.mem_range, ← h]
  exact Multiset.mem_add.mpr (Or.inl ha)

theorem Ledger.Balanced.not_freed (h : l.Balanced) (ha : a ∈ l.owned) : a ∉ l.freed := by
  have hc := h.count a
  rw [if_pos (h.owned_lt ha)] at hc
  have hpos := Multiset.count_pos.mpr ha
  exact Multiset.count_eq_zero.mp (by omega)

theorem Ledger.Balanced.all_freed_iff (h : l.Balanced) :
    (∀ a < l.allocated, l.freed.count a = 1) ↔ l.owned = 0 := by
  constructor
  · intro hf
    refine Multiset.eq_zero_of_forall_notMem fun a ha => ?_
    have hlt := h.owned_lt ha
    have hc := h.count a
    have hpos := Multiset.count_pos.mpr ha
    rw [if_pos hlt, hf a hlt] at hc
    omega
  · intro ho a ha
    have hc := h.count a
    simpa [ho, ha] using hc

end FfmpegPlayer.Ownership
