import Mathlib.Data.List.Induction
import Mathlib.Data.List.Perm.Basic
import Mathlib.Tactic.Common

namespace FfmpegPlayer.Pick

variable {α : Type*} (score : α → Int)

/-- The best so far is kept with its score; of two that are equally good neither is. -/
def pick (c : Option α × Int) (a : α) : Option α × Int :=
  if c.2 < score a then (some a, score a) else if score a = c.2 then (none, c.2) else c

structure Picked (least : Int) (as : List α) (c : Option α × Int) : Prop where
  least_le : least ≤ c.2
  le : ∀ a ∈ as, score a ≤ c.2
  reached : least < c.2 → as.filter (score · = c.2) ≠ []
  some_iff : ∀ a, c.1 = some a ↔ least < c.2 ∧ as.filter (score · = c.2) = [a]

variable {score} {least : Int} {as : List α} {c : Option α × Int}

theorem picked_nil (least : Int) : Picked score least [] (none, least) where
  least_le := Int.le_refl least
  le := fun a ha => by cases ha
  reached := fun h => absurd h (Int.lt_irrefl least)
  some_iff := fun a => by simp

theorem Picked.pick (h : Picked score least as c) (a : α) : Picked score least (as ++ [a]) (pick score c a) := by
  rw [Pick.pick]
  by_cases hlt : c.2 < score a
  · rw [if_pos hlt]
    have hnew : (as ++ [a]).filter (score · = score a) = [a] := by
      have hnone : as.filter (score · = score a) = [] := by
        rw [List.filter_eq_nil_iff]
        intro b hb
        have hle := h.le b hb
        simp only [decide_eq_true_eq]
        omega
      rw [List.filter_append, hnone]
      simp
    have hleast := h.least_le
    refine ⟨by show least ≤ score a; omega, ?_, fun _ => by rw [hnew]; exact List.cons_ne_nil a [], ?_⟩
    · intro b hb
      rcases List.mem_append.mp hb with hb | hb
      · exact Int.le_of_lt (Int.lt_of_le_of_lt (h.le b hb) hlt)
      · exact Int.le_of_eq (congrArg score (List.mem_singleton.mp hb))
    · intro b
      rw [hnew]
      have hpos : least < score a := Int.lt_of_le_of_lt hleast hlt
      simp [hpos]
  · rw [if_neg hlt]
    have hle : ∀ b ∈ as ++ [a], score b ≤ c.2 := by
      intro b hb
      rcases List.mem_append.mp hb with hb | hb
      · exact h.le b hb
      · rw [List.mem_singleton.mp hb]
        exact Int.not_lt.mp hlt
    by_cases heq : score a = c.2
    · rw [if_pos heq]
      have hboth : (as ++ [a]).filter (score · = c.2) = as.filter (score · = c.2) ++ [a] := by
        rw [List.filter_append]
        simp [heq]
      refine ⟨h.least_le, hle, fun _ => by rw [hboth]; simp, fun b => ?_⟩
      -- there was one with this score before
      rw [hboth]
      constructor
      · intro hb
        cases hb
      · rintro ⟨hpos, hone⟩
        have hlen := congrArg List.length hone
        have hsome := List.length_pos_of_ne_nil (h.reached hpos)
        rw [List.length_append, List.length_singleton, List.length_singleton] at hlen
        omega
    · rw [if_neg heq]
      have hsame : (as ++ [a]).filter (score · = c.2) = as.filter (score · = c.2) := by
        rw [List.filter_append]
        simp [heq]
      exact ⟨h.least_le, hle, by rw [hsame]; exact h.reached, by rw [hsame]; exact h.some_iff⟩

theorem picked_foldl (score : α → Int) (as : List α) (least : Int) :
    Picked score least as (as.foldl (Pick.pick score) (none, least)) := by
  induction as using List.reverseRecOn with
  | nil => exact picked_nil least
  | append_singleton as a ih =>
      rw [List.foldl_append]
      exact ih.pick a

theorem Picked.eq_of_perm {as' : List α} {c' : Option α × Int} (hp : as.Perm as') (h : Picked score least as c)
    (h' : Picked score least as' c') : c = c' := by
  have hle : ∀ {as as' : List α} {c c' : Option α × Int}, as.Perm as' → Picked score least as c →
      Picked score least as' c' → c.2 ≤ c'.2 := by
    intro as as' c c' hp h h'
    rcases Int.lt_or_le least c.2 with hpos | hno
    · obtain ⟨a, ha⟩ := List.exists_mem_of_ne_nil _ (h.reached hpos)
      obtain ⟨hmem, hscore⟩ := List.mem_filter.mp ha
      rw [← of_decide_eq_true hscore]
      exact h'.le a (hp.mem_iff.mp hmem)
    · exact Int.le_trans hno h'.least_le
  have hscore : c.2 = c'.2 := Int.le_antisymm (hle hp h h') (hle hp.symm h' h)
  refine Prod.ext (Option.ext fun a => ?_) hscore
  rw [h.some_iff, h'.some_iff, hscore]
  have hperm := hp.filter (score · = c'.2)
  constructor
  · rintro ⟨hpos, hone⟩
    rw [hone] at hperm
    exact ⟨hpos, (List.singleton_perm.mp hperm).symm⟩
  · rintro ⟨hpos, hone⟩
    rw [hone] at hperm
    exact ⟨hpos, List.perm_singleton.mp hperm⟩

end FfmpegPlayer.Pick
