import Mathlib.Tactic.Common
import Mathlib.Algebra.GroupWithZero.Nat
import Mathlib.Computability.StateTransition

namespace FfmpegPlayer.Transition

variable {σ α : Type*}

def run (step : σ → α → Option σ) : σ → List α → Option σ
  | s, [] => some s
  | s, a :: acts => (step s a).bind (fun s' => run step s' acts)

/-- Every action of the run meets the guard in the state it is taken from. -/
def Along (step : σ → α → Option σ) (G : σ → α → Prop) : σ → List α → Prop
  | _, [] => True
  | s, a :: acts => G s a ∧ ∀ s', step s a = some s' → Along step G s' acts

variable {step : σ → α → Option σ} {s t : σ} {acts : List α}

theorem run_cons {a : α} (h : run step s (a :: acts) = some t) :
    ∃ s', step s a = some s' ∧ run step s' acts = some t :=
  Option.bind_eq_some_iff.mp h

theorem run_append (s : σ) (acts more : List α) :
    run step s (acts ++ more) = (run step s acts).bind (fun t => run step t more) := by
  induction acts generalizing s with
  | nil => rfl
  | cons a acts ih => simp only [List.cons_append, run, ih, Option.bind_assoc]

theorem run_trans {u : σ} {more : List α} (h : run step s acts = some t)
    (hm : run step t more = some u) : run step s (acts ++ more) = some u := by
  rw [run_append, h, Option.bind_some, hm]

theorem run_snoc {a : α} (h : run step s (acts ++ [a]) = some t) :
    ∃ u, run step s acts = some u ∧ step u a = some t := by
  rw [run_append] at h
  obtain ⟨u, hu, ha⟩ := Option.bind_eq_some_iff.mp h
  obtain ⟨v, hv, hn⟩ := run_cons ha
  cases hn
  exact ⟨u, hu, hv⟩

theorem along_true (s : σ) (acts : List α) : Along step (fun _ _ => True) s acts := by
  induction acts generalizing s with
  | nil => trivial
  | cons a acts ih => exact ⟨trivial, fun s' _ => ih s'⟩

theorem along_of_forall (step : σ → α → Option σ) {A : α → Prop} (s : σ) (h : ∀ a ∈ acts, A a) :
    Along step (fun _ a => A a) s acts := by
  induction acts generalizing s with
  | nil => trivial
  | cons a acts ih =>
      exact ⟨h a (by simp), fun s' _ => ih s' (fun b hb => h b (by simp [hb]))⟩

theorem forall_of_along {A : α → Prop} (h : Along step (fun _ a => A a) s acts)
    (hr : run step s acts = some t) : ∀ a ∈ acts, A a := by
  induction acts generalizing s with
  | nil => simp
  | cons a acts ih =>
      obtain ⟨s', hs, hr'⟩ := run_cons hr
      intro b hb
      rcases List.mem_cons.mp hb with rfl | hb
      · exact h.1
      · exact ih (h.2 s' hs) hr' b hb

/-- A guard that follows from an invariant of the run is met all along it. -/
theorem along_of_invariant {I : σ → Prop} {H G : σ → α → Prop}
    (hI : ∀ s a s', I s → H s a → step s a = some s' → I s') (hG : ∀ s a, I s → H s a → G s a)
    (hH : Along step H s acts) (hs : I s) : Along step G s acts := by
  induction acts generalizing s with
  | nil => trivial
  | cons a acts ih =>
      exact ⟨hG s a hs hH.1, fun s' h => ih (hH.2 s' h) (hI s a s' hs hH.1 h)⟩

/-- The rule for runs whose every action meets a guard: what one guarded
action preserves, the run preserves. -/
theorem invariant_along {I : σ → Prop} {G : σ → α → Prop}
    (hstep : ∀ s a s', I s → G s a → step s a = some s' → I s')
    (hG : Along step G s acts) (hI : I s) (hr : run step s acts = some t) : I t := by
  induction acts generalizing s with
  | nil => cases hr; exact hI
  | cons a acts ih =>
      obtain ⟨s', hs, hr'⟩ := run_cons hr
      exact ih (hG.2 s' hs) (hstep s a s' hI hG.1 hs) hr'

theorem invariant {I : σ → Prop} (hstep : ∀ s a s', I s → step s a = some s' → I s')
    (hI : I s) (hr : run step s acts = some t) : I t :=
  invariant_along (G := fun _ _ => True) (fun s a s' hs _ h => hstep s a s' hs h)
    (along_true s acts) hI hr

/-- A run each of whose actions is at most one step of a deterministic machine
follows that machine. -/
theorem reaches_of_simulation {τ : Type*} {next : τ → Option τ} {abs : σ → τ} {I : σ → Prop}
    (hI : ∀ s a s', I s → step s a = some s' → I s')
    (hsim : ∀ s a s', I s → step s a = some s' → abs s' = abs s ∨ next (abs s) = some (abs s'))
    (hs : I s) (hr : run step s acts = some t) : StateTransition.Reaches next (abs s) (abs t) := by
  induction acts generalizing s with
  | nil => cases hr; exact .refl
  | cons a acts ih =>
      obtain ⟨s', hs', hr'⟩ := run_cons hr
      have hrest := ih (hI s a s' hs hs') hr'
      rcases hsim s a s' hs hs' with heq | hnext
      · rwa [heq] at hrest
      · exact .head hnext hrest

/-- A predicate that one action establishes exactly when it breaks the guard,
and that no action undoes, records whether the whole run met the guard. -/
theorem along_iff_of_recorded {I B : σ → Prop} {H G : σ → α → Prop}
    (hI : ∀ s a s', I s → H s a → step s a = some s' → I s')
    (hkeep : ∀ s a s', I s → H s a → step s a = some s' → B s → B s')
    (hnew : ∀ s a s', I s → H s a → step s a = some s' → ¬ B s → (B s' ↔ ¬ G s a))
    (hH : Along step H s acts) (hs : I s) (hB : ¬ B s) (hr : run step s acts = some t) :
    Along step G s acts ↔ ¬ B t := by
  induction acts generalizing s with
  | nil => cases hr; exact ⟨fun _ => hB, fun _ => trivial⟩
  | cons a acts ih =>
      obtain ⟨s', hs', hr'⟩ := run_cons hr
      have hI' := hI s a s' hs hH.1 hs'
      by_cases hg : G s a
      · have hB' : ¬ B s' := fun hb => (hnew s a s' hs hH.1 hs' hB).mp hb hg
        have hrest := ih (hH.2 s' hs') hI' hB' hr'
        constructor
        · intro h
          exact hrest.mp (h.2 s' hs')
        · intro ht
          refine ⟨hg, fun u hu => ?_⟩
          obtain rfl : s' = u := Option.some.inj (hs'.symm.trans hu)
          exact hrest.mpr ht
      · have hB' : B s' := (hnew s a s' hs hH.1 hs' hB).mpr hg
        have ht : I t ∧ B t := invariant_along (I := fun s => I s ∧ B s)
          (fun s a s' h hg hs => ⟨hI s a s' h.1 hg hs, hkeep s a s' h.1 hg hs h.2⟩)
          (hH.2 s' hs') ⟨hI', hB'⟩ hr'
        exact ⟨fun h => absurd h.1 hg, fun h => absurd ht.2 h⟩

/-- The same for a predicate to which every action adds exactly its guard. -/
theorem along_iff_of_added {I J : σ → Prop} {G : σ → α → Prop}
    (hI : ∀ s a s', I s → step s a = some s' → I s')
    (hadd : ∀ s a s', I s → step s a = some s' → (J s' ↔ J s ∧ G s a))
    (hs : I s) (hJ : J s) (hr : run step s acts = some t) : Along step G s acts ↔ J t := by
  have hrec := along_iff_of_recorded (H := fun _ _ => True) (B := fun s => ¬ J s)
    (fun s a s' hs _ h => hI s a s' hs h)
    (fun s a s' hs _ h hb hb' => hb ((hadd s a s' hs h).mp hb').1)
    (fun s a s' hs _ h hb => by
      rw [hadd s a s' hs h, and_iff_right (not_not.mp hb)])
    (along_true s acts) hs (not_not.mpr hJ) hr
  rwa [not_not] at hrec

/-- Each action pays for its cost with the rank, so the rank bounds what a run costs. -/
theorem cost_le_rank {I : σ → Prop} {rank : σ → Nat} {cost : α → Nat}
    (hI : ∀ s a s', I s → step s a = some s' → I s')
    (hpay : ∀ s a s', I s → step s a = some s' → cost a + rank s' ≤ rank s)
    (hs : I s) (hr : run step s acts = some t) : (acts.map cost).sum + rank t ≤ rank s := by
  induction acts generalizing s with
  | nil => cases hr; simp
  | cons a acts ih =>
      obtain ⟨s', hs', hr'⟩ := run_cons hr
      have hrest := ih (hI s a s' hs hs') hr'
      have hcost := hpay s a s' hs hs'
      simp only [List.map_cons, List.sum_cons]
      omega

/-- Where a state that is not at its goal has an allowed action that keeps the
invariant and lowers the rank, some run of allowed actions leads to the goal. -/
theorem exists_run_to {ρ : Type*} [Preorder ρ] [WellFoundedLT ρ] {I Goal : σ → Prop} {A : α → Prop} (rank : σ → ρ)
    (hgo : ∀ s, I s → ¬ Goal s → ∃ a s', A a ∧ step s a = some s' ∧ I s' ∧ rank s' < rank s) (hs : I s) :
    ∃ acts t, (∀ a ∈ acts, A a) ∧ run step s acts = some t ∧ Goal t := by
  induction hn : rank s using WellFoundedLT.induction generalizing s with
  | ind n ih =>
      by_cases hg : Goal s
      · exact ⟨[], s, by simp, rfl, hg⟩
      · obtain ⟨a, s', ha, hs', hI', hlt⟩ := hgo s hs hg
        obtain ⟨acts, t, hacts, ht, hgt⟩ := ih _ (hn ▸ hlt) hI' rfl
        refine ⟨a :: acts, t, fun b hb => ?_, by rw [run, hs', Option.bind_some, ht], hgt⟩
        rcases List.mem_cons.mp hb with rfl | hb
        · exact ha
        · exact hacts b hb

def given {β : Type*} (step : σ → α → Option σ) (out : σ → α → List β) : σ → List α → List β
  | _, [] => []
  | s, a :: acts => out s a ++ (step s a).elim [] (fun s' => given step out s' acts)

section Reads

variable {σ τ α β γ : Type*}

def mapped (f : σ → α × σ) (h : α → β) (s : σ) : β × σ := (h (f s).1, (f s).2)

def both (f : σ → α × σ) (g : σ → β × σ) (h : α → β → γ) (s : σ) : γ × σ :=
  let a := f s
  let b := g a.2
  (h a.1 b.1, b.2)

def Follows (v : σ → τ) (I : σ → Prop) (f : σ → α × σ) (g : τ → α × τ) : Prop :=
  ∀ s, I s → (f s).1 = (g (v s)).1 ∧ v (f s).2 = (g (v s)).2 ∧ I (f s).2

variable {v : σ → τ} {I : σ → Prop} {f : σ → α × σ} {f' : τ → α × τ} {g : σ → β × σ} {g' : τ → β × τ}

theorem Follows.mapped (hf : Follows v I f f') (h : α → β) : Follows v I (mapped f h) (mapped f' h) := by
  intro s hs
  obtain ⟨hval, hview, hI⟩ := hf s hs
  exact ⟨congrArg h hval, hview, hI⟩

theorem Follows.both (hf : Follows v I f f') (hg : Follows v I g g') (h : α → β → γ) :
    Follows v I (both f g h) (both f' g' h) := by
  intro s hs
  obtain ⟨hval, hview, hI⟩ := hf s hs
  obtain ⟨hval', hview', hI'⟩ := hg _ hI
  simp only [Transition.both]
  rw [hval, hval', hview', hview]
  exact ⟨rfl, rfl, hI'⟩

end Reads

theorem exists_of_run_any (step : σ → α → Option σ) (s : σ) (acts : List α) (p : σ → Bool)
    (h : (run step s acts).any p = true) :
    ∃ t, run step s acts = some t ∧ p t = true := by
  cases hr : run step s acts with
  | none => simp [hr] at h
  | some t => exact ⟨t, rfl, by simpa [hr] using h⟩

end FfmpegPlayer.Transition
