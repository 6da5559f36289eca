import Mathlib.Data.List.Basic

namespace FfmpegPlayer.Acquisition

variable {ρ ε α β : Type}

inductive Use (ρ : Type)
  | acquire (r : ρ)
  | release (r : ρ)
deriving DecidableEq

abbrev Prog (ρ ε α : Type) := ExceptT ε (StateM (List (Use ρ))) α

def acquire (r : ρ) : Prog ρ ε Unit := modify (fun us => us ++ [.acquire r])

def giveUp (e : ε) : List ρ → Prog ρ ε Unit
  | [] => throw e
  | r :: rs => do
      modify (fun us => us ++ [.release r])
      giveUp e rs

def giveUpIf (failed : Prop) [Decidable failed] (e : ε) (rs : List ρ) : Prog ρ ε Unit :=
  if failed then giveUp e rs else pure ()

def require (ok : Bool) (e : ε) : Prog ρ ε Unit := if ok then pure () else throw e

section Held

variable [DecidableEq ρ]

def use (rs : List ρ) : Use ρ → Option (List ρ)
  | .acquire r => if r ∈ rs then none else some (r :: rs)
  | .release r => if r ∈ rs then some (rs.erase r) else none

def held (us : List (Use ρ)) : Option (List ρ) := us.foldlM use []

theorem held_snoc {us : List (Use ρ)} {rs : List ρ} (h : held us = some rs) (u : Use ρ) :
    held (us ++ [u]) = use rs u := by
  rw [held] at h
  rw [held, List.foldlM_append, h]
  cases hu : use rs u <;> simp [hu]

/-- From a record that leaves `rs` held, the program keeps a record that leaves
some resources held: with a result they meet `Q`, at an early stop `E`. -/
def Ensures (rs : List ρ) (x : Prog ρ ε α) (Q : α → List ρ → Prop) (E : ε → List ρ → Prop) : Prop :=
  ∀ us, held us = some rs → ∃ rs', held (x.run us).2 = some rs' ∧
    match (x.run us).1 with
    | .ok a => Q a rs'
    | .error e => E e rs'

variable {rs : List ρ} {Q : α → List ρ → Prop} {E : ε → List ρ → Prop}

theorem Ensures.pure {a : α} (h : Q a rs) : Ensures rs (pure a : Prog ρ ε α) Q E :=
  fun _ hus => ⟨rs, hus, h⟩

theorem Ensures.throw {e : ε} (h : E e rs) : Ensures rs (throw e : Prog ρ ε α) Q E :=
  fun _ hus => ⟨rs, hus, h⟩

theorem Ensures.mono {Q' : α → List ρ → Prop} {E' : ε → List ρ → Prop} {x : Prog ρ ε α}
    (hx : Ensures rs x Q E) (hQ : ∀ a rs', Q a rs' → Q' a rs') (hE : ∀ e rs', E e rs' → E' e rs') :
    Ensures rs x Q' E' := by
  intro us hus
  obtain ⟨rs', hrs', hres⟩ := hx us hus
  refine ⟨rs', hrs', ?_⟩
  split
  next a ha => rw [ha] at hres; exact hQ a rs' hres
  next e he => rw [he] at hres; exact hE e rs' hres

theorem Ensures.bind {R : β → List ρ → Prop} {x : Prog ρ ε β} {f : β → Prog ρ ε α}
    (hx : Ensures rs x R E) (hf : ∀ b rs', R b rs' → Ensures rs' (f b) Q E) :
    Ensures rs (x >>= f) Q E := by
  intro us hus
  obtain ⟨rs', hrs', hres⟩ := hx us hus
  have hrun : (x >>= f).run us = match x.run us with
      | (.ok b, vs) => (f b).run vs
      | (.error e, vs) => (.error e, vs) := by
    show (match x.run us with
      | (r, vs) => ExceptT.bindCont f r vs) = _
    rcases x.run us with ⟨_ | _, vs⟩ <;> rfl
  rw [hrun]
  rcases hr : x.run us with ⟨e | b, vs⟩
  · rw [hr] at hrs' hres
    exact ⟨rs', hrs', hres⟩
  · rw [hr] at hrs' hres
    exact hf b rs' hres vs hrs'

theorem Ensures.giveUp {R : Unit → List ρ → Prop} {e : ε} (h : E e []) :
    Ensures rs (giveUp e rs) R E := by
  induction rs with
  | nil => exact .throw h
  | cons r rs ih =>
      intro us hus
      have hheld := held_snoc hus (.release r)
      rw [use, if_pos (by simp), List.erase_cons_head] at hheld
      exact ih _ hheld

theorem Ensures.acquire {R : Unit → List ρ → Prop} {r : ρ} (hr : r ∉ rs) (h : R () (r :: rs)) :
    Ensures rs (acquire r) R E := by
  intro us hus
  have hheld := held_snoc hus (.acquire r)
  rw [use, if_neg hr] at hheld
  exact ⟨r :: rs, hheld, h⟩

theorem Ensures.acquire_bind {f : Unit → Prog ρ ε α} {r : ρ} (hr : r ∉ rs)
    (hf : Ensures (r :: rs) (f ()) Q E) : Ensures rs (Acquisition.acquire r >>= f) Q E := by
  refine .bind (R := fun _ rs' => rs' = r :: rs) (.acquire hr rfl) (fun _ rs' h => ?_)
  rw [h]
  exact hf

theorem Ensures.giveUpIf_bind {failed : Prop} [Decidable failed] {f : Unit → Prog ρ ε α} {e : ε}
    (he : failed → E e []) (hf : ¬ failed → Ensures rs (f ()) Q E) :
    Ensures rs (giveUpIf failed e rs >>= f) Q E := by
  by_cases h : failed
  · rw [giveUpIf, if_pos h]
    exact .bind (R := fun _ _ => False) (.giveUp (he h)) (fun _ _ hfalse => hfalse.elim)
  · rw [giveUpIf, if_neg h]
    exact hf h

theorem Ensures.require_bind {ok : Bool} {f : Unit → Prog ρ ε α} {e : ε} (he : ok = false → E e rs)
    (hf : ok = true → Ensures rs (f ()) Q E) : Ensures rs (require ok e >>= f) Q E := by
  cases ok with
  | true => exact hf rfl
  | false => exact .bind (R := fun _ _ => False) (.throw (he rfl)) (fun _ _ hfalse => hfalse.elim)

end Held

end FfmpegPlayer.Acquisition
