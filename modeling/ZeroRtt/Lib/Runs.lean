import Mathlib.Data.List.Basic

namespace ZeroRtt.Lib.Runs

variable {σ ι ε : Type} {step : σ → ι → Except ε σ} {ok : σ → ι → Prop} {s t u : σ}

/-- A run of a machine whose steps may fail: every step taken is one that `ok`
allows in the state it is taken in, and none of them failed. -/
inductive Run (step : σ → ι → Except ε σ) (ok : σ → ι → Prop) : σ → σ → Prop
  | refl (s : σ) : Run step ok s s
  | tail {s t u : σ} {i : ι} : Run step ok s t → ok t i → step t i = .ok u → Run step ok s u

def Anything (_ : σ) (_ : ι) : Prop := True

theorem Run.one {i : ι} (hi : ok s i) (h : step s i = .ok t) : Run step ok s t :=
  .tail (.refl s) hi h

theorem Run.trans (h : Run step ok s t) (h' : Run step ok t u) : Run step ok s u := by
  induction h' with
  | refl => exact h
  | tail _ hi hs ih => exact .tail ih hi hs

theorem Run.mono {ok' : σ → ι → Prop} (h : Run step ok s t) (hok : ∀ a i, ok a i → ok' a i) :
    Run step ok' s t := by
  induction h with
  | refl => exact .refl _
  | tail _ hi hs ih => exact .tail ih (hok _ _ hi) hs

theorem Run.invariant {P : σ → Prop} (h : Run step ok s t) (hs : P s)
    (hstep : ∀ a b i, P a → ok a i → step a i = .ok b → P b) : P t := by
  induction h with
  | refl => exact hs
  | tail _ hi he ih => exact hstep _ _ _ ih hi he

/-- Whatever a state at the end of a run has goes back to something that the state at its start
had, or that one of its steps brought in. -/
theorem Run.origin {α : Type} {P : σ → α → Prop} {B : σ → ι → α → Prop} {R : α → α → Prop}
    (hrefl : ∀ x, R x x) (htrans : ∀ x y z, R x y → R y z → R x z) (h : Run step ok s t)
    (hstep : ∀ a b i x, Run step ok s a → ok a i → step a i = .ok b → P b x →
      (∃ y, P a y ∧ R y x) ∨ ∃ y, B a i y ∧ R y x)
    {x : α} (hx : P t x) :
    (∃ y, P s y ∧ R y x) ∨ ∃ a b i y, Run step ok s a ∧ ok a i ∧ step a i = .ok b ∧
      Run step ok b t ∧ B a i y ∧ R y x := by
  induction h generalizing x with
  | refl => exact .inl ⟨x, hx, hrefl x⟩
  | @tail t u i hrun hi he ih =>
    rcases hstep t u i x hrun hi he hx with ⟨y, hy, hyx⟩ | ⟨y, hy, hyx⟩
    · rcases ih hy with ⟨z, hz, hzy⟩ | ⟨a, b, j, z, ha, hj, hab, hb, hz, hzy⟩
      · exact .inl ⟨z, hz, htrans z y x hzy hyx⟩
      · exact .inr ⟨a, b, j, z, ha, hj, hab, hb.tail hi he, hz, htrans z y x hzy hyx⟩
    · exact .inr ⟨t, u, i, y, hrun, hi, he, .refl u, hy, hyx⟩

end ZeroRtt.Lib.Runs
