/-
# Code in lockstep

Two computations on a state are in lockstep under a relation when, from related
states, they give the same value and leave related states. Lockstep goes
through sequences, through loops over lists and through code that may stop, so
it has to be shown for single instructions only. With a relation that is
equality and more, it says that code keeps an invariant.

Key definitions: `Lockstep`.
Key theorems: `Lockstep.bind`, `Lockstep.run_map`, `Lockstep.foldlM`,
`Lockstep.run_bind`.
-/

namespace SyscallGate

variable {σ : Type} (R : σ → σ → Prop) {ε α β : Type}

/-- The same value from related states, and related states after it. -/
def Lockstep (x y : StateM σ α) : Prop :=
  ∀ s t, R s t → (x.run s).1 = (y.run t).1 ∧ R (x.run s).2 (y.run t).2

variable {R}

namespace Lockstep

theorem pure (a : α) : Lockstep R (Pure.pure a) (Pure.pure a) := fun _ _ h => ⟨rfl, h⟩

/-- In a sequence, what follows may rely on where the value came from. -/
theorem bind_value {x y : StateM σ α} {f g : α → StateM σ β} (hx : Lockstep R x y)
    (hf : ∀ t, Lockstep R (f (y.run t).1) (g (y.run t).1)) : Lockstep R (x >>= f) (y >>= g) := by
  intro s t h
  obtain ⟨hvalue, hafter⟩ := hx s t h
  have hnext := hf t _ _ hafter
  change ((f (x.run s).1).run (x.run s).2).1 = ((g (y.run t).1).run (y.run t).2).1 ∧
    R ((f (x.run s).1).run (x.run s).2).2 ((g (y.run t).1).run (y.run t).2).2
  rw [hvalue]
  exact hnext

theorem bind {x y : StateM σ α} {f g : α → StateM σ β} (hx : Lockstep R x y)
    (hf : ∀ a, Lockstep R (f a) (g a)) : Lockstep R (x >>= f) (y >>= g) :=
  hx.bind_value fun _ => hf _

theorem map (f : α → β) {x y : StateM σ α} (h : Lockstep R x y) : Lockstep R (f <$> x) (f <$> y) :=
  h.bind fun a => pure (f a)

/-- Code that looks at the state may do so if what it does next is in lockstep. -/
theorem get_bind {f g : σ → StateM σ α}
    (h : ∀ s t, R s t → ((f s).run s).1 = ((g t).run t).1 ∧ R ((f s).run s).2 ((g t).run t).2) :
    Lockstep R (get >>= f) (get >>= g) := h

/-- Code in lockstep under a map of the states goes with it. -/
theorem run_map {next : σ → σ} {x y : StateM σ α} (h : Lockstep (fun s t => t = next s) x y) (s : σ) :
    y.run (next s) = ((x.run s).1, next (x.run s).2) := by
  obtain ⟨hvalue, hafter⟩ := h s _ rfl
  exact Prod.ext hvalue.symm hafter

theorem foldlM {f g : β → α → StateM σ β} (h : ∀ b a, Lockstep R (f b a) (g b a)) :
    ∀ (l : List α) (b : β), Lockstep R (l.foldlM f b) (l.foldlM g b)
  | [], b => pure b
  | a :: l, b => by
    rw [List.foldlM_cons, List.foldlM_cons]
    exact (h b a).bind (foldlM h l)

/-! ### Code that may stop -/

theorem run_lift {x y : StateM σ α} (h : Lockstep R x y) :
    Lockstep R (liftM x : ExceptT ε (StateM σ) α).run (liftM y : ExceptT ε (StateM σ) α).run :=
  h.map Except.ok

theorem run_bind {x y : ExceptT ε (StateM σ) α} {f g : α → ExceptT ε (StateM σ) β}
    (hx : Lockstep R x.run y.run) (hf : ∀ a, Lockstep R (f a).run (g a).run) :
    Lockstep R (x >>= f).run (y >>= g).run := by
  rw [ExceptT.run_bind, ExceptT.run_bind]
  refine hx.bind fun result => ?_
  cases result with
  | ok a => exact hf a
  | error stop => exact pure (Except.error stop)

theorem run_get_bind {f g : σ → ExceptT ε (StateM σ) α}
    (h : ∀ s t, R s t →
      ((f s).run.run s).1 = ((g t).run.run t).1 ∧ R ((f s).run.run s).2 ((g t).run.run t).2) :
    Lockstep R (get >>= f).run (get >>= g).run := h

end Lockstep
end SyscallGate
