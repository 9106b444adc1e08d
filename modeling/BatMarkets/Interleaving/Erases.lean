import BatMarkets.Interleaving.Prog

/-!
# Programs with notes

A program may return more than another one and make the same calls otherwise: `Erases f y x` says
that `x` is `y` with its values mapped by `f`.  What the runs of `y` return then says something
about the runs of `x` that their values do not show.
-/

namespace Interleaving

namespace Prog

variable {Q : Type} {R : Q → Type} {α β ε : Type} {τ τ' : List (Event Q R)}

/-- A run of a program whose value is mapped is a run of the program. -/
theorem Ends.of_map {t : Prog Q R α} {f : α → β} {b : β} (h : (f <$> t).Ends τ τ' b) :
    ∃ a, t.Ends τ τ' a ∧ f a = b := by
  induction t generalizing τ with
  | ret a =>
    cases h
    exact ⟨a, .ret a _, rfl⟩
  | call q k ih =>
    obtain ⟨r, hr⟩ := ends_call.1 h
    obtain ⟨a, ha, hf⟩ := ih r hr
    exact ⟨a, .call ha, hf⟩

/-- `y` makes the calls of `x`, and returns more. -/
def Erases (f : β → α) (y : ExceptT ε (Prog Q R) β) (x : ExceptT ε (Prog Q R) α) : Prop :=
  x = f <$> y

theorem erases_pure (f : β → α) (b : β) :
    Erases f (pure b : ExceptT ε (Prog Q R) β) (pure (f b)) := (map_pure f b).symm

theorem erases_refl (x : ExceptT ε (Prog Q R) α) : Erases id x x := (id_map x).symm

theorem Erases.bind {f : β → α} {α' β' : Type} {g : β' → α'}
    {y : ExceptT ε (Prog Q R) β} {x : ExceptT ε (Prog Q R) α}
    {k' : β → ExceptT ε (Prog Q R) β'} {k : α → ExceptT ε (Prog Q R) α'} (hx : Erases f y x)
    (hk : ∀ b, Erases g (k' b) (k (f b))) : Erases g (y >>= k') (x >>= k) := by
  unfold Erases at *
  rw [hx, map_bind, bind_map_left]
  exact bind_congr hk

theorem erases_ite {p : Prop} [Decidable p] {f : β → α} {y y' : ExceptT ε (Prog Q R) β}
    {x x' : ExceptT ε (Prog Q R) α} (h : p → Erases f y x) (h' : ¬ p → Erases f y' x') :
    Erases f (if p then y else y') (if p then x else x') := by
  by_cases hp : p
  · rw [if_pos hp, if_pos hp]
    exact h hp
  · rw [if_neg hp, if_neg hp]
    exact h' hp

/-- A run of a program is a run of the one that returns more. -/
theorem Erases.ends {f : β → α} {y : ExceptT ε (Prog Q R) β} {x : ExceptT ε (Prog Q R) α}
    (h : Erases f y x) {a : α} (hx : x.run.Ends τ τ' (.ok a)) :
    ∃ b, y.run.Ends τ τ' (.ok b) ∧ f b = a := by
  rw [h, ExceptT.run_map] at hx
  obtain ⟨r, hr, hf⟩ := hx.of_map
  cases r with
  | error e => cases hf
  | ok b => exact ⟨b, hr, Except.ok.inj hf⟩

end Prog

end Interleaving
