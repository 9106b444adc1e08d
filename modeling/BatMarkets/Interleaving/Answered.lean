import BatMarkets.Interleaving.Join

/-!
# Programs some of whose replies are known

The reply to some calls is known beforehand, like that of a lookup in a table that nobody changes
while the program runs.  `answered known t` is the program `t` in such an environment: it does not
make these calls, and goes on with the known reply.

## Main results

* `answered_attempt` : a sequence of steps is answered step by step.
* `Yields.answered` : the program makes no calls beyond those it makes otherwise.
-/

namespace Interleaving

namespace Prog

variable {Q : Type} {R : Q → Type} {α β ε : Type} (known : (q : Q) → Option (R q))

/-- The program, with the known replies put in. -/
def answered : Prog Q R α → Prog Q R α
  | .ret a => .ret a
  | .call q k =>
    match known q with
    | some r => answered (k r)
    | none => .call q fun r => answered (k r)

variable {known}

@[simp] theorem answered_ret (a : α) : answered known (.ret a : Prog Q R α) = .ret a := rfl

theorem answered_call_of_some {q : Q} {r : R q} (h : known q = some r) (k : R q → Prog Q R α) :
    answered known (.call q k) = answered known (k r) := by
  rw [answered, h]

theorem answered_call_of_none {q : Q} (h : known q = none) (k : R q → Prog Q R α) :
    answered known (.call q k) = .call q fun r => answered known (k r) := by
  rw [answered, h]

theorem answered_bind (t : Prog Q R α) (f : α → Prog Q R β) :
    answered known (t >>= f) = answered known t >>= fun a => answered known (f a) := by
  induction t with
  | ret a => rfl
  | call q k ih =>
    rw [call_bind]
    cases h : known q with
    | some r => rw [answered_call_of_some h, answered_call_of_some h, ih]
    | none =>
      rw [answered_call_of_none h, answered_call_of_none h, call_bind]
      simp only [ih]

variable (known) in
/-- A program that may fail, with the known replies put in. -/
def answeredE (x : ExceptT ε (Prog Q R) α) : ExceptT ε (Prog Q R) α :=
  ExceptT.mk (answered known x.run)

theorem answered_attempt (x : ExceptT ε (Prog Q R) α) (f : α → ExceptT ε (Prog Q R) β) :
    answeredE known (x >>= f) = answeredE known x >>= fun a => answeredE known (f a) := by
  refine ExceptT.ext ?_
  show answered known (x >>= f).run = _
  rw [ExceptT.run_bind, ExceptT.run_bind, answered_bind]
  show _ = answered known x.run >>= _
  congr 1
  funext r
  cases r with
  | ok a => rfl
  | error e => rfl

@[simp] theorem answered_pure (a : α) :
    answeredE known (pure a : ExceptT ε (Prog Q R) α) = pure a := rfl

/-- A program whose calls do not depend on what came before makes no other calls, and yields what it
yields otherwise. -/
theorem Yields.answered {K : Q → Prop} {P : α → Prop} {x : ExceptT ε (Prog Q R) α}
    (h : Yields (fun _ q => K q) P x) : Yields (fun _ q => K q) P (answeredE known x) := by
  have key : ∀ {t : Prog Q R (Except ε α)} {τ : List (Event Q R)},
      t.Spec (fun _ q => K q) (fun _ r => ∀ a, r = .ok a → P a) τ → ∀ τ',
        (Prog.answered known t).Spec (fun _ q => K q) (fun _ r => ∀ a, r = .ok a → P a) τ' := by
    intro t
    induction t with
    | ret r => exact fun hr _ => hr
    | call q k ih =>
      intro τ hspec τ'
      cases hq : known q with
      | some r =>
        rw [answered_call_of_some hq]
        exact ih r (hspec.2 r) τ'
      | none =>
        rw [answered_call_of_none hq]
        exact ⟨hspec.1, fun r => ih r (hspec.2 r) _⟩
  exact fun τ => key (h τ) τ

end Prog

end Interleaving
