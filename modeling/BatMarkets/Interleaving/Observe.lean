import BatMarkets.Interleaving.Join

/-!
# What a run shows

An observer sees some of the calls of a program with their replies: `obs` says what it notes of
each.  `Prog.Reports obs Φ t` says that in every complete run of `t` the notes and the value at the
end are related by `Φ`; the latest note comes first.

## Main results

* `Reports.of_ends` : what is reported of a program holds of its complete runs.
* `Reports.attempt`, `Reports.quiet_attempt` : the rules for a step that may fail, and for one that
  shows nothing.
* `Quietly.attempt`, `quietly_mapM` : the rules for a step that shows nothing and whose value is
  known.
-/

namespace Interleaving

namespace Prog

variable {Q : Type} {R : Q → Type} {α β ε O : Type} {obs : Event Q R → Option O}

/-- In every complete run of `t`, what is observed and the value are related by `Φ`. -/
def Reports (obs : Event Q R → Option O) (Φ : List O → α → Prop) (t : Prog Q R α) : Prop :=
  ∀ τ, t.Spec (fun _ _ => True)
    (fun τ' a => ∃ os, τ'.filterMap obs = os ++ τ.filterMap obs ∧ Φ os a) τ

theorem Reports.of_ends {Φ : List O → α → Prop} {t : Prog Q R α} (h : t.Reports obs Φ)
    {τ : List (Event Q R)} {a : α} (he : t.Ends [] τ a) : Φ (τ.filterMap obs) a := by
  obtain ⟨os, hos, hΦ⟩ := he.post (h [])
  rw [List.filterMap_nil, List.append_nil] at hos
  rwa [hos]

theorem Reports.mono {Φ Ψ : List O → α → Prop} {t : Prog Q R α} (h : t.Reports obs Φ)
    (hΦ : ∀ os a, Φ os a → Ψ os a) : t.Reports obs Ψ := by
  refine fun τ => (h τ).mono (fun _ _ h => h) fun τ' a hr => ?_
  obtain ⟨os, hos, ha⟩ := hr
  exact ⟨os, hos, hΦ os a ha⟩

theorem reports_ret {Φ : List O → α → Prop} {a : α} (h : Φ [] a) :
    (Prog.ret a : Prog Q R α).Reports obs Φ :=
  fun _ => ⟨[], rfl, h⟩

/-- A call is noted, or not, together with its reply. -/
theorem reports_call {Φ : List O → α → Prop} {q : Q} {k : R q → Prog Q R α}
    (h : ∀ r, (k r).Reports obs fun os a => Φ (os ++ (obs ⟨q, r⟩).toList) a) :
    (Prog.call q k).Reports obs Φ := by
  refine fun τ => ⟨trivial, fun r => ?_⟩
  refine (h r _).mono (fun _ _ h => h) fun τ' a hr => ?_
  obtain ⟨os, hos, ha⟩ := hr
  refine ⟨_, ?_, ha⟩
  rw [hos, List.append_assoc]
  cases hobs : obs ⟨q, r⟩ with
  | none => simp [hobs]
  | some o => simp [hobs]

theorem Reports.bind {Φ : List O → α → Prop} {Ψ : List O → β → Prop} {t : Prog Q R α}
    {f : α → Prog Q R β} (ht : t.Reports obs Φ)
    (hf : ∀ os a, Φ os a → (f a).Reports obs fun os' b => Ψ (os' ++ os) b) :
    (t >>= f).Reports obs Ψ := by
  refine fun τ => spec_bind.2 ((ht τ).mono (fun _ _ h => h) fun τ' a hr => ?_)
  obtain ⟨os, hos, ha⟩ := hr
  refine (hf os a ha τ').mono (fun _ _ h => h) fun τ'' b hr' => ?_
  obtain ⟨os', hos', hb⟩ := hr'
  exact ⟨os' ++ os, by rw [hos', hos, List.append_assoc], hb⟩

/-! ### Programs that may fail -/

/-- A step, and what follows unless the step fails. -/
theorem Reports.attempt {Φ : List O → Except ε α → Prop} {Ψ : List O → Except ε β → Prop}
    {x : ExceptT ε (Prog Q R) α} {f : α → ExceptT ε (Prog Q R) β} (hx : x.run.Reports obs Φ)
    (hf : ∀ os a, Φ os (.ok a) → (f a).run.Reports obs fun os' r => Ψ (os' ++ os) r)
    (herror : ∀ os e, Φ os (.error e) → Ψ os (.error e)) :
    (x >>= f).run.Reports obs Ψ := by
  rw [ExceptT.run_bind]
  refine hx.bind fun os r hr => ?_
  cases r with
  | ok a => exact hf os a hr
  | error e => exact reports_ret (herror os e hr)

/-- A call, and what follows its reply. -/
theorem reports_perform {Ψ : List O → Except ε β → Prop} {q : Q}
    {f : R q → ExceptT ε (Prog Q R) β}
    (h : ∀ r, (f r).run.Reports obs fun os b => Ψ (os ++ (obs ⟨q, r⟩).toList) b) :
    ((ExceptT.lift (.perform q) : ExceptT ε (Prog Q R) (R q)) >>= f).run.Reports obs Ψ :=
  reports_call h

/-- A step whose value is only passed on. -/
theorem Reports.map_ok {Φ : List O → Except ε α → Prop} {Ψ : List O → Except ε β → Prop}
    {x : ExceptT ε (Prog Q R) α} {g : α → β} (hx : x.run.Reports obs Φ)
    (hΨ : ∀ os r, Φ os r → Ψ os (r.map g)) :
    (x >>= fun a => pure (g a)).run.Reports obs Ψ := by
  refine Reports.attempt hx (fun os a ha => reports_ret ?_) fun os e he => hΨ os _ he
  exact hΨ os _ ha

/-- Nothing is observed of the program. -/
def Quiet (obs : Event Q R → Option O) (t : Prog Q R α) : Prop := t.Reports obs fun os _ => os = []

theorem quiet_ret (a : α) : (Prog.ret a : Prog Q R α).Quiet obs := reports_ret rfl

theorem quiet_call {q : Q} {k : R q → Prog Q R α} (hq : ∀ r, obs ⟨q, r⟩ = none)
    (h : ∀ r, (k r).Quiet obs) : (Prog.call q k).Quiet obs := by
  refine reports_call fun r => (h r).mono fun os a hos => ?_
  simp [hos, hq r]

theorem quiet_perform {q : Q} (hq : ∀ r, obs ⟨q, r⟩ = none) :
    (ExceptT.lift (.perform q) : ExceptT ε (Prog Q R) (R q)).run.Quiet obs :=
  quiet_call hq fun _ => quiet_ret _

/-- A program whose calls are never noted. -/
theorem quiet_of_always {t : Prog Q R α} (h : t.Always fun _ q => ∀ r, obs ⟨q, r⟩ = none) :
    t.Quiet obs := by
  intro τ
  have hmono : ∀ {t : Prog Q R α} {τ : List (Event Q R)},
      t.Spec (fun _ q => ∀ r, obs ⟨q, r⟩ = none) (fun _ _ => True) τ →
      t.Spec (fun _ _ => True) (fun τ' _ => τ'.filterMap obs = τ.filterMap obs) τ := by
    intro t
    induction t with
    | ret a => exact fun _ => rfl
    | call q k ih =>
      refine fun h => ⟨trivial, fun r => (ih r (h.2 r)).mono (fun _ _ h => h) fun τ' a hr => ?_⟩
      simpa [h.1 r] using hr
  exact (hmono (h τ)).mono (fun _ _ h => h) fun τ' a hr => ⟨[], by simpa using hr, rfl⟩

/-- A program whose calls are made as calls of another signature shows what it shows itself. -/
theorem Reports.mapCalls {Q' : Type} {R' : Q' → Type} {obs' : Event Q' R' → Option O} {f : Q → Q'}
    {g : (q : Q) → R' (f q) → R q} (hobs : ∀ q r, obs' ⟨f q, r⟩ = obs ⟨q, g q r⟩)
    {Φ : List O → α → Prop} {t : Prog Q R α} (h : t.Reports obs Φ) :
    (t.mapCalls f g).Reports obs' Φ := by
  -- the two runs have shown the same since they started
  have key : ∀ (t : Prog Q R α) (shown : List O) {τ : List (Event Q R)}
      {σ σ₀ : List (Event Q' R')}, τ.filterMap obs = shown →
      σ.filterMap obs' = shown ++ σ₀.filterMap obs' →
      t.Spec (fun _ _ => True) (fun τ' a => Φ (τ'.filterMap obs) a) τ →
      (t.mapCalls f g).Spec (fun _ _ => True)
        (fun σ' a => ∃ os, σ'.filterMap obs' = os ++ σ₀.filterMap obs' ∧ Φ os a) σ := by
    intro t
    induction t with
    | ret a =>
      rintro shown τ σ σ₀ rfl hσ ha
      exact ⟨_, hσ, ha⟩
    | call q k ih =>
      rintro shown τ σ σ₀ rfl hσ ha
      refine ⟨trivial, fun r => ih (g q r) _ rfl ?_ (ha.2 (g q r))⟩
      cases hq : obs ⟨q, g q r⟩ with
      | none => simp [hobs, hq, hσ]
      | some o => simp [hobs, hq, hσ]
  intro σ₀
  refine key t [] rfl rfl ((h []).mono (fun _ _ h => h) fun τ' a hr => ?_)
  obtain ⟨os, hos, ha⟩ := hr
  rw [List.filterMap_nil, List.append_nil] at hos
  rwa [hos]

/-- A step that shows nothing, and what follows unless it fails. -/
theorem Reports.quiet_attempt {Ψ : List O → Except ε β → Prop} {x : ExceptT ε (Prog Q R) α}
    {f : α → ExceptT ε (Prog Q R) β} (hx : x.run.Quiet obs)
    (hf : ∀ a, (f a).run.Reports obs Ψ) (herror : ∀ e, Ψ [] (.error e)) :
    (x >>= f).run.Reports obs Ψ := by
  refine Reports.attempt hx (fun os a hos => (hf a).mono fun os' r hr => ?_) ?_
  · rw [hos, List.append_nil]
    exact hr
  · rintro os e rfl
    exact herror e

section Quietly

variable {P : α → Prop}

/-- The program shows nothing, and its values are as described. -/
def Quietly (obs : Event Q R → Option O) (P : α → Prop) (x : ExceptT ε (Prog Q R) α) : Prop :=
  x.run.Reports obs fun os r => os = [] ∧ ∀ a, r = .ok a → P a

theorem quietly_pure {a : α} (h : P a) : Quietly obs P (pure a : ExceptT ε (Prog Q R) α) :=
  reports_ret ⟨rfl, fun b hb => by obtain rfl := Except.ok.inj hb; exact h⟩

theorem Quiet.quietly {x : ExceptT ε (Prog Q R) α} (h : x.run.Quiet obs) :
    Quietly obs (fun _ => True) x :=
  h.mono fun _ _ hos => ⟨hos, fun _ _ => trivial⟩

/-- A step that shows nothing, and what follows its value. -/
theorem Quietly.attempt {Ψ : List O → Except ε β → Prop} {x : ExceptT ε (Prog Q R) α}
    {f : α → ExceptT ε (Prog Q R) β} (hx : Quietly obs P x)
    (hf : ∀ a, P a → (f a).run.Reports obs Ψ) (herror : ∀ e, Ψ [] (.error e)) :
    (x >>= f).run.Reports obs Ψ := by
  refine Reports.attempt hx (fun os a ha => (hf a (ha.2 a rfl)).mono fun os' r hr => ?_) ?_
  · rw [ha.1, List.append_nil]
    exact hr
  · rintro os e he
    rw [he.1]
    exact herror e

theorem Quietly.bind {P' : β → Prop} {x : ExceptT ε (Prog Q R) α}
    {f : α → ExceptT ε (Prog Q R) β} (hx : Quietly obs P x)
    (hf : ∀ a, P a → Quietly obs P' (f a)) : Quietly obs P' (x >>= f) :=
  hx.attempt hf fun _ => ⟨rfl, fun _ ha => by cases ha⟩

/-- The values of a list of programs, one after the other, which show nothing. -/
theorem quietly_mapM {f : α → β} {g : β → ExceptT ε (Prog Q R) α} {xs : List β}
    (hg : ∀ x ∈ xs, Quietly obs (fun a => f a = x) (g x)) :
    Quietly obs (fun as => as.map f = xs) (xs.mapM g) := by
  induction xs with
  | nil => exact quietly_pure rfl
  | cons x xs ih =>
    rw [List.mapM_cons]
    refine (hg x List.mem_cons_self).bind fun a ha => ?_
    refine (ih fun y hy => hg y (List.mem_cons_of_mem x hy)).bind fun as has => quietly_pure ?_
    rw [List.map_cons, ha, has]

end Quietly

end Prog

end Interleaving
