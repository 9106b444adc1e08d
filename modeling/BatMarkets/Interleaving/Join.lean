import BatMarkets.Interleaving.Prog

/-!
# Programs within programs

`Prog.mapCalls` runs a program of one signature inside a program of another.  `Prog.tryJoin` runs
several programs that may fail side by side, until all of them have ended or one of them has failed;
its schedule names the program that gets the next reply, as long as there is one left, and what is
left after the schedule runs in order.  Every run of the programs side by side is one of `tryJoin`
for some schedule.

`Prog.Yields G P x` says of a program `x` that may fail that all its calls satisfy `G` and that a
value it ends with satisfies `P`.

## Main results

* `Always.mapCalls` : what holds of all calls of the parts holds of all calls of the whole.
* `Yields.attempt`, `Yields.mapM` : a step may rely on what the steps before it yield.
* `Yields.tryJoin` : programs side by side yield what each of them yields alone.
-/

namespace Interleaving

namespace Prog

variable {Q Q' : Type} {R : Q → Type} {R' : Q' → Type} {α ε : Type}

/-- The program with its calls made as calls of another signature. -/
def mapCalls (f : Q → Q') (g : (q : Q) → R' (f q) → R q) : Prog Q R α → Prog Q' R' α
  | .ret a => .ret a
  | .call q k => .call (f q) fun r => mapCalls f g (k (g q r))

theorem mapCalls_bind {β : Type} {f : Q → Q'} {g : (q : Q) → R' (f q) → R q} (t : Prog Q R α)
    (h : α → Prog Q R β) :
    (t >>= h).mapCalls f g = t.mapCalls f g >>= fun a => (h a).mapCalls f g := by
  induction t with
  | ret a => rfl
  | call q k ih => simp only [call_bind, mapCalls, ih]

variable {G : List (Event Q' R') → Q' → Prop}

theorem Always.mapCalls {f : Q → Q'} {g : (q : Q) → R' (f q) → R q} (h : ∀ τ q, G τ (f q))
    (t : Prog Q R α) : (t.mapCalls f g).Always G := by
  induction t with
  | ret a => exact fun _ => trivial
  | call q k ih =>
    intro τ
    exact ⟨h τ q, fun r => ih (g q r) _⟩

/-- What holds of all calls, seen as calls of the other signature. -/
theorem Always.mapCalls_of {K : Q' → Prop} {f : Q → Q'} {g : (q : Q) → R' (f q) → R q}
    {t : Prog Q R α} (h : t.Always fun _ q => K (f q)) :
    (t.mapCalls f g).Always fun _ q => K q := by
  have key : ∀ {t : Prog Q R α} {τ : List (Event Q R)},
      t.Spec (fun _ q => K (f q)) (fun _ _ => True) τ →
      (t.mapCalls f g).Always fun _ q => K q := by
    intro t
    induction t with
    | ret a => exact fun _ _ => trivial
    | call q k ih => exact fun hspec τ' => ⟨hspec.1, fun r => ih _ (hspec.2 (g q r)) _⟩
  exact key (h [])

/-- Run the programs one after the other, until one fails. -/
def inOrder : List (Prog Q R (Except ε α)) → Prog Q R (Except ε (List α))
  | [] => .ret (.ok [])
  | t :: ts => t >>= fun
    | .error e => .ret (.error e)
    | .ok a => inOrder ts >>= fun
      | .error e => .ret (.error e)
      | .ok as => .ret (.ok (a :: as))

/-- Run the programs side by side, until one fails. -/
def tryJoin : List ℕ → List (Prog Q R (Except ε α)) → Prog Q R (Except ε (List α))
  | [], ts => inOrder ts
  | i :: schedule, ts =>
    match ts[i]? with
    | some (.call q k) => .call q fun r =>
      match k r with
      | .ret (.error e) => .ret (.error e)
      | t => tryJoin schedule (ts.set i t)
    | _ => tryJoin schedule ts

/-- A program side by side with others that makes a call goes on with the reply, and its failure is
the failure of all. -/
theorem tryJoin_call (schedule : List ℕ) {ts : List (Prog Q R (Except ε α))} {i : ℕ} {q : Q}
    {k : R q → Prog Q R (Except ε α)} (h : ts[i]? = some (.call q k)) :
    ∃ rest : R q → Prog Q R (Except ε (List α)), tryJoin (i :: schedule) ts = .call q rest ∧
      ∀ r, (∃ e, k r = .ret (.error e) ∧ rest r = .ret (.error e)) ∨
        rest r = tryJoin schedule (ts.set i (k r)) := by
  rw [tryJoin, h]
  refine ⟨_, rfl, fun r => ?_⟩
  split
  · next e heq => exact .inl ⟨e, heq, rfl⟩
  · exact .inr rfl

theorem Always.residual {G : List (Event Q R) → Q → Prop} {q : Q} {k : R q → Prog Q R α}
    (hG : ∀ τ τ' q, G τ q → G τ' q) (h : (Prog.call q k).Always G) (r : R q) : (k r).Always G := by
  have hshift : ∀ {t : Prog Q R α} {τ τ' : List (Event Q R)},
      t.Spec G (fun _ _ => True) τ → t.Spec G (fun _ _ => True) τ' := by
    intro t
    induction t with
    | ret a => exact fun _ => trivial
    | call q k ih => exact fun h => ⟨hG _ _ _ h.1, fun r => ih r (h.2 r)⟩
  exact fun τ => hshift ((h []).2 r)

/-- What holds of all calls holds of those of the first step. -/
theorem Always.left {β : Type} {G : List (Event Q R) → Q → Prop} {x : ExceptT ε (Prog Q R) α}
    {f : α → ExceptT ε (Prog Q R) β} (h : (x >>= f).run.Always G) : x.run.Always G := by
  intro τ
  have hbind := h τ
  rw [ExceptT.run_bind, spec_bind] at hbind
  exact hbind.mono (fun _ _ hq => hq) fun _ _ _ => trivial

/-! ### Values of programs that may fail -/

/-- Every call of `x` satisfies `G`, and a value it ends with satisfies `P`. -/
def Yields (G : List (Event Q R) → Q → Prop) (P : α → Prop) (x : ExceptT ε (Prog Q R) α) : Prop :=
  ∀ τ, x.run.Spec G (fun _ r => ∀ a, r = .ok a → P a) τ

section Yields

variable {β : Type} {G : List (Event Q R) → Q → Prop} {P : α → Prop} {P' : β → Prop}
  {x : ExceptT ε (Prog Q R) α} {f : α → ExceptT ε (Prog Q R) β}

theorem Yields.always (h : Yields G P x) : x.run.Always G :=
  fun τ => (h τ).mono (fun _ _ hq => hq) fun _ _ _ => trivial

theorem Yields.of_always (h : x.run.Always G) : Yields G (fun _ => True) x :=
  fun τ => (h τ).mono (fun _ _ hq => hq) fun _ _ _ _ _ => trivial

theorem Yields.mono {P₀ : α → Prop} (h : Yields G P₀ x) (hP : ∀ a, P₀ a → P a) : Yields G P x :=
  fun τ => (h τ).mono (fun _ _ hq => hq) fun _ _ hr a ha => hP a (hr a ha)

theorem Yields.imp {G' : List (Event Q R) → Q → Prop} (h : Yields G P x)
    (hG : ∀ τ q, G τ q → G' τ q) : Yields G' P x :=
  fun τ => (h τ).mono hG fun _ _ hr => hr

theorem Yields.attempt (hx : Yields G P x) (hf : ∀ a, P a → Yields G P' (f a)) :
    Yields G P' (x >>= f) := by
  refine fun τ => spec_attempt ((hx τ).mono (fun _ _ hq => hq) fun τ r hr => ?_)
  cases r with
  | ok a => exact hf a (hr a rfl) τ
  | error e => nofun

theorem yields_pure {a : α} (h : P a) : Yields G P (pure a : ExceptT ε (Prog Q R) α) := by
  rintro τ b hb
  obtain rfl : a = b := Except.ok.inj hb
  exact h

theorem yields_throw (e : ε) : Yields G P (throw e : ExceptT ε (Prog Q R) α) := by
  rintro τ b hb
  cases hb

/-- Nothing runs after a step that fails. -/
theorem yields_throw_bind (e : ε) {f : α → ExceptT ε (Prog Q R) β} :
    Yields G P' (throw e >>= f) :=
  (yields_throw (P := fun _ => False) e).attempt fun _ h => h.elim

/-- A call whose reply is the value. -/
theorem yields_perform {q : Q} {P : R q → Prop} (hq : ∀ τ, G τ q) (hP : ∀ r, P r) :
    Yields G P (ExceptT.lift (.perform q) : ExceptT ε (Prog Q R) (R q)) := by
  refine fun τ => ⟨hq τ, fun r a ha => ?_⟩
  obtain rfl : r = a := Except.ok.inj ha
  exact hP r

/-- The values of the steps, one for each element. -/
theorem Yields.mapM {γ : Type} {P : γ → α → Prop} {f : γ → ExceptT ε (Prog Q R) α} {cs : List γ}
    (h : ∀ c ∈ cs, Yields G (P c) (f c)) : Yields G (List.Forall₂ P cs) (cs.mapM f) := by
  induction cs with
  | nil => exact yields_pure .nil
  | cons c cs ih =>
    rw [List.mapM_cons]
    refine (h c (by simp)).attempt fun a ha => ?_
    refine (ih fun d hd => h d (by simp [hd])).attempt fun as has => ?_
    exact yields_pure (.cons ha has)

/-- Where what holds of a call does not depend on the trace, what is left of a program yields what
the program yields. -/
theorem Yields.residual {q : Q} {k : R q → Prog Q R (Except ε α)}
    (hG : ∀ τ τ' q, G τ q → G τ' q) (h : Yields G P (ExceptT.mk (.call q k))) (r : R q) :
    Yields G P (ExceptT.mk (k r)) := by
  have hshift : ∀ {t : Prog Q R (Except ε α)} {τ τ' : List (Event Q R)},
      t.Spec G (fun _ r => ∀ a, r = .ok a → P a) τ →
      t.Spec G (fun _ r => ∀ a, r = .ok a → P a) τ' := by
    intro t
    induction t with
    | ret a => exact id
    | call q k ih => exact fun h => ⟨hG _ _ _ h.1, fun r => ih r (h.2 r)⟩
  exact fun τ => hshift ((h []).2 r)

/-- The values of programs that run one after the other. -/
theorem Yields.inOrder {γ : Type} {P : γ → α → Prop} {cs : List γ}
    {ts : List (Prog Q R (Except ε α))}
    (h : List.Forall₂ (fun c t => Yields G (P c) (ExceptT.mk t)) cs ts) :
    Yields G (List.Forall₂ P cs) (ExceptT.mk (Prog.inOrder ts)) := by
  induction h with
  | nil => exact yields_pure .nil
  | @cons c t cs ts ht _ ih =>
    intro τ
    show Spec _ _ (t >>= _) τ
    refine spec_bind.2 ((ht τ).mono (fun _ _ hq => hq) fun τ r hr => ?_)
    cases r with
    | error e => exact fun _ hb => nomatch hb
    | ok a =>
      refine spec_bind.2 ((ih τ).mono (fun _ _ hq => hq) fun τ s hs => ?_)
      cases s with
      | error e => exact fun _ hb => nomatch hb
      | ok as =>
        intro b hb
        obtain rfl : a :: as = b := Except.ok.inj hb
        exact .cons (hr a rfl) (hs as rfl)

/-- The values of programs that run side by side, each in its own place. -/
theorem Yields.tryJoin {γ : Type} {P : γ → α → Prop} {cs : List γ}
    (hG : ∀ τ τ' q, G τ q → G τ' q) (schedule : List ℕ) {ts : List (Prog Q R (Except ε α))}
    (h : List.Forall₂ (fun c t => Yields G (P c) (ExceptT.mk t)) cs ts) :
    Yields G (List.Forall₂ P cs) (ExceptT.mk (Prog.tryJoin schedule ts)) := by
  induction schedule generalizing ts with
  | nil => exact Yields.inOrder h
  | cons i schedule ih =>
    cases ht : ts[i]? with
    | none =>
      rw [Prog.tryJoin, ht]
      exact ih h
    | some t =>
      cases t with
      | ret a =>
        rw [Prog.tryJoin, ht]
        exact ih h
      | call q k =>
        rw [Prog.tryJoin, ht]
        have hlt : i < ts.length := (List.getElem?_eq_some_iff.1 ht).1
        have hlen : cs.length = ts.length := h.length_eq
        have hi : Yields G (P (cs.get ⟨i, by omega⟩)) (ExceptT.mk (.call q k)) := by
          have hget := List.forall₂_iff_get.1 h
          have := hget.2 i (by omega) hlt
          rwa [show ts.get ⟨i, hlt⟩ = .call q k from (List.getElem?_eq_some_iff.1 ht).2] at this
        refine fun τ => ⟨(hi τ).1, fun r => ?_⟩
        have hset : List.Forall₂ (fun c t => Yields G (P c) (ExceptT.mk t)) cs
            (ts.set i (k r)) := by
          refine List.forall₂_iff_get.2 ⟨by simpa using hlen, fun j hj hj' => ?_⟩
          by_cases hij : i = j
          · subst hij
            simpa using hi.residual hG r
          · have := (List.forall₂_iff_get.1 h).2 j hj (by simpa using hj')
            simpa [hij] using this
        show Spec G _ (match k r with
          | .ret (.error e) => .ret (.error e)
          | t => Prog.tryJoin schedule (ts.set i t)) _
        split
        · exact fun _ hb => nomatch hb
        · exact ih hset _

end Yields

end Prog

end Interleaving
