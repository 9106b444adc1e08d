import Mathlib

/-!
# Programs that call their environment

A `Prog Q R α` is a program seen from the outside: it makes calls `q : Q` (an atomic operation on
shared memory, a request over the network), waits for the reply `R q`, goes on with it, and ends
with a value of type `α`.  Between two calls anything may happen in the environment, so a program
says nothing about what its replies are; that is the business of the interpretation
(`BatMarkets.Interleaving.Pool`, or `Prog.exec` for a program that runs alone).

## Main definitions

* `Prog.Spec G Post t τ` : whatever the replies, every call `q` of `t` satisfies `G` together with
  the trace of calls and replies so far, and the value and trace at the end satisfy `Post`.
  `τ` is the trace `t` starts from, latest call first.
* `Prog.Always G t` : every call of `t` satisfies `G`, from any trace.
* `Prog.PastMeets G τ` : every call of the trace satisfied `G` when it was made.
* `Prog.Ends t τ τ' a` : some replies lead `t` from the trace `τ` to the end value `a`, with trace
  `τ'`.
* `Prog.exec` : the run of a program that nobody interferes with.

`Spec` is a program logic: `spec_bind` composes it, `Spec.mono` weakens it, and `spec_attempt` is
the rule for the early return of a failing step in programs with an error type.
-/

namespace Interleaving

/-- A call together with its reply. -/
abbrev Event (Q : Type*) (R : Q → Type*) := Σ q, R q

/-- Programs that make calls `q : Q`, get replies `R q`, and end with a value of type `α`. -/
inductive Prog (Q : Type) (R : Q → Type) (α : Type) : Type
  /-- The program ends with the value `a`. -/
  | ret (a : α)
  /-- The program makes the call `q` and goes on with `k r` when the reply is `r`. -/
  | call (q : Q) (k : R q → Prog Q R α)

namespace Prog

variable {Q : Type} {R : Q → Type} {α β ε : Type}

/-- Run `t`, then go on with its value. -/
def bind : Prog Q R α → (α → Prog Q R β) → Prog Q R β
  | .ret a, f => f a
  | .call q k, f => .call q fun r => (k r).bind f

instance : Monad (Prog Q R) where
  pure := .ret
  bind := .bind

/-- The program that makes one call and ends with its reply. -/
def perform (q : Q) : Prog Q R (R q) := .call q .ret

@[simp] theorem pure_eq (a : α) : (pure a : Prog Q R α) = .ret a := rfl

@[simp] theorem ret_bind (a : α) (f : α → Prog Q R β) : (Prog.ret a >>= f) = f a := rfl

@[simp] theorem call_bind (q : Q) (k : R q → Prog Q R α) (f : α → Prog Q R β) :
    (Prog.call q k >>= f) = .call q fun r => k r >>= f := rfl

@[simp] theorem perform_bind (q : Q) (f : R q → Prog Q R β) : (perform q >>= f) = .call q f := rfl

theorem bind_ret (t : Prog Q R α) : t.bind .ret = t := by
  induction t with
  | ret a => rfl
  | call q k ih => simp only [bind, ih]

theorem bind_assoc {γ : Type} (t : Prog Q R α) (f : α → Prog Q R β) (g : β → Prog Q R γ) :
    t >>= f >>= g = t >>= fun a => f a >>= g := by
  induction t with
  | ret a => rfl
  | call q k ih => simp only [call_bind, ih]

instance : LawfulMonad (Prog Q R) :=
  LawfulMonad.mk' _ (fun t => bind_ret t) (fun _ _ => rfl) bind_assoc

/-! ### Specifications -/

/-- Whatever the replies, every call of `t` satisfies `G` and its end satisfies `Post`. -/
def Spec (G : List (Event Q R) → Q → Prop) (Post : List (Event Q R) → α → Prop) :
    Prog Q R α → List (Event Q R) → Prop
  | .ret a, τ => Post τ a
  | .call q k, τ => G τ q ∧ ∀ r, Spec G Post (k r) (⟨q, r⟩ :: τ)

variable {G G' : List (Event Q R) → Q → Prop} {Post Post' : List (Event Q R) → α → Prop}
  {τ τ' : List (Event Q R)}

@[simp] theorem spec_ret {a : α} : Spec G Post (.ret a) τ ↔ Post τ a := Iff.rfl

@[simp] theorem spec_call {q : Q} {k : R q → Prog Q R α} :
    Spec G Post (.call q k) τ ↔ G τ q ∧ ∀ r, Spec G Post (k r) (⟨q, r⟩ :: τ) := Iff.rfl

theorem spec_bind {PostB : List (Event Q R) → β → Prop} {t : Prog Q R α} {f : α → Prog Q R β} :
    Spec G PostB (t >>= f) τ ↔ Spec G (fun τ a => Spec G PostB (f a) τ) t τ := by
  induction t generalizing τ with
  | ret a => rfl
  | call q k ih => simp only [call_bind, spec_call, ih]

theorem Spec.mono {t : Prog Q R α} (h : Spec G Post t τ) (hG : ∀ τ q, G τ q → G' τ q)
    (hPost : ∀ τ a, Post τ a → Post' τ a) : Spec G' Post' t τ := by
  induction t generalizing τ with
  | ret a => exact hPost τ a h
  | call q k ih => exact ⟨hG τ q h.1, fun r => ih r (h.2 r)⟩

/-- The rule for a sequence of steps in which a failing step ends the whole: the rest runs only
after a step that succeeded. -/
theorem spec_attempt {PostB : List (Event Q R) → Except ε β → Prop}
    {x : ExceptT ε (Prog Q R) α} {f : α → ExceptT ε (Prog Q R) β}
    (h : Spec G (fun τ r => match r with
      | .ok a => Spec G PostB (f a).run τ
      | .error e => PostB τ (.error e)) x.run τ) :
    Spec G PostB (x >>= f).run τ := by
  rw [ExceptT.run_bind, spec_bind]
  refine h.mono (fun _ _ h => h) fun τ r hr => ?_
  cases r with
  | ok a => exact hr
  | error e => exact hr

/-- A program that satisfies two specifications satisfies both at once. -/
theorem Spec.and {t : Prog Q R α} (h : Spec G Post t τ) (h' : Spec G' Post' t τ) :
    Spec G (fun τ a => Post τ a ∧ Post' τ a) t τ := by
  induction t generalizing τ with
  | ret a => exact ⟨h, h'⟩
  | call q k ih => exact ⟨h.1, fun r => ih r (h.2 r) (h'.2 r)⟩

/-- A program that keeps to two guards keeps to both at once. -/
theorem Spec.and_guard {t : Prog Q R α} (h : Spec G Post t τ) (h' : Spec G' Post' t τ) :
    Spec (fun τ q => G τ q ∧ G' τ q) (fun τ a => Post τ a ∧ Post' τ a) t τ := by
  induction t generalizing τ with
  | ret a => exact ⟨h, h'⟩
  | call q k ih => exact ⟨⟨h.1, h'.1⟩, fun r => ih r (h.2 r) (h'.2 r)⟩

/-- What a specification promises only of runs in which `U` holds throughout may be proved from `U`
at the start. -/
theorem spec_assume {U : List (Event Q R) → Prop} {P : List (Event Q R) → α → Prop}
    (hU : ∀ e τ, U (e :: τ) → U τ) {t : Prog Q R α}
    (h : U τ → Spec (fun _ _ => True) (fun τ' a => U τ' → P τ' a) t τ) :
    Spec (fun _ _ => True) (fun τ' a => U τ' → P τ' a) t τ := by
  induction t generalizing τ with
  | ret a => exact fun hτ => h hτ hτ
  | call q k ih =>
    refine ⟨trivial, fun r => ih r fun hr => ?_⟩
    exact (h (hU _ _ hr)).2 r

/-- A program only adds to the trace it starts from, at each of its calls. -/
theorem spec_later (t : Prog Q R α) (τ : List (Event Q R)) :
    Spec (fun τ' _ => τ <:+ τ') (fun τ' _ => τ <:+ τ') t τ := by
  have hfrom : ∀ τ₀ : List (Event Q R), τ₀ <:+ τ →
      Spec (fun τ' _ => τ₀ <:+ τ') (fun τ' _ => τ₀ <:+ τ') t τ := by
    intro τ₀ hτ
    induction t generalizing τ with
    | ret a => exact hτ
    | call q k ih => exact ⟨hτ, fun r => ih r _ (hτ.trans (List.suffix_cons _ _))⟩
  exact hfrom τ (List.suffix_refl τ)

theorem spec_suffix (t : Prog Q R α) (τ : List (Event Q R)) :
    Spec (fun _ _ => True) (fun τ' _ => τ <:+ τ') t τ :=
  (spec_later t τ).mono (fun _ _ _ => trivial) fun _ _ h => h

/-- From any trace, and whatever the replies, every call of `t` satisfies `G`. -/
def Always (G : List (Event Q R) → Q → Prop) (t : Prog Q R α) : Prop :=
  ∀ τ, t.Spec G (fun _ _ => True) τ

theorem Always.mono {t : Prog Q R α} (h : t.Always G) (hG : ∀ τ q, G τ q → G' τ q) :
    t.Always G' :=
  fun τ => (h τ).mono hG fun _ _ h => h

theorem Always.and {t : Prog Q R α} (h : t.Always G) (h' : t.Always G') :
    t.Always fun τ q => G τ q ∧ G' τ q :=
  fun τ => ((h τ).and_guard (h' τ)).mono (fun _ _ h => h) fun _ _ _ => trivial

theorem Always.bind {t : Prog Q R α} {f : α → Prog Q R β} (ht : t.Always G)
    (hf : ∀ a, (f a).Always G) : (t >>= f).Always G :=
  fun τ => spec_bind.2 ((ht τ).mono (fun _ _ hq => hq) fun τ a _ => hf a τ)

theorem Always.attempt {x : ExceptT ε (Prog Q R) α} {f : α → ExceptT ε (Prog Q R) β}
    (hx : x.run.Always G) (hf : ∀ a, (f a).run.Always G) : (x >>= f).run.Always G := by
  refine fun τ => spec_attempt ((hx τ).mono (fun _ _ hq => hq) fun τ r _ => ?_)
  cases r with
  | ok a => exact hf a τ
  | error e => trivial

/-- Every call of the trace satisfied the guard when it was made. -/
def PastMeets (G : List (Event Q R) → Q → Prop) : List (Event Q R) → Prop
  | [] => True
  | e :: τ => G τ e.1 ∧ PastMeets G τ

theorem PastMeets.forall_mem {P : Q → Prop} {τ : List (Event Q R)}
    (h : PastMeets G τ) (hP : ∀ τ q, G τ q → P q) : ∀ e ∈ τ, P e.1 := by
  induction τ with
  | nil =>
    intro e he
    cases he
  | cons e τ ih => exact List.forall_mem_cons.2 ⟨hP τ e.1 h.1, ih h.2⟩

/-! ### Complete runs -/

/-- Some replies lead `t` from the trace `τ` to the value `a`, with trace `τ'`. -/
inductive Ends : Prog Q R α → List (Event Q R) → List (Event Q R) → α → Prop
  | ret (a : α) (τ : List (Event Q R)) : Ends (.ret a) τ τ a
  | call {q : Q} {k : R q → Prog Q R α} {r : R q} {τ τ' : List (Event Q R)} {a : α} :
      Ends (k r) (⟨q, r⟩ :: τ) τ' a → Ends (.call q k) τ τ' a

/-- What may be left of the program `t` after some of its calls. -/
inductive Residual (t : Prog Q R α) : Prog Q R α → Prop
  | refl : Residual t t
  | call {q : Q} {k : R q → Prog Q R α} (r : R q) : Residual t (.call q k) → Residual t (k r)

/-- What a specification says of the end of a run. -/
theorem Ends.post {t : Prog Q R α} {a : α} (he : Ends t τ τ' a) (h : Spec G Post t τ) :
    Post τ' a := by
  induction he with
  | ret a τ => exact h
  | call _ ih => exact ih (h.2 _)

theorem ends_call {q : Q} {k : R q → Prog Q R α} {a : α} :
    Ends (.call q k) τ τ' a ↔ ∃ r, Ends (k r) (⟨q, r⟩ :: τ) τ' a := by
  constructor
  · rintro (_ | he)
    exact ⟨_, he⟩
  · rintro ⟨r, he⟩
    exact .call he

theorem ends_ret {a b : α} : Ends (.ret a : Prog Q R α) τ τ' b ↔ τ' = τ ∧ b = a := by
  constructor
  · rintro (_ | _)
    exact ⟨rfl, rfl⟩
  · rintro ⟨rfl, rfl⟩
    exact .ret _ _

theorem Ends.suffix {t : Prog Q R α} {a : α} (he : Ends t τ τ' a) : τ <:+ τ' :=
  he.post (spec_suffix t τ)

/-- In a run, each call that is made after the start is made when the specification permits it. -/
theorem Ends.permitted {t : Prog Q R α} {a : α} (he : Ends t τ τ' a) (h : Spec G Post t τ)
    {later earlier : List (Event Q R)} {e : Event Q R} (hτ' : τ' = later ++ e :: earlier)
    (hstart : τ.length ≤ earlier.length) : G earlier e.1 := by
  induction he with
  | ret a τ =>
    rw [hτ', List.length_append, List.length_cons] at hstart
    omega
  | @call q k r τ τ' a hrest ih =>
    by_cases hlater : τ.length < earlier.length
    · exact ih (h.2 r) hτ' hlater
    · -- the event is the first one of the run
      have hfirst : ⟨q, r⟩ :: τ = e :: earlier := by
        have hsuffix : ⟨q, r⟩ :: τ <:+ e :: earlier :=
          List.suffix_of_suffix_length_le hrest.suffix ⟨later, hτ'.symm⟩ (by simpa using hstart)
        exact hsuffix.eq_of_length_le (by simpa using hlater)
      obtain ⟨rfl, rfl⟩ := List.cons.inj hfirst
      exact h.1

/-- The run of a program that nobody interferes with: `reply` answers each call from the state `w`
and gives the state after it. -/
def exec {W : Type} (reply : (q : Q) → W → R q × W) : Prog Q R α → W → α × W
  | .ret a, w => (a, w)
  | .call q k, w => exec reply (k (reply q w).1) (reply q w).2

/-- The calls of that run, latest first, before those of `τ`. -/
def execTrace {W : Type} (reply : (q : Q) → W → R q × W) :
    Prog Q R α → W → List (Event Q R) → List (Event Q R)
  | .ret _, _, τ => τ
  | .call q k, w, τ => execTrace reply (k (reply q w).1) (reply q w).2 (⟨q, (reply q w).1⟩ :: τ)

section Exec

variable {W : Type} {reply : (q : Q) → W → R q × W} {w : W}

@[simp] theorem exec_ret (a : α) : exec reply (.ret a) w = (a, w) := rfl

@[simp] theorem exec_call (q : Q) (k : R q → Prog Q R α) :
    exec reply (.call q k) w = exec reply (k (reply q w).1) (reply q w).2 := rfl

theorem exec_bind (t : Prog Q R α) (f : α → Prog Q R β) :
    exec reply (t >>= f) w = exec reply (f (exec reply t w).1) (exec reply t w).2 := by
  induction t generalizing w with
  | ret a => rfl
  | call q k ih => simp only [call_bind, exec_call, ih]

/-- A run that nobody interferes with is a complete run. -/
theorem ends_exec (t : Prog Q R α) :
    Ends t τ (execTrace reply t w τ) (exec reply t w).1 := by
  induction t generalizing w τ with
  | ret a => exact .ret a τ
  | call q k ih => exact .call (ih _)

/-- A program that runs alone keeps what each of its calls keeps. -/
theorem exec_invariant {I : W → Prop} {t : Prog Q R α}
    (h : Spec (fun _ q => ∀ w, I w → I (reply q w).2) (fun _ _ => True) t τ) (hw : I w) :
    I (exec reply t w).2 := by
  induction t generalizing w τ with
  | ret a => exact hw
  | call q k ih => exact ih _ (h.2 _) (h.1 w hw)

end Exec

end Prog

end Interleaving
