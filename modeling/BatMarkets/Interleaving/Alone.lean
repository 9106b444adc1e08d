import BatMarkets.Interleaving.Join

/-!
# Programs in a fixed environment

An environment without a state answers every call with a reply of its own.  A program that runs in
it always makes the same calls and ends with the same value, so a call found in its run shows that
the program may make this call.

## Main results

* `Always.of_visits` : a call made in some environment satisfies what all calls satisfy.
* `Visits.step`, `Visits.after`, `visits_mapM`, `visits_tryJoin` : a program visits what its steps
  visit, if the steps before do not fail.
* `calls_attempt`, `exec_tryJoin` : the calls of steps in a row, or side by side, are those of the
  steps, each as often as the steps make it.
-/

namespace Interleaving

namespace Prog

variable {Q : Type} {R : Q → Type} {α β ε : Type} {reply : (q : Q) → Unit → R q × Unit} {q : Q}

/-- The program, in this environment, makes the call. -/
def Visits (reply : (q : Q) → Unit → R q × Unit) (t : Prog Q R α) (q : Q) : Prop :=
  ∃ e ∈ execTrace reply t () [], e.1 = q

/-- The calls that the program makes in this environment, in order. -/
def calls (reply : (q : Q) → Unit → R q × Unit) : Prog Q R α → List Q
  | .ret _ => []
  | .call q k => q :: calls reply (k (reply q ()).1)

/-- The program, in this environment, ends with a value. -/
def Succeeds (reply : (q : Q) → Unit → R q × Unit) (x : ExceptT ε (Prog Q R) α) (a : α) : Prop :=
  (exec reply x.run ()).1 = .ok a

theorem execTrace_append {W : Type} {reply : (q : Q) → W → R q × W} (t : Prog Q R α) (w : W)
    (τ : List (Event Q R)) : execTrace reply t w τ = execTrace reply t w [] ++ τ := by
  induction t generalizing w τ with
  | ret a => rfl
  | call q k ih =>
    simp only [execTrace]
    rw [ih, ih _ _ [_], List.append_assoc]
    rfl

theorem execTrace_bind {W : Type} {reply : (q : Q) → W → R q × W} (t : Prog Q R α)
    (f : α → Prog Q R β) (w : W) (τ : List (Event Q R)) :
    execTrace reply (t >>= f) w τ =
      execTrace reply (f (exec reply t w).1) (exec reply t w).2 (execTrace reply t w τ) := by
  induction t generalizing w τ with
  | ret a => rfl
  | call q k ih => simp only [call_bind, execTrace, exec_call, ih]

/-- A call made in some environment satisfies what all calls of the program satisfy. -/
theorem Always.of_visits {K : Q → Prop} {t : Prog Q R α} (h : t.Always fun _ q => K q)
    (hq : t.Visits reply q) : K q := by
  obtain ⟨e, he, rfl⟩ := hq
  have key : ∀ {t : Prog Q R α} {τ : List (Event Q R)},
      t.Spec (fun _ q => K q) (fun _ _ => True) τ → (∀ e ∈ τ, K e.1) →
      ∀ e ∈ execTrace reply t () τ, K e.1 := by
    intro t
    induction t with
    | ret a => exact fun _ hτ => hτ
    | call q k ih =>
      intro τ hspec hτ
      refine ih _ (hspec.2 _) ?_
      intro e he
      rcases List.mem_cons.1 he with rfl | he
      · exact hspec.1
      · exact hτ e he
  exact key (h []) (by simp) e he

/-! ### Steps -/

theorem visits_call {k : R q → Prog Q R α} : (Prog.call q k).Visits reply q := by
  refine ⟨⟨q, (reply q ()).1⟩, ?_, rfl⟩
  rw [execTrace, execTrace_append]
  simp

theorem calls_bind (t : Prog Q R α) (f : α → Prog Q R β) :
    calls reply (t >>= f) = calls reply t ++ calls reply (f (exec reply t ()).1) := by
  induction t with
  | ret a => rfl
  | call q k ih => simp only [call_bind, calls, exec_call, ih, List.cons_append]

/-- A call made in some environment satisfies what all calls of the program satisfy. -/
theorem Always.of_mem_calls {K : Q → Prop} {t : Prog Q R α} (h : t.Always fun _ q => K q)
    (hq : q ∈ calls reply t) : K q := by
  have key : ∀ {t : Prog Q R α} {τ : List (Event Q R)},
      t.Spec (fun _ q => K q) (fun _ _ => True) τ → ∀ q ∈ calls reply t, K q := by
    intro t
    induction t with
    | ret a => exact fun _ _ hq => (nomatch hq)
    | call q k ih =>
      intro τ hspec q' hq'
      rcases List.mem_cons.1 hq' with rfl | hq'
      · exact hspec.1
      · exact ih _ (hspec.2 _) q' hq'
  exact key (h []) q hq

theorem Visits.left {t : Prog Q R α} (h : t.Visits reply q) (f : α → Prog Q R β) :
    (t >>= f).Visits reply q := by
  obtain ⟨e, he, rfl⟩ := h
  refine ⟨e, ?_, rfl⟩
  rw [execTrace_bind, execTrace_append]
  exact List.mem_append_right _ he

theorem Visits.right {t : Prog Q R α} {f : α → Prog Q R β}
    (h : (f (exec reply t ()).1).Visits reply q) : (t >>= f).Visits reply q := by
  obtain ⟨e, he, rfl⟩ := h
  refine ⟨e, ?_, rfl⟩
  rw [execTrace_bind, execTrace_append]
  exact List.mem_append_left _ he

variable {x : ExceptT ε (Prog Q R) α} {f : α → ExceptT ε (Prog Q R) β} {a : α} {b : β}

theorem succeeds_pure (a : α) : Succeeds reply (pure a : ExceptT ε (Prog Q R) α) a := rfl

theorem Succeeds.attempt (hx : Succeeds reply x a) (hf : Succeeds reply (f a) b) :
    Succeeds reply (x >>= f) b := by
  unfold Succeeds at *
  rw [ExceptT.run_bind, exec_bind, hx]
  exact hf

theorem calls_attempt (hx : Succeeds reply x a) :
    calls reply (x >>= f).run = calls reply x.run ++ calls reply (f a).run := by
  rw [ExceptT.run_bind, calls_bind, hx]

theorem succeeds_bind_iff :
    Succeeds reply (x >>= f) b ↔ ∃ a, Succeeds reply x a ∧ Succeeds reply (f a) b := by
  constructor
  · intro h
    unfold Succeeds at h
    rw [ExceptT.run_bind, exec_bind] at h
    cases hx : (exec reply x.run ()).1 with
    | ok a =>
      rw [hx] at h
      exact ⟨a, hx, h⟩
    | error e =>
      rw [hx] at h
      cases h
  · rintro ⟨a, hx, hf⟩
    exact hx.attempt hf

theorem succeeds_attempt_iff (hx : Succeeds reply x a) :
    Succeeds reply (x >>= f) b ↔ Succeeds reply (f a) b := by
  unfold Succeeds at *
  rw [ExceptT.run_bind, exec_bind, hx]

theorem succeeds_pure_iff {a' : α} :
    Succeeds reply (pure a : ExceptT ε (Prog Q R) α) a' ↔ a' = a :=
  ⟨fun h => (Except.ok.inj h).symm, fun h => h ▸ rfl⟩

theorem not_succeeds_throw (e : ε) : ¬ Succeeds reply (throw e : ExceptT ε (Prog Q R) α) a :=
  fun h => (nomatch h)

theorem succeeds_perform_iff {r : R q} :
    Succeeds reply (ExceptT.lift (.perform q) : ExceptT ε (Prog Q R) (R q)) r ↔
      r = (reply q ()).1 :=
  ⟨fun h => (Except.ok.inj h).symm, fun h => h ▸ rfl⟩

/-- A program ends with one value. -/
theorem Succeeds.unique (h : Succeeds reply x a) {a' : α} (h' : Succeeds reply x a') : a = a' :=
  Except.ok.inj (h.symm.trans h')

theorem Visits.step (h : x.run.Visits reply q) : (x >>= f).run.Visits reply q := by
  rw [ExceptT.run_bind]
  exact h.left _

theorem Visits.after (hx : Succeeds reply x a) (h : (f a).run.Visits reply q) :
    (x >>= f).run.Visits reply q := by
  rw [ExceptT.run_bind]
  refine Visits.right ?_
  rw [hx]
  exact h

/-! ### Steps in a row, and side by side -/

section Lists

variable {γ : Type} {f : γ → ExceptT ε (Prog Q R) α} {cs : List γ}

theorem succeeds_mapM (h : ∀ c ∈ cs, ∃ a, Succeeds reply (f c) a) :
    ∃ as, Succeeds reply (cs.mapM f) as ∧
      List.Forall₂ (fun c a => Succeeds reply (f c) a) cs as := by
  induction cs with
  | nil => exact ⟨[], rfl, .nil⟩
  | cons c cs ih =>
    obtain ⟨a, ha⟩ := h c (by simp)
    obtain ⟨as, has, hall⟩ := ih fun d hd => h d (by simp [hd])
    refine ⟨a :: as, ?_, .cons ha hall⟩
    rw [List.mapM_cons]
    exact ha.attempt (has.attempt (succeeds_pure _))

theorem visits_mapM (h : ∀ c ∈ cs, ∃ a, Succeeds reply (f c) a) {c : γ} (hc : c ∈ cs)
    (hq : (f c).run.Visits reply q) : (cs.mapM f).run.Visits reply q := by
  induction cs with
  | nil => cases hc
  | cons d cs ih =>
    rw [List.mapM_cons]
    obtain ⟨a, ha⟩ := h d (by simp)
    rcases List.mem_cons.1 hc with rfl | hc
    · exact hq.step
    · exact Visits.after ha (ih (fun e he => h e (by simp [he])) hc).step

/-- Steps in a row that all succeed end with their values. -/
theorem succeeds_mapM_of {as : List α}
    (h : List.Forall₂ (fun c a => Succeeds reply (f c) a) cs as) :
    Succeeds reply (cs.mapM f) as ∧
      calls reply (cs.mapM f).run = cs.flatMap fun c => calls reply (f c).run := by
  induction h with
  | nil => exact ⟨rfl, rfl⟩
  | @cons c a cs as ha has ih =>
    rw [List.mapM_cons]
    refine ⟨ha.attempt (ih.1.attempt (succeeds_pure _)), ?_⟩
    rw [calls_attempt ha, calls_attempt ih.1, ih.2, List.flatMap_cons]
    exact congrArg _ (List.append_nil _)

theorem succeeds_mapM_iff {as : List α} :
    Succeeds reply (cs.mapM f) as ↔ List.Forall₂ (fun c a => Succeeds reply (f c) a) cs as := by
  refine ⟨fun h => ?_, fun h => (succeeds_mapM_of h).1⟩
  induction cs generalizing as with
  | nil =>
    obtain rfl := Except.ok.inj h
    exact .nil
  | cons c cs ih =>
    rw [List.mapM_cons, succeeds_bind_iff] at h
    obtain ⟨a, ha, h⟩ := h
    obtain ⟨as', has, h⟩ := succeeds_bind_iff.1 h
    obtain rfl := succeeds_pure_iff.1 h
    exact .cons ha (ih has)

theorem succeeds_inOrder {ts : List (Prog Q R (Except ε α))}
    (h : ∀ t ∈ ts, ∃ a, (exec reply t ()).1 = .ok a) :
    ∃ as, (exec reply (inOrder ts) ()).1 = .ok as := by
  induction ts with
  | nil => exact ⟨[], rfl⟩
  | cons t ts ih =>
    obtain ⟨a, ha⟩ := h t (by simp)
    obtain ⟨as, has⟩ := ih fun u hu => h u (by simp [hu])
    refine ⟨a :: as, ?_⟩
    rw [inOrder, exec_bind, ha]
    show (exec reply (inOrder ts >>= _) ()).1 = _
    rw [exec_bind, has]
    rfl

theorem visits_inOrder {ts : List (Prog Q R (Except ε α))}
    (h : ∀ t ∈ ts, ∃ a, (exec reply t ()).1 = .ok a) {t : Prog Q R (Except ε α)} (ht : t ∈ ts)
    (hq : t.Visits reply q) : (inOrder ts).Visits reply q := by
  induction ts with
  | nil => cases ht
  | cons u ts ih =>
    rw [inOrder]
    rcases List.mem_cons.1 ht with rfl | ht
    · exact hq.left _
    · obtain ⟨a, ha⟩ := h u (by simp)
      refine Visits.right ?_
      rw [ha]
      exact (ih (fun v hv => h v (by simp [hv])) ht).left _

/-- The order does not matter to programs side by side that all succeed. -/
theorem visits_tryJoin {ts : List (Prog Q R (Except ε α))}
    (h : ∀ t ∈ ts, ∃ a, (exec reply t ()).1 = .ok a) {t : Prog Q R (Except ε α)} (ht : t ∈ ts)
    (hq : t.Visits reply q) : (tryJoin [] ts).Visits reply q :=
  visits_inOrder h ht hq

theorem exec_inOrder {ts : List (Prog Q R (Except ε α))} {as : List α}
    (h : List.Forall₂ (fun t a => (exec reply t ()).1 = .ok a) ts as) :
    (exec reply (inOrder ts) ()).1 = .ok as ∧
      calls reply (inOrder ts) = ts.flatMap (calls reply) := by
  induction h with
  | nil => exact ⟨rfl, rfl⟩
  | @cons t a ts as ha has ih =>
    obtain ⟨hvalue, hcalls⟩ := ih
    rw [inOrder, exec_bind, calls_bind, ha]
    refine ⟨?_, ?_⟩
    · show (exec reply (inOrder ts >>= _) ()).1 = _
      rw [exec_bind, hvalue]
      rfl
    · show _ ++ calls reply (inOrder ts >>= _) = _
      rw [calls_bind, hvalue, hcalls]
      exact congrArg _ (List.append_nil _)

/-- Programs side by side that all succeed end with their values, whatever the order of their
calls. -/
theorem exec_tryJoin (schedule : List ℕ) {ts : List (Prog Q R (Except ε α))} {as : List α}
    (h : List.Forall₂ (fun t a => (exec reply t ()).1 = .ok a) ts as) :
    (exec reply (tryJoin schedule ts) ()).1 = .ok as ∧
      (calls reply (tryJoin schedule ts)).Perm (ts.flatMap (calls reply)) := by
  induction schedule generalizing ts with
  | nil =>
    obtain ⟨hvalue, hcalls⟩ := exec_inOrder h
    exact ⟨hvalue, hcalls ▸ .refl _⟩
  | cons i schedule ih =>
    cases ht : ts[i]? with
    | none =>
      rw [tryJoin, ht]
      exact ih h
    | some t =>
      cases t with
      | ret a =>
        rw [tryJoin, ht]
        exact ih h
      | call q k =>
        obtain ⟨hlt, hget⟩ := List.getElem?_eq_some_iff.1 ht
        obtain ⟨hlen, hall⟩ := List.forall₂_iff_get.1 h
        have hi : (exec reply (k (reply q ()).1) ()).1 = .ok (as.get ⟨i, by omega⟩) := by
          have hvalue := hall i hlt (by omega)
          rwa [show ts.get ⟨i, hlt⟩ = .call q k from hget] at hvalue
        have hset : List.Forall₂ (fun t a => (exec reply t ()).1 = .ok a)
            (ts.set i (k (reply q ()).1)) as := by
          refine List.forall₂_iff_get.2 ⟨by simpa using hlen, fun j hj hj' => ?_⟩
          by_cases hij : i = j
          · subst hij
            simpa using hi
          · have hvalue := hall j (by simpa using hj) hj'
            simpa [hij] using hvalue
        obtain ⟨rest, hjoin, hrests⟩ := tryJoin_call schedule ht
        have hstep : rest (reply q ()).1 = tryJoin schedule (ts.set i (k (reply q ()).1)) := by
          obtain ⟨e, heq, -⟩ | hgoes := hrests (reply q ()).1
          · rw [heq] at hi
            cases hi
          · exact hgoes
        obtain ⟨hvalue, hcalls⟩ := ih hset
        rw [hjoin]
        refine ⟨?_, ?_⟩
        · show (exec reply (rest (reply q ()).1) ()).1 = _
          rw [hstep]
          exact hvalue
        · show (q :: calls reply (rest (reply q ()).1)).Perm _
          rw [hstep]
          refine (hcalls.cons q).trans ?_
          -- the call moves from the front to its program
          rw [List.set_eq_take_append_cons_drop, if_pos hlt]
          conv_rhs => rw [← List.take_append_drop i ts, List.drop_eq_getElem_cons hlt, hget]
          simp only [List.flatMap_append, List.flatMap_cons, calls, List.cons_append]
          exact List.perm_middle.symm

end Lists

end Prog

end Interleaving
