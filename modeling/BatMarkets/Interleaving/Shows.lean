import BatMarkets.Interleaving.Observe

/-!
# What the values of programs show

Programs that run side by side make their calls in any order, so what an observer notes of a run
says nothing about the order of the notes of different programs.  `Prog.Shows obs ev x` says of a
program that may fail that its notes, when it ends with the value `a`, are those of `ev a` in some
order.  Nothing is said of the runs in which it fails.

`Prog.Grows` is about the calls that may only be made after others: what is required of a call by the
trace so far must not be lost when the trace grows.

## Main results

* `Shows.mapM`, `Shows.tryJoin` : the notes of programs in a row, or side by side, are those of their
  values.
* `Always.tryJoin_of_grows` : programs side by side make each call after those it requires.
-/

namespace Interleaving

namespace Prog

variable {Q : Type} {R : Q → Type} {α β ε O : Type} {obs : Event Q R → Option O}

/-- What is reported does not depend on the trace at the start. -/
theorem reports_of_spec {Φ : List O → α → Prop} {t : Prog Q R α} {τ : List (Event Q R)}
    (h : t.Spec (fun _ _ => True)
      (fun τ' a => ∃ os, τ'.filterMap obs = os ++ τ.filterMap obs ∧ Φ os a) τ) :
    t.Reports obs Φ := by
  intro σ
  have key : ∀ (t : Prog Q R α) (shown : List O) {τ' σ' : List (Event Q R)},
      τ'.filterMap obs = shown ++ τ.filterMap obs → σ'.filterMap obs = shown ++ σ.filterMap obs →
      t.Spec (fun _ _ => True)
        (fun τ' a => ∃ os, τ'.filterMap obs = os ++ τ.filterMap obs ∧ Φ os a) τ' →
      t.Spec (fun _ _ => True)
        (fun σ' a => ∃ os, σ'.filterMap obs = os ++ σ.filterMap obs ∧ Φ os a) σ' := by
    intro t
    induction t with
    | ret a =>
      rintro shown τ' σ' hτ' hσ' ⟨os, hos, ha⟩
      obtain rfl : shown = os := List.append_cancel_right (hτ'.symm.trans hos)
      exact ⟨shown, hσ', ha⟩
    | call q k ih =>
      intro shown τ' σ' hτ' hσ' hspec
      refine ⟨trivial, fun r => ?_⟩
      refine ih r ((obs ⟨q, r⟩).toList ++ shown) ?_ ?_ (hspec.2 r)
      · rw [List.filterMap_cons, hτ']
        cases obs ⟨q, r⟩ <;> simp
      · rw [List.filterMap_cons, hσ']
        cases obs ⟨q, r⟩ <;> simp
  exact key t [] rfl rfl h

/-- What is left of a program reports what the program does, after the note of its call. -/
theorem Reports.residual {Φ : List O → α → Prop} {q : Q} {k : R q → Prog Q R α}
    (h : (Prog.call q k).Reports obs Φ) (r : R q) :
    (k r).Reports obs fun os a => Φ (os ++ (obs ⟨q, r⟩).toList) a := by
  refine reports_of_spec (τ := [⟨q, r⟩]) ?_
  refine (((h []).2 r).and (spec_suffix (k r) [⟨q, r⟩])).mono (fun _ _ _ => trivial) ?_
  rintro τ' a ⟨⟨os, hos, ha⟩, σ, rfl⟩
  refine ⟨σ.filterMap obs, List.filterMap_append, ?_⟩
  have hnote : [(⟨q, r⟩ : Event Q R)].filterMap obs = (obs ⟨q, r⟩).toList := by
    cases hobs : obs ⟨q, r⟩ <;> simp [hobs]
  rw [List.filterMap_nil, List.append_nil, List.filterMap_append, hnote] at hos
  rwa [hos]

/-- The notes of a run that ends with a value are those of the value, in some order. -/
def Shows (obs : Event Q R → Option O) (ev : α → Multiset O) (x : ExceptT ε (Prog Q R) α) : Prop :=
  x.run.Reports obs fun os r => ∀ a, r = .ok a → (os : Multiset O) = ev a

variable {ev : α → Multiset O} {ev' : β → Multiset O} {x : ExceptT ε (Prog Q R) α}

/-- What is reported, together with what the value satisfies. -/
theorem Reports.and_yields {Φ : List O → Except ε α → Prop} {P : α → Prop}
    (hx : x.run.Reports obs Φ) (hP : Yields (fun _ _ => True) P x) :
    x.run.Reports obs fun os r => Φ os r ∧ ∀ a, r = .ok a → P a := by
  refine fun τ => ((hx τ).and (hP τ)).mono (fun _ _ h => h) fun τ' r hr => ?_
  obtain ⟨⟨os, hos, hΦ⟩, hP⟩ := hr
  exact ⟨os, hos, hΦ, hP⟩

/-- What the values of a list show together. -/
def showAll (ev : α → Multiset O) (as : List α) : Multiset O := (as.map ev).sum

@[simp] theorem showAll_nil : showAll ev [] = 0 := rfl

@[simp] theorem showAll_cons (a : α) (as : List α) :
    showAll ev (a :: as) = ev a + showAll ev as := by
  rw [showAll, List.map_cons, List.sum_cons, ← showAll]

@[simp] theorem showAll_append (as bs : List α) :
    showAll ev (as ++ bs) = showAll ev as + showAll ev bs := by
  rw [showAll, List.map_append, List.sum_append, ← showAll, ← showAll]

theorem mem_showAll {as : List α} {o : O} : o ∈ showAll ev as ↔ ∃ a ∈ as, o ∈ ev a := by
  induction as with
  | nil => simp
  | cons a as ih => simp [ih]

theorem showAll_flatMap (f : β → List α) (bs : List β) :
    showAll ev (bs.flatMap f) = showAll (fun b => showAll ev (f b)) bs := by
  induction bs with
  | nil => rfl
  | cons b bs ih => rw [List.flatMap_cons, showAll_append, showAll_cons, ih]

theorem showAll_perm {as bs : List α} (h : as.Perm bs) : showAll ev as = showAll ev bs :=
  (h.map ev).sum_eq

/-- A step that shows nothing. -/
theorem Shows.after_quiet {f : α → ExceptT ε (Prog Q R) β} (hx : x.run.Quiet obs)
    (hf : ∀ a, Shows obs ev' (f a)) : Shows obs ev' (x >>= f) :=
  Reports.quiet_attempt hx hf fun _ _ h => (nomatch h)

/-- A step that shows nothing, and what follows its value. -/
theorem Shows.after_quiet_yields {P : α → Prop} {f : α → ExceptT ε (Prog Q R) β}
    (hx : x.run.Quiet obs) (hP : Yields (fun _ _ => True) P x)
    (hf : ∀ a, P a → Shows obs ev' (f a)) : Shows obs ev' (x >>= f) := by
  refine Reports.attempt (Reports.and_yields hx hP) (fun os a ha => ?_) fun os e _ b hb => nomatch hb
  obtain ⟨rfl, ha⟩ := ha
  simp only [List.append_nil]
  exact hf a (ha a rfl)

theorem shows_throw (e : ε) : Shows obs ev (throw e : ExceptT ε (Prog Q R) α) :=
  reports_ret fun _ h => (nomatch h)

/-- Steps in a row show what their values show. -/
theorem Shows.mapM {γ : Type} {f : γ → ExceptT ε (Prog Q R) α} {cs : List γ}
    (h : ∀ c ∈ cs, Shows obs ev (f c)) :
    Shows obs (showAll ev) (cs.mapM f) := by
  induction cs with
  | nil =>
    refine reports_ret fun as has => ?_
    obtain rfl : [] = as := Except.ok.inj has
    rfl
  | cons c cs ih =>
    rw [List.mapM_cons]
    refine Reports.attempt (h c (by simp)) (fun os a ha => ?_) fun os e _ b hb => (nomatch hb)
    refine Reports.map_ok (ih fun d hd => h d (by simp [hd])) fun os' r hr as has => ?_
    cases r with
    | error e => cases has
    | ok bs =>
      obtain rfl : a :: bs = as := Except.ok.inj has
      rw [← Multiset.coe_add, hr bs rfl, ha a rfl, showAll_cons, add_comm]

/-! ### Side by side -/

/-- What is left of a program shows what its value shows, except what has been shown already. -/
def ShowsAfter (obs : Event Q R → Option O) (ev : α → Multiset O) (shown : Multiset O)
    (t : Prog Q R (Except ε α)) : Prop :=
  t.Reports obs fun os r => ∀ a, r = .ok a → (os : Multiset O) + shown = ev a

theorem showsAfter_inOrder {ts : List (Prog Q R (Except ε α))} {shown : List (Multiset O)}
    (h : List.Forall₂ (ShowsAfter obs ev) shown ts) :
    ShowsAfter obs (showAll ev) shown.sum (inOrder ts) := by
  induction h with
  | nil =>
    refine reports_ret fun as has => ?_
    obtain rfl : [] = as := Except.ok.inj has
    rfl
  | @cons done t shown ts ht _ ih =>
    refine Reports.bind ht fun os r hr => ?_
    cases r with
    | error e => exact reports_ret fun _ h => (nomatch h)
    | ok a =>
      refine Reports.bind ih fun os' r' hr' => ?_
      cases r' with
      | error e => exact reports_ret fun _ h => (nomatch h)
      | ok as =>
        refine reports_ret fun bs hbs => ?_
        obtain rfl : a :: as = bs := Except.ok.inj hbs
        rw [showAll_cons, ← hr' as rfl, ← hr a rfl, List.sum_cons, List.nil_append,
          ← Multiset.coe_add]
        rw [add_comm (os' : Multiset O), add_add_add_comm]

theorem sum_set_add {M : Type} [AddCommMonoid M] (ms : List M) {i : ℕ} (hi : i < ms.length) (m : M) :
    (ms.set i (m + ms[i])).sum = m + ms.sum := by
  induction ms generalizing i with
  | nil => simp at hi
  | cons n ms ih =>
    cases i with
    | zero => simp [add_assoc]
    | succ i =>
      have hi : i < ms.length := by simpa using hi
      rw [List.set_cons_succ, List.sum_cons, List.sum_cons, List.getElem_cons_succ, ih hi]
      exact add_left_comm _ _ _

theorem showsAfter_tryJoin (schedule : List ℕ) {ts : List (Prog Q R (Except ε α))}
    {shown : List (Multiset O)} (h : List.Forall₂ (ShowsAfter obs ev) shown ts) :
    ShowsAfter obs (showAll ev) shown.sum (tryJoin schedule ts) := by
  induction schedule generalizing ts shown with
  | nil => exact showsAfter_inOrder h
  | cons i schedule ih =>
    cases ht : ts[i]? with
    | none =>
      rw [tryJoin, ht]
      exact ih h
    | some t =>
      cases t with
      | ret a =>
        rw [tryJoin, ht]
        exact ih h
      | call q k =>
        obtain ⟨rest, hjoin, hrests⟩ := tryJoin_call schedule ht
        rw [hjoin]
        obtain ⟨hi, hget⟩ := List.getElem?_eq_some_iff.1 ht
        have hlen := h.length_eq
        have hshown : i < shown.length := by omega
        have hcall : ShowsAfter obs ev shown[i] (.call q k) := by
          have hall := (List.forall₂_iff_get.1 h).2 i hshown hi
          rwa [List.get_eq_getElem, List.get_eq_getElem, hget] at hall
        refine reports_call fun r => ?_
        have hstep : ShowsAfter obs ev ((obs ⟨q, r⟩).toList + shown[i]) (k r) := by
          refine (hcall.residual r).mono fun os r' hr a ha => ?_
          rw [← add_assoc, Multiset.coe_add]
          exact hr a ha
        have hset : List.Forall₂ (ShowsAfter obs ev)
            (shown.set i ((obs ⟨q, r⟩).toList + shown[i])) (ts.set i (k r)) := by
          refine List.forall₂_iff_get.2 ⟨by simpa using hlen, fun j hj hj' => ?_⟩
          by_cases hij : i = j
          · subst hij
            simpa using hstep
          · have hall := (List.forall₂_iff_get.1 h).2 j (by simpa using hj) (by simpa using hj')
            simpa [hij] using hall
        have hrest := ih hset
        rw [sum_set_add shown hshown] at hrest
        obtain ⟨e, -, hfailed⟩ | hgoes := hrests r
        · rw [hfailed]
          refine reports_ret fun _ h => ?_
          cases h
        · rw [hgoes]
          refine Reports.mono hrest fun os r' hr as has => ?_
          rw [← hr as has, ← Multiset.coe_add, add_assoc]

/-- Programs side by side show what their values show. -/
theorem Shows.tryJoin (schedule : List ℕ) {ts : List (Prog Q R (Except ε α))}
    (h : ∀ t ∈ ts, Shows obs ev (ExceptT.mk t)) :
    Shows obs (showAll ev) (ExceptT.mk (Prog.tryJoin schedule ts)) := by
  have hnone : List.Forall₂ (ShowsAfter obs ev) (ts.map fun _ => 0) ts := by
    rw [List.forall₂_map_left_iff, List.forall₂_same]
    intro t ht
    refine Reports.mono (h t ht) fun os r hr a ha => ?_
    rw [add_zero]
    exact hr a ha
  refine Reports.mono (showsAfter_tryJoin schedule hnone) fun os r hr as has => ?_
  have hzero : (ts.map fun _ => (0 : Multiset O)).sum = 0 := List.sum_eq_zero (by simp)
  rw [← hr as has, hzero, add_zero]

/-! ### Calls that require others -/

variable {G : List (Event Q R) → Q → Prop}

/-- What the trace permits it still permits when it has grown. -/
def Grows (G : List (Event Q R) → Q → Prop) : Prop := ∀ ⦃τ τ'⦄, τ ⊆ τ' → ∀ q, G τ q → G τ' q

theorem Spec.grow (hG : Grows G) {t : Prog Q R α} {τ τ' : List (Event Q R)} (hτ : τ ⊆ τ')
    (h : t.Spec G (fun _ _ => True) τ) : t.Spec G (fun _ _ => True) τ' := by
  induction t generalizing τ τ' with
  | ret a => trivial
  | call q k ih => exact ⟨hG hτ q h.1, fun r => ih r (List.cons_subset_cons _ hτ) (h.2 r)⟩

/-- Programs side by side make permitted calls, if each of them does. -/
theorem Always.tryJoin_of_grows (hG : Grows G) (schedule : List ℕ)
    {ts : List (Prog Q R (Except ε α))} (h : ∀ t ∈ ts, t.Always G) :
    (Prog.tryJoin schedule ts).Always G := by
  have hinOrder : ∀ (ts : List (Prog Q R (Except ε α))) (τ : List (Event Q R)),
      (∀ t ∈ ts, t.Spec G (fun _ _ => True) τ) →
        (Prog.inOrder ts).Spec G (fun _ _ => True) τ := by
    intro ts
    induction ts with
    | nil => exact fun _ _ => trivial
    | cons t ts ih =>
      intro τ h
      refine spec_bind.2 (((h t (by simp)).and (spec_suffix t τ)).mono (fun _ _ h => h) ?_)
      rintro τ' r ⟨-, hτ'⟩
      cases r with
      | error e => trivial
      | ok a =>
        refine spec_bind.2 ((ih τ' fun u hu => ?_).mono (fun _ _ h => h) fun τ'' s _ => ?_)
        · exact (h u (by simp [hu])).grow hG hτ'.subset
        · cases s <;> trivial
  have hjoin : ∀ (schedule : List ℕ) (ts : List (Prog Q R (Except ε α))) (τ : List (Event Q R)),
      (∀ t ∈ ts, t.Spec G (fun _ _ => True) τ) →
        (Prog.tryJoin schedule ts).Spec G (fun _ _ => True) τ := by
    intro schedule
    induction schedule with
    | nil => exact hinOrder
    | cons i schedule ih =>
      intro ts τ h
      cases ht : ts[i]? with
      | none =>
        rw [Prog.tryJoin, ht]
        exact ih ts τ h
      | some t =>
        cases t with
        | ret a =>
          rw [Prog.tryJoin, ht]
          exact ih ts τ h
        | call q k =>
          obtain ⟨rest, hjoin, hrests⟩ := tryJoin_call schedule ht
          rw [hjoin]
          obtain ⟨hcall, hrest⟩ := h _ (List.mem_of_getElem? ht)
          refine ⟨hcall, fun r => ?_⟩
          obtain ⟨e, -, hfailed⟩ | hgoes := hrests r
          · rw [hfailed]
            trivial
          · rw [hgoes]
            refine ih _ _ fun u hu => ?_
            obtain hu | rfl := List.mem_or_eq_of_mem_set hu
            · exact (h u hu).grow hG (List.subset_cons_self _ _)
            · exact hrest r
  exact fun τ => hjoin schedule ts τ fun t ht => h t ht τ

end Prog

end Interleaving
