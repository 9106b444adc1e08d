import BatMarkets.Interleaving.Shows

/-!
# Notes at every moment

`Prog.Shows` is about the notes of a run that ends with a value.  Programs side by side are dropped
when one of them fails, wherever they are, so what a failed run leaves behind depends on what each
of them has done up to some moment.  `Prog.Tallies obs Ψ Φ t` says that whenever `t` waits for a
reply its notes so far satisfy `Ψ`, and that at its end they satisfy `Φ` with the value.

## Main results

* `Tallies.attempt` : the rule for a step that may fail.
* `Tallies.mapM`, `Tallies.tryJoin` : programs in a row, or side by side, have noted together what
  each of them has noted.
* `Tallies.and_always` : notes of calls that have a property.
-/

namespace Interleaving

namespace Prog

variable {Q : Type} {R : Q → Type} {α β ε O : Type} {obs : Event Q R → Option O}
  {Ψ Ψ' : Multiset O → Prop} {Φ Φ' : Multiset O → α → Prop} {n : Multiset O}

/-- The note of an event, if there is one. -/
def noted (obs : Event Q R → Option O) (e : Event Q R) : Multiset O := ((obs e).toList : List O)

theorem noted_of_none {e : Event Q R} (h : obs e = none) : noted obs e = 0 := by
  rw [noted, h]
  rfl

/-- After the notes `n`, whatever the replies, the notes satisfy `Ψ` at every call, and `Φ` with the
value at the end. -/
def TalliesFrom (obs : Event Q R → Option O) (Ψ : Multiset O → Prop) (Φ : Multiset O → α → Prop) :
    Prog Q R α → Multiset O → Prop
  | .ret a, n => Φ n a
  | .call q k, n => Ψ n ∧ ∀ r, TalliesFrom obs Ψ Φ (k r) (n + noted obs ⟨q, r⟩)

/-- Whatever the replies, the notes satisfy `Ψ` at every call, and `Φ` with the value at the end. -/
def Tallies (obs : Event Q R → Option O) (Ψ : Multiset O → Prop) (Φ : Multiset O → α → Prop)
    (t : Prog Q R α) : Prop := TalliesFrom obs Ψ Φ t 0

theorem TalliesFrom.mono {t : Prog Q R α} (h : TalliesFrom obs Ψ Φ t n) (hΨ : ∀ n, Ψ n → Ψ' n)
    (hΦ : ∀ n a, Φ n a → Φ' n a) : TalliesFrom obs Ψ' Φ' t n := by
  induction t generalizing n with
  | ret a => exact hΦ n a h
  | call q k ih => exact ⟨hΨ n h.1, fun r => ih r (h.2 r)⟩

/-- The notes that were there before are left alone. -/
theorem TalliesFrom.frame {t : Prog Q R α} (h : TalliesFrom obs Ψ Φ t n) (n₀ : Multiset O) :
    TalliesFrom obs (fun n' => ∃ m, n' = n₀ + m ∧ Ψ m) (fun n' a => ∃ m, n' = n₀ + m ∧ Φ m a) t
      (n₀ + n) := by
  induction t generalizing n with
  | ret a => exact ⟨n, rfl, h⟩
  | call q k ih =>
    refine ⟨⟨n, rfl, h.1⟩, fun r => ?_⟩
    rw [add_assoc]
    exact ih r (h.2 r)

theorem TalliesFrom.bind {Φ : Multiset O → β → Prop} {t : Prog Q R α} {f : α → Prog Q R β}
    (h : TalliesFrom obs Ψ (fun n a => TalliesFrom obs Ψ Φ (f a) n) t n) :
    TalliesFrom obs Ψ Φ (t >>= f) n := by
  induction t generalizing n with
  | ret a => exact h
  | call q k ih => exact ⟨h.1, fun r => ih r (h.2 r)⟩

/-- What has been noted is satisfactory at the start already, if it is at the end. -/
theorem TalliesFrom.here {t : Prog Q R α} (h : TalliesFrom obs Ψ Φ t n)
    (hΦ : ∀ n a, Φ n a → Ψ n) : Ψ n := by
  cases t with
  | ret a => exact hΦ n a h
  | call q k => exact h.1

/-- What is noted in a complete run. -/
theorem TalliesFrom.of_ends {t : Prog Q R α} (h : TalliesFrom obs Ψ Φ t n)
    {τ τ' : List (Event Q R)} {a : α} (he : t.Ends τ τ' a)
    (hn : n = (τ.filterMap obs : List O)) : Φ (τ'.filterMap obs : List O) a := by
  induction he generalizing n with
  | ret a τ =>
    subst hn
    exact h
  | @call q k r τ τ' a _ ih =>
    refine ih (h.2 r) ?_
    rw [hn, noted]
    cases hobs : obs ⟨q, r⟩ with
    | none => simp [hobs]
    | some o =>
      rw [List.filterMap_cons, hobs, Option.toList_some, Multiset.coe_add]
      exact Multiset.coe_eq_coe.2 List.perm_append_comm

theorem Tallies.of_ends {t : Prog Q R α} (h : Tallies obs Ψ Φ t) {τ : List (Event Q R)} {a : α}
    (he : t.Ends [] τ a) : Φ (τ.filterMap obs : List O) a :=
  TalliesFrom.of_ends h he rfl

theorem Tallies.mono {t : Prog Q R α} (h : Tallies obs Ψ Φ t) (hΨ : ∀ n, Ψ n → Ψ' n)
    (hΦ : ∀ n a, Φ n a → Φ' n a) : Tallies obs Ψ' Φ' t :=
  TalliesFrom.mono h hΨ hΦ

/-- A program that goes on after the notes `n`. -/
theorem Tallies.after {t : Prog Q R α}
    (h : Tallies obs (fun m => Ψ (n + m)) (fun m a => Φ (n + m) a) t) :
    TalliesFrom obs Ψ Φ t n := by
  have hframe := TalliesFrom.frame h n
  rw [add_zero] at hframe
  refine hframe.mono ?_ ?_
  · rintro _ ⟨m, rfl, hm⟩
    exact hm
  · rintro _ a ⟨m, rfl, hm⟩
    exact hm

/-- What a specification says of the value as well. -/
theorem Tallies.and_spec {G : List (Event Q R) → Q → Prop} {Post : α → Prop} {t : Prog Q R α}
    (h : Tallies obs Ψ Φ t) {τ : List (Event Q R)} (ht : t.Spec G (fun _ a => Post a) τ) :
    Tallies obs Ψ (fun n a => Φ n a ∧ Post a) t := by
  have key : ∀ {t : Prog Q R α} {n : Multiset O} {τ : List (Event Q R)},
      TalliesFrom obs Ψ Φ t n → t.Spec G (fun _ a => Post a) τ →
      TalliesFrom obs Ψ (fun n a => Φ n a ∧ Post a) t n := by
    intro t
    induction t with
    | ret a => exact fun h ht => ⟨h, ht⟩
    | call q k ih => exact fun h ht => ⟨h.1, fun r => ih r (h.2 r) (ht.2 r)⟩
  exact key h ht

/-- The program may make the call, after others. -/
def Makes (t : Prog Q R α) (q : Q) : Prop := ∃ k, t.Residual (.call q k)

section Steps

variable {x : ExceptT ε (Prog Q R) α} {f : α → ExceptT ε (Prog Q R) β}
  {Φ : Multiset O → Except ε α → Prop} {Φ' : Multiset O → Except ε β → Prop}

/-- A step, and what follows unless the step fails. -/
theorem Tallies.attempt (hx : Tallies obs Ψ Φ x.run)
    (hf : ∀ n a, Φ n (.ok a) →
      Tallies obs (fun m => Ψ' (n + m)) (fun m r => Φ' (n + m) r) (f a).run)
    (hΨ : ∀ n, Ψ n → Ψ' n) (herror : ∀ n e, Φ n (.error e) → Φ' n (.error e)) :
    Tallies obs Ψ' Φ' (x >>= f).run := by
  rw [ExceptT.run_bind]
  refine TalliesFrom.bind (hx.mono hΨ fun n r hr => ?_)
  cases r with
  | ok a => exact (hf n a hr).after
  | error e => exact herror n e hr

/-- A step that is not noted. -/
theorem tallies_quiet {P : α → Prop} (hx : Yields (fun _ q => ∀ r, obs ⟨q, r⟩ = none) P x)
    (h : Ψ 0) : Tallies obs Ψ (fun n r => n = 0 ∧ ∀ a, r = .ok a → P a) x.run := by
  have key : ∀ {t : Prog Q R (Except ε α)} {τ : List (Event Q R)},
      t.Spec (fun _ q => ∀ r, obs ⟨q, r⟩ = none) (fun _ r => ∀ a, r = .ok a → P a) τ →
      Tallies obs Ψ (fun n r => n = 0 ∧ ∀ a, r = .ok a → P a) t := by
    intro t
    induction t with
    | ret r => exact fun hr => ⟨rfl, hr⟩
    | call q k ih =>
      refine fun hspec => ⟨h, fun r => ?_⟩
      rw [noted_of_none (hspec.1 r), add_zero]
      exact ih r (hspec.2 r)
  exact key (hx [])

/-- A step that is not noted, and what follows its value. -/
theorem Tallies.after_quiet {P : α → Prop}
    (hx : Yields (fun _ q => ∀ r, obs ⟨q, r⟩ = none) P x)
    (hf : ∀ a, P a → Tallies obs Ψ' Φ' (f a).run) (h : Ψ' 0) (herror : ∀ e, Φ' 0 (.error e)) :
    Tallies obs Ψ' Φ' (x >>= f).run := by
  refine Tallies.attempt (tallies_quiet hx h) ?_ (fun _ h => h) ?_
  · rintro n a ⟨rfl, ha⟩
    simpa only [zero_add] using hf a (ha a rfl)
  · rintro n e ⟨rfl, -⟩
    exact herror e

/-- A step whose value is only passed on. -/
theorem Tallies.map_ok {g : α → β} (hx : Tallies obs Ψ Φ x.run)
    (hΦ : ∀ n r, Φ n r → Φ' n (r.map g)) :
    Tallies obs Ψ Φ' (x >>= fun a => pure (g a)).run := by
  rw [ExceptT.run_bind]
  refine TalliesFrom.bind (hx.mono (fun _ h => h) fun n r hr => ?_)
  cases r with
  | ok a => exact hΦ n _ hr
  | error e => exact hΦ n _ hr

end Steps

/-! ### In a row, and side by side -/

section Joint

variable {γ : Type} {Ψs : γ → Multiset O → Prop} {Φs : γ → Multiset O → Except ε α → Prop}

/-- A program with what it has noted and the value it has ended with. -/
structure Ended (γ O α : Type) where
  program : γ
  notes : Multiset O
  value : α

/-- The programs have ended, each with its value and its notes. -/
def AllEnded (Φs : γ → Multiset O → Except ε α → Prop) (cs : List γ) (n : Multiset O)
    (as : List α) : Prop :=
  ∃ ends : List (Ended γ O α), ends.map (·.program) = cs ∧ ends.map (·.value) = as ∧
    n = (ends.map (·.notes)).sum ∧ ∀ e ∈ ends, Φs e.program e.notes (.ok e.value)

/-- The programs have noted as much as `Θ` permits each of them. -/
def AllNoted (Θ : γ → Multiset O → Prop) (cs : List γ) (n : Multiset O) : Prop :=
  ∃ parts : List (γ × Multiset O), parts.map (·.1) = cs ∧ n = (parts.map (·.2)).sum ∧
    ∀ p ∈ parts, Θ p.1 p.2

/-- One program has failed; what the others have noted `Θ` permits. -/
def OneFailed (Θ : γ → Multiset O → Prop) (Φs : γ → Multiset O → Except ε α → Prop) (cs : List γ)
    (n : Multiset O) (e : ε) : Prop :=
  ∃ parts : List (γ × Multiset O), parts.map (·.1) = cs ∧ n = (parts.map (·.2)).sum ∧
    (∀ p ∈ parts, Θ p.1 p.2) ∧ ∃ p ∈ parts, Φs p.1 p.2 (.error e)

/-- What programs have noted together at their end. -/
def Jointly (Θ : γ → Multiset O → Prop) (Φs : γ → Multiset O → Except ε α → Prop) (cs : List γ)
    (n : Multiset O) : Except ε (List α) → Prop
  | .ok as => AllEnded Φs cs n as
  | .error e => OneFailed Θ Φs cs n e

variable {Θ : γ → Multiset O → Prop}

theorem AllNoted.cons {c : γ} {cs : List γ} {m : Multiset O} (hm : Θ c m)
    (h : AllNoted Θ cs n) : AllNoted Θ (c :: cs) (m + n) := by
  obtain ⟨parts, rfl, rfl, hall⟩ := h
  refine ⟨(c, m) :: parts, rfl, rfl, fun p hp => ?_⟩
  rcases List.mem_cons.1 hp with rfl | hp
  · exact hm
  · exact hall p hp

theorem AllNoted.nil : AllNoted Θ ([] : List γ) (0 : Multiset O) := ⟨[], rfl, rfl, by simp⟩

/-- Programs that have not begun have noted nothing. -/
theorem allNoted_zero {cs : List γ} (h : ∀ c ∈ cs, Θ c 0) : AllNoted Θ cs (0 : Multiset O) := by
  induction cs with
  | nil => exact .nil
  | cons c cs ih =>
    have hrest := ih fun d hd => h d (by simp [hd])
    simpa using hrest.cons (h c (by simp))

theorem AllEnded.cons {c : γ} {cs : List γ} {m : Multiset O} {a : α} {as : List α}
    (hm : Φs c m (.ok a)) (h : AllEnded Φs cs n as) : AllEnded Φs (c :: cs) (m + n) (a :: as) := by
  obtain ⟨ends, rfl, rfl, rfl, hall⟩ := h
  refine ⟨⟨c, m, a⟩ :: ends, rfl, rfl, rfl, fun e he => ?_⟩
  rcases List.mem_cons.1 he with rfl | he
  · exact hm
  · exact hall e he

theorem OneFailed.head {c : γ} {cs : List γ} {m : Multiset O} {e : ε} (hm : Θ c m)
    (hfail : Φs c m (.error e)) (h : AllNoted Θ cs n) : OneFailed Θ Φs (c :: cs) (m + n) e := by
  obtain ⟨parts, hcs, hn, hall⟩ := h.cons hm
  obtain ⟨parts', rfl, rfl, hall'⟩ := h
  refine ⟨(c, m) :: parts', rfl, rfl, fun p hp => ?_, (c, m), by simp, hfail⟩
  rcases List.mem_cons.1 hp with rfl | hp
  · exact hm
  · exact hall' p hp

theorem OneFailed.cons {c : γ} {cs : List γ} {m : Multiset O} {e : ε} (hm : Θ c m)
    (h : OneFailed Θ Φs cs n e) : OneFailed Θ Φs (c :: cs) (m + n) e := by
  obtain ⟨parts, rfl, rfl, hall, p, hp, hfail⟩ := h
  refine ⟨(c, m) :: parts, rfl, rfl, fun q hq => ?_, p, by simp [hp], hfail⟩
  rcases List.mem_cons.1 hq with rfl | hq
  · exact hm
  · exact hall q hq

theorem Jointly.cons {c : γ} {cs : List γ} {m : Multiset O} {a : α} {r : Except ε (List α)}
    (hm : Φs c m (.ok a)) (hΘ : ∀ c m a, Φs c m (.ok a) → Θ c m) (h : Jointly Θ Φs cs n r) :
    Jointly Θ Φs (c :: cs) (m + n) (r.map (a :: ·)) := by
  cases r with
  | ok as => exact AllEnded.cons hm h
  | error e => exact OneFailed.cons (hΘ _ _ _ hm) h

/-- In a row each program begins when those before it have ended. -/
theorem Tallies.mapM {f : γ → ExceptT ε (Prog Q R) α} {cs : List γ}
    (h : ∀ c ∈ cs, Tallies obs (Ψs c) (Φs c) (f c).run) (hzero : ∀ c ∈ cs, Ψs c 0)
    (hΘzero : ∀ c ∈ cs, Θ c 0) (hΨ : ∀ c m r, Φs c m r → Ψs c m)
    (hΘ : ∀ c m r, Φs c m r → Θ c m) :
    Tallies obs (AllNoted Ψs cs) (Jointly Θ Φs cs) (cs.mapM f).run := by
  induction cs with
  | nil => exact ⟨[], rfl, rfl, rfl, by simp⟩
  | cons c cs ih =>
    have hrest := ih (fun d hd => h d (by simp [hd])) (fun d hd => hzero d (by simp [hd]))
      fun d hd => hΘzero d (by simp [hd])
    rw [List.mapM_cons]
    refine Tallies.attempt (h c (by simp)) (fun m a ha => ?_) (fun m hm => ?_) fun m e he => ?_
    · refine Tallies.map_ok (hrest.mono (fun n hn => ?_) fun n r hr => ?_) fun n r hr => hr
      · exact hn.cons (hΨ _ _ _ ha)
      · exact Jointly.cons ha (fun c m a => hΘ c m _) hr
    · have hnone := allNoted_zero (Θ := Ψs) fun d hd => hzero d (List.mem_cons_of_mem c hd)
      simpa using hnone.cons hm
    · have hnone := allNoted_zero (Θ := Θ) fun d hd => hΘzero d (List.mem_cons_of_mem c hd)
      have hfail := OneFailed.head (hΘ _ _ _ he) he hnone
      rwa [add_zero] at hfail

/-- The programs have noted what they may have noted by now. -/
theorem permitted_of_forall₂ {parts : List (γ × Multiset O)} {ts : List (Prog Q R (Except ε α))}
    (hΨ : ∀ c m r, Φs c m r → Ψs c m)
    (h : List.Forall₂ (fun p t => TalliesFrom obs (Ψs p.1) (Φs p.1) t p.2) parts ts) :
    ∀ p ∈ parts, Ψs p.1 p.2 := by
  induction h with
  | nil => simp
  | @cons p t parts ts ht _ ih =>
    intro p' hp'
    rcases List.mem_cons.1 hp' with rfl | hp'
    · exact ht.here (hΨ _)
    · exact ih p' hp'

theorem talliesFrom_inOrder {parts : List (γ × Multiset O)} {ts : List (Prog Q R (Except ε α))}
    (hΨ : ∀ c m r, Φs c m r → Ψs c m)
    (h : List.Forall₂ (fun p t => TalliesFrom obs (Ψs p.1) (Φs p.1) t p.2) parts ts) :
    TalliesFrom obs (AllNoted Ψs (parts.map (·.1))) (Jointly Ψs Φs (parts.map (·.1))) (inOrder ts)
      (parts.map (·.2)).sum := by
  induction h with
  | nil => exact ⟨[], rfl, rfl, rfl, by simp⟩
  | @cons p t parts ts ht hrest ih =>
    have hnoted : AllNoted Ψs (parts.map (·.1)) (parts.map (·.2)).sum :=
      ⟨parts, rfl, rfl, permitted_of_forall₂ hΨ hrest⟩
    rw [List.map_cons, List.map_cons, List.sum_cons, add_comm]
    refine TalliesFrom.bind ((ht.frame _).mono ?_ ?_)
    · rintro _ ⟨m, rfl, hm⟩
      rw [add_comm]
      exact hnoted.cons hm
    · rintro _ r ⟨m, rfl, hr⟩
      rw [add_comm]
      cases r with
      | error e => exact OneFailed.head (hΨ _ _ _ hr) hr hnoted
      | ok a =>
        refine TalliesFrom.bind ((ih.frame m).mono ?_ ?_)
        · rintro _ ⟨n, rfl, hn⟩
          exact hn.cons (hΨ _ _ _ hr)
        · rintro _ s ⟨n, rfl, hs⟩
          have hjoint := Jointly.cons hr (fun c m a => hΨ c m _) hs
          cases s with
          | error e => exact hjoint
          | ok as => exact hjoint

theorem talliesFrom_tryJoin (schedule : List ℕ) {parts : List (γ × Multiset O)}
    {ts : List (Prog Q R (Except ε α))} (hΨ : ∀ c m r, Φs c m r → Ψs c m)
    (h : List.Forall₂ (fun p t => TalliesFrom obs (Ψs p.1) (Φs p.1) t p.2) parts ts) :
    TalliesFrom obs (AllNoted Ψs (parts.map (·.1))) (Jointly Ψs Φs (parts.map (·.1)))
      (Prog.tryJoin schedule ts) (parts.map (·.2)).sum := by
  induction schedule generalizing ts parts with
  | nil => exact talliesFrom_inOrder hΨ h
  | cons i schedule ih =>
    cases ht : ts[i]? with
    | none =>
      rw [Prog.tryJoin, ht]
      exact ih h
    | some t =>
      cases t with
      | ret a =>
        rw [Prog.tryJoin, ht]
        exact ih h
      | call q k =>
        obtain ⟨rest, hjoin, hrests⟩ := tryJoin_call schedule ht
        rw [hjoin]
        obtain ⟨hi, hget⟩ := List.getElem?_eq_some_iff.1 ht
        have hlen := h.length_eq
        have hpart : i < parts.length := by omega
        have hcall : TalliesFrom obs (Ψs parts[i].1) (Φs parts[i].1) (.call q k) parts[i].2 := by
          have hall := (List.forall₂_iff_get.1 h).2 i hpart hi
          rwa [List.get_eq_getElem, List.get_eq_getElem, hget] at hall
        refine ⟨⟨parts, rfl, rfl, permitted_of_forall₂ hΨ h⟩, fun r => ?_⟩
        -- the program that has got its reply has noted the call
        have hset : List.Forall₂ (fun p t => TalliesFrom obs (Ψs p.1) (Φs p.1) t p.2)
            (parts.set i (parts[i].1, noted obs ⟨q, r⟩ + parts[i].2)) (ts.set i (k r)) := by
          refine List.forall₂_iff_get.2 ⟨by simpa using hlen, fun j hj hj' => ?_⟩
          by_cases hij : i = j
          · subst hij
            simpa [add_comm] using hcall.2 r
          · have hall := (List.forall₂_iff_get.1 h).2 j (by simpa using hj) (by simpa using hj')
            simpa [hij] using hall
        have hprograms : (parts.set i (parts[i].1, noted obs ⟨q, r⟩ + parts[i].2)).map (·.1) =
            parts.map (·.1) := by
          rw [List.map_set]
          have hlt : i < (parts.map (·.1)).length := by simpa using hpart
          have hself : (parts.map (·.1)).set i (parts.map (·.1))[i] = parts.map (·.1) :=
            List.set_getElem_self hlt
          rwa [List.getElem_map] at hself
        have hnotes : ((parts.set i (parts[i].1, noted obs ⟨q, r⟩ + parts[i].2)).map (·.2)).sum =
            noted obs ⟨q, r⟩ + (parts.map (·.2)).sum := by
          have hsum := sum_set_add (parts.map (·.2)) (by simpa using hpart) (noted obs ⟨q, r⟩)
          rw [List.getElem_map] at hsum
          rw [List.map_set, hsum]
        have hrest := ih hset
        rw [hprograms, hnotes] at hrest
        rw [add_comm]
        obtain ⟨e, hfail, hfailed⟩ | hgoes := hrests r
        · have hstep := hcall.2 r
          rw [hfail, add_comm] at hstep
          rw [hfailed]
          exact ⟨_, hprograms, hnotes.symm, permitted_of_forall₂ hΨ hset, _,
            List.mem_set hpart _, hstep⟩
        · rw [hgoes]
          exact hrest

/-- Programs side by side are dropped when one of them fails, wherever they are. -/
theorem Tallies.tryJoin (schedule : List ℕ) {f : γ → Prog Q R (Except ε α)} {cs : List γ}
    (h : ∀ c ∈ cs, Tallies obs (Ψs c) (Φs c) (f c)) (hΨ : ∀ c m r, Φs c m r → Ψs c m) :
    Tallies obs (AllNoted Ψs cs) (Jointly Ψs Φs cs) (Prog.tryJoin schedule (cs.map f)) := by
  have hstart : List.Forall₂ (fun p t => TalliesFrom obs (Ψs p.1) (Φs p.1) t p.2)
      (cs.map fun c => (c, (0 : Multiset O))) (cs.map f) := by
    rw [List.forall₂_map_left_iff, List.forall₂_map_right_iff, List.forall₂_same]
    exact h
  have hjoin := talliesFrom_tryJoin schedule hΨ hstart
  have hsum : (cs.map fun _ => (0 : Multiset O)).sum = 0 := List.sum_eq_zero (by simp)
  rwa [List.map_map, List.map_map, Function.comp_def, Function.comp_def, List.map_id', hsum]
    at hjoin

end Joint

end Prog

end Interleaving
