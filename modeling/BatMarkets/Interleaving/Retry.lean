import BatMarkets.Interleaving.Observe

/-!
# Retrying

A program that may fail is run again, after a pause, as long as it fails with an error that is worth
another attempt and the attempts are not used up.  An observer who notes every attempt with its
outcome, and every pause, sees the failed attempts with a pause after each, and then the attempt
whose outcome is the value of the whole.

## Main results

* `reports_retry` : what is seen of a program that is retried, which is attempted as often as is
  allowed only while it fails with errors worth it (`Retried`).
-/

namespace Interleaving

namespace Prog

variable {Q : Type} {R : Q → Type} {α ε O : Type}

/-- Run `f`, and again after a pause while it fails with an error worth it, at most `left` times
more.  So far it has failed `n` times. -/
def retry (again : ε → Bool) (pause : ℕ → Prog Q R Unit) (f : Prog Q R (Except ε α)) :
    ℕ → ℕ → Prog Q R (Except ε α)
  | 0, _ => f
  | left + 1, n => f >>= fun
    | .ok a => .ret (.ok a)
    | .error e =>
      if again e then pause (n + 1) >>= fun _ => retry again pause f left (n + 1)
      else .ret (.error e)

/-- These attempts failed before the last one, of at most `limit` that may fail and be repeated. -/
structure Retried (again : ε → Bool) (limit : ℕ) (failures : List ε) (last : Except ε α) :
    Prop where
  worth : ∀ e ∈ failures, again e = true
  length_le : failures.length ≤ limit
  /-- The last attempt is not the last without a reason. -/
  usedUp : ∀ e, last = .error e → again e = true → failures.length = limit

/-- What is noted of the attempts, in their order. -/
def retryNotes (attempt : Except ε α → O) (paused : ℕ → O) (last : Except ε α) :
    ℕ → List ε → List O
  | _, [] => [attempt last]
  | n, e :: failures =>
    attempt (.error e) :: paused (n + 1) :: retryNotes attempt paused last (n + 1) failures

variable {again : ε → Bool} {limit : ℕ} {failures : List ε} {last : Except ε α}

theorem Retried.cons {e : ε} (h : Retried again limit failures last) (he : again e = true) :
    Retried again (limit + 1) (e :: failures) last where
  worth := List.forall_mem_cons.2 ⟨he, h.worth⟩
  length_le := Nat.succ_le_succ h.length_le
  usedUp := fun e' hlast hagain => congrArg Nat.succ (h.usedUp e' hlast hagain)

/-- An attempt that is not followed by another one. -/
theorem retried_nil (h : ∀ e, last = .error e → again e = true → limit = 0) :
    Retried again limit [] last where
  worth := fun _ he => by cases he
  length_le := Nat.zero_le _
  usedUp := fun e hlast hagain => (h e hlast hagain).symm

/-- What is seen of a program that is retried. -/
theorem reports_retry {obs : Event Q R → Option O} {attempt : Except ε α → O} {paused : ℕ → O}
    {pause : ℕ → Prog Q R Unit} {f : Prog Q R (Except ε α)}
    (hf : f.Reports obs fun os r => os = [attempt r])
    (hpause : ∀ k, (pause k).Reports obs fun os _ => os = [paused k]) (left n : ℕ) :
    (retry again pause f left n).Reports obs fun os r =>
      ∃ failures, Retried again left failures r ∧
        os.reverse = retryNotes attempt paused r n failures := by
  induction left generalizing n with
  | zero =>
    refine hf.mono fun os r hos => ⟨[], retried_nil fun _ _ _ => rfl, ?_⟩
    rw [hos]
    rfl
  | succ left ih =>
    rw [retry]
    refine hf.bind fun os r hos => ?_
    cases r with
    | ok a =>
      refine reports_ret ⟨[], retried_nil (fun e hlast => ?_), ?_⟩
      · cases hlast
      · rw [hos]
        rfl
    | error e =>
      dsimp only
      split
      · next hagain =>
        refine (hpause (n + 1)).bind fun os' _ hos' => ?_
        refine (ih (n + 1)).mono fun os'' r hr => ?_
        obtain ⟨failures, hretried, hnotes⟩ := hr
        refine ⟨e :: failures, hretried.cons hagain, ?_⟩
        rw [hos, hos', List.append_assoc, List.reverse_append, hnotes]
        rfl
      · next hagain =>
        refine reports_ret ⟨[], retried_nil (fun e' hlast hagain' => ?_), ?_⟩
        · cases hlast
          exact absurd hagain' hagain
        · rw [hos]
          rfl

end Prog

end Interleaving
