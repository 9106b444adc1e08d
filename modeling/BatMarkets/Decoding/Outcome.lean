import Mathlib.Algebra.BigOperators.Group.List.Basic
import Mathlib.Data.List.Forall2

/-!
# What decoding comes to

A decoder reads one value after another.  It stops at the first value that it refuses, or that makes
it panic; some values it reads, but not as what they are.  The outcomes of two parts of a message,
one read after the other, have a product, and so the outcome of a message is the product of those of
its parts.

`Follows` relates a decoder to the outcome of what it reads: it fails as the outcome says, and what
it returns is right exactly if all parts have been read as what they are.

## Main results

* `Follows.bind`, `Follows.mapM` : decoders of several parts.
* `Follows.sound_iff` : when a decoder does not panic, and returns only what is right.
-/

namespace Decoding

/-- What reading a part of a message comes to. -/
inductive Outcome
  /-- It is read as what it is. -/
  | exact
  /-- It is read as something else. -/
  | inexact
  /-- It is refused. -/
  | refused
  /-- The decoder panics. -/
  | panics
  deriving DecidableEq, Repr

namespace Outcome

/-- The outcome of two parts.  The second is not read when the first is not. -/
def andThen : Outcome → Outcome → Outcome
  | exact, o => o
  | inexact, exact => inexact
  | inexact, o => o
  | refused, _ => refused
  | panics, _ => panics

instance : Monoid Outcome where
  mul := andThen
  one := exact
  mul_assoc a b c := by cases a <;> cases b <;> cases c <;> rfl
  one_mul _ := rfl
  mul_one a := by cases a <;> rfl

/-- Nothing is returned that is wrong. -/
def Good (o : Outcome) : Prop := o = exact ∨ o = refused

instance : DecidablePred Good := fun _ => inferInstanceAs (Decidable (_ ∨ _))

/-- A check, which refuses or not. -/
def check (accepted : Bool) : Outcome := if accepted then exact else refused

/-- Something that the decoder takes as it is, but which may be wrong. -/
def taken (right : Bool) : Outcome := if right then exact else inexact

/-- A computation, which overflows or not. -/
def computed (fits : Bool) : Outcome := if fits then exact else panics

theorem one_eq : (1 : Outcome) = exact := rfl

@[simp] theorem exact_mul (o : Outcome) : exact * o = o := rfl

@[simp] theorem refused_mul (o : Outcome) : refused * o = refused := rfl

@[simp] theorem panics_mul (o : Outcome) : panics * o = panics := rfl

@[simp] theorem mul_eq_exact {a b : Outcome} : a * b = exact ↔ a = exact ∧ b = exact := by
  cases a <;> cases b <;> decide

theorem prod_eq_exact {os : List Outcome} : os.prod = exact ↔ ∀ o ∈ os, o = exact := by
  induction os with
  | nil => exact iff_of_true rfl (by simp)
  | cons o os ih => rw [List.prod_cons, mul_eq_exact, ih, List.forall_mem_cons]

@[simp] theorem check_eq_exact {accepted : Bool} : check accepted = exact ↔ accepted = true := by
  cases accepted <;> decide

@[simp] theorem taken_eq_exact {right : Bool} : taken right = exact ↔ right = true := by
  cases right <;> decide

@[simp] theorem computed_eq_exact {fits : Bool} : computed fits = exact ↔ fits = true := by
  cases fits <;> decide

theorem check_ne_inexact {accepted : Bool} : check accepted ≠ inexact := by
  cases accepted <;> decide

theorem computed_ne_inexact {fits : Bool} : computed fits ≠ inexact := by
  cases fits <;> decide

theorem taken_eq_inexact {right : Bool} : taken right = inexact ↔ right = false := by
  cases right <;> decide

theorem mul_eq_inexact_of_ne {a b : Outcome} (h : a ≠ inexact) :
    a * b = inexact ↔ a = exact ∧ b = inexact := by
  cases a <;> cases b <;> first | decide | exact absurd rfl h

end Outcome

open Outcome

section Decoders

variable {ε α β γ : Type} {panic : ε}

/-- The decoder returns something, fails or panics as the outcome says. -/
def Describes (panic : ε) (r : Except ε α) : Outcome → Prop
  | .exact | .inexact => ∃ a, r = .ok a
  | .refused => ∃ e, e ≠ panic ∧ r = .error e
  | .panics => r = .error panic

/-- The decoder fails as the outcome says, and what it returns is right if the outcome is exact and
only then. -/
structure Follows (panic : ε) (r : Except ε α) (o : Outcome) (Right : α → Prop) : Prop where
  describes : Describes panic r o
  right_iff : ∀ a, r = .ok a → (Right a ↔ o = .exact)

/-! ### Parts -/

namespace Describes

variable {r : Except ε α} {f : α → Except ε β} {o o' : Outcome}

theorem ok (a : α) : Describes panic (.ok a : Except ε α) .exact := ⟨a, rfl⟩

theorem of_ok {a : α} (h : r = .ok a) (ho : o = .exact ∨ o = .inexact) : Describes panic r o := by
  rcases ho with rfl | rfl <;> exact ⟨a, h⟩

/-- One part after another. -/
theorem bind (h : Describes panic r o) (h' : ∀ a, r = .ok a → Describes panic (f a) o') :
    Describes panic (r >>= f) (o * o') := by
  have hread : ∀ a, r = .ok a → (r >>= f) = f a := by
    rintro a rfl
    rfl
  cases o with
  | exact =>
    obtain ⟨a, ha⟩ := h
    rw [hread a ha, exact_mul]
    exact h' a ha
  | inexact =>
    obtain ⟨a, ha⟩ := h
    have hrest := h' a ha
    rw [hread a ha]
    cases o' <;> exact hrest
  | refused =>
    obtain ⟨e, he, hr⟩ := h
    exact ⟨e, he, by rw [hr]; rfl⟩
  | panics =>
    have hr : r = .error panic := h
    rw [hr]
    exact rfl

theorem map (g : α → β) (h : Describes panic r o) : Describes panic (g <$> r) o := by
  have hrest : ∀ a, r = .ok a → Describes panic (.ok (g a) : Except ε β) 1 := fun a _ => ok (g a)
  have hbind := h.bind hrest
  rw [mul_one] at hbind
  cases r with
  | ok a => exact hbind
  | error e => exact hbind

/-- A list, one member after another. -/
theorem mapM {g : α → Except ε β} {out : α → Outcome} {xs : List α}
    (h : ∀ x ∈ xs, Describes panic (g x) (out x)) :
    Describes panic (xs.mapM g) (xs.map out).prod := by
  induction xs with
  | nil => exact ok _
  | cons x xs ih =>
    have hrest := ih fun y hy => h y (List.mem_cons_of_mem _ hy)
    rw [List.mapM_cons, List.map_cons, List.prod_cons]
    refine (h x List.mem_cons_self).bind fun y _ => ?_
    have hpure : ∀ ys, xs.mapM g = .ok ys →
        Describes panic (pure (y :: ys) : Except ε (List β)) 1 := fun ys _ => ok _
    simpa using hrest.bind hpure

theorem mapM_exact {g : α → Except ε β} {xs : List α}
    (h : ∀ x, Describes panic (g x) .exact) : Describes panic (xs.mapM g) .exact := by
  have hall : Describes panic (xs.mapM g) (xs.map fun _ => exact).prod := mapM fun x _ => h x
  have hprod : (xs.map fun _ => exact).prod = exact := prod_eq_exact.2 (by simp)
  rwa [hprod] at hall

/-- The decoder returns nothing exactly when the outcome stops it. -/
theorem isOk_iff (h : Describes panic r o) : (∃ a, r = .ok a) ↔ o = .exact ∨ o = .inexact := by
  cases o with
  | exact => exact iff_of_true h (.inl rfl)
  | inexact => exact iff_of_true h (.inr rfl)
  | refused =>
    obtain ⟨e, -, rfl⟩ := h
    simp
  | panics =>
    have hr : r = .error panic := h
    simp [hr]

end Describes

namespace Follows

variable {r : Except ε α} {f : α → Except ε β} {o o' : Outcome} {Right : α → Prop}

/-- **Soundness of a decoder.**  It does not panic and returns only what is right, exactly if the
outcome is good. -/
theorem sound_iff (h : Follows panic r o Right) :
    (r ≠ .error panic ∧ ∀ a, r = .ok a → Right a) ↔ o.Good := by
  obtain ⟨hdescribes, hright⟩ := h
  cases o with
  | exact =>
    obtain ⟨a, rfl⟩ := hdescribes
    exact iff_of_true ⟨by simp, fun b hb => (hright b hb).2 rfl⟩ (.inl rfl)
  | inexact =>
    obtain ⟨a, rfl⟩ := hdescribes
    refine iff_of_false ?_ (by decide)
    rintro ⟨-, hall⟩
    exact absurd ((hright a rfl).1 (hall a rfl)) (by decide)
  | refused =>
    obtain ⟨e, he, rfl⟩ := hdescribes
    exact iff_of_true ⟨fun hpanic => he (Except.error.inj hpanic), by simp⟩ (.inr rfl)
  | panics =>
    have hr : r = .error panic := hdescribes
    exact iff_of_false (fun hall => hall.1 hr) (by decide)

theorem congr (h : Follows panic r o Right) {Right' : α → Prop}
    (hright : ∀ a, r = .ok a → (Right' a ↔ Right a)) : Follows panic r o Right' :=
  ⟨h.describes, fun a ha => (hright a ha).trans (h.right_iff a ha)⟩

theorem ok (a : α) : Follows panic (.ok a : Except ε α) .exact fun _ => True :=
  ⟨.ok a, fun _ _ => by simp⟩

theorem refuse {e : ε} (he : e ≠ panic) : Follows panic (.error e : Except ε α) .refused Right :=
  ⟨⟨e, he, rfl⟩, fun _ h => by cases h⟩

/-- One part after another.  What is returned is right if both parts have been read right. -/
theorem bind {Right' : β → Prop} (h : Follows panic r o Right)
    (h' : ∀ a, r = .ok a → ∃ Rest, Follows panic (f a) o' Rest ∧
      ∀ b, f a = .ok b → (Right' b ↔ Right a ∧ Rest b)) :
    Follows panic (r >>= f) (o * o') Right' := by
  refine ⟨h.describes.bind fun a ha => ?_, fun b hb => ?_⟩
  · obtain ⟨Rest, hrest, -⟩ := h' a ha
    exact hrest.describes
  · cases ha : r with
    | error e =>
      rw [ha] at hb
      cases hb
    | ok a =>
      obtain ⟨Rest, hrest, hiff⟩ := h' a ha
      rw [ha] at hb
      rw [hiff b hb, mul_eq_exact, h.right_iff a ha, hrest.right_iff b hb]

theorem map {Right' : β → Prop} (g : α → β) (h : Follows panic r o Right)
    (hright : ∀ a, r = .ok a → (Right' (g a) ↔ Right a)) :
    Follows panic (g <$> r) o Right' := by
  refine ⟨h.describes.map g, fun b hb => ?_⟩
  cases ha : r with
  | error e =>
    rw [ha] at hb
    cases hb
  | ok a =>
    rw [ha] at hb
    obtain rfl : g a = b := Except.ok.inj hb
    rw [hright a ha, h.right_iff a ha]

/-- The last part, of which something is made. -/
theorem last {Right' : β → Prop} (g : α → β) (h : Follows panic r o Right)
    (hright : ∀ a, r = .ok a → (Right' (g a) ↔ Right a)) :
    Follows panic (r >>= fun a => pure (g a)) o Right' := by
  rw [bind_pure_comp]
  exact h.map g hright

/-- A list is read right if all its members are. -/
theorem mapM {g : α → Except ε β} {out : α → Outcome} {Shows : α → β → Prop} {xs : List α}
    (h : ∀ x ∈ xs, Follows panic (g x) (out x) (Shows x)) :
    Follows panic (xs.mapM g) (xs.map out).prod (List.Forall₂ Shows xs) := by
  refine ⟨.mapM fun x hx => (h x hx).describes, fun ys hys => ?_⟩
  induction xs generalizing ys with
  | nil =>
    cases hys
    exact iff_of_true .nil rfl
  | cons x xs ih =>
    rw [List.mapM_cons] at hys
    cases hy : g x with
    | error e =>
      rw [hy] at hys
      cases hys
    | ok y =>
      cases hrest : xs.mapM g with
      | error e =>
        rw [hy, hrest] at hys
        cases hys
      | ok zs =>
        rw [hy, hrest] at hys
        obtain rfl : y :: zs = ys := Except.ok.inj hys
        rw [List.forall₂_cons, List.map_cons, List.prod_cons, mul_eq_exact,
          (h x List.mem_cons_self).right_iff y hy,
          ih (fun x' hx' => h x' (List.mem_cons_of_mem _ hx')) zs hrest]

/-- The members of a list, read with their positions. -/
theorem mapM_zipIdx {g : α → ℕ → Except ε β} {out : α → Outcome} {Shows : α → β → Prop}
    {xs : List α} (h : ∀ x i, Follows panic (g x i) (out x) (Shows x)) :
    Follows panic (xs.zipIdx.mapM fun x => g x.1 x.2) (xs.map out).prod
      (List.Forall₂ Shows xs) := by
  have hall : Follows panic (xs.zipIdx.mapM fun x => g x.1 x.2)
      (xs.zipIdx.map fun x => out x.1).prod (List.Forall₂ (fun x => Shows x.1) xs.zipIdx) :=
    mapM fun x _ => h x.1 x.2
  have hfst : xs = xs.zipIdx.map Prod.fst := (List.zipIdx_map_fst 0 xs).symm
  have hout : xs.zipIdx.map (fun x => out x.1) = xs.map out := by
    conv_rhs => rw [hfst, List.map_map]
    rfl
  rw [hout] at hall
  refine hall.congr fun ys _ => ?_
  conv_lhs => rw [hfst]
  exact List.forall₂_map_left_iff

/-- What only refuses returns nothing wrong. -/
theorem of_check {accepted : Bool} (h : Describes panic r (.check accepted)) :
    Follows panic r (.check accepted) fun _ => True := by
  refine ⟨h, fun a ha => ?_⟩
  have hstop := h.isOk_iff.1 ⟨a, ha⟩
  cases accepted with
  | true => exact iff_of_true trivial rfl
  | false => rcases hstop with hstop | hstop <;> cases hstop

/-- What only computes returns nothing wrong. -/
theorem of_computed {fits : Bool} (h : Describes panic r (.computed fits)) :
    Follows panic r (.computed fits) fun _ => True := by
  refine ⟨h, fun a ha => ?_⟩
  cases fits with
  | true => exact iff_of_true trivial rfl
  | false =>
    have hr : r = .error panic := h
    rw [ha] at hr
    cases hr

/-- A part that may be absent. -/
theorem mapOption {g : α → Except ε β} {out : α → Outcome} {Shows : α → β → Prop}
    (h : ∀ x, Follows panic (g x) (out x) (Shows x)) (x : Option α) :
    Follows panic (x.mapM g) (x.elim .exact out) (Option.Rel Shows x) := by
  cases x with
  | none =>
    refine ⟨⟨none, rfl⟩, fun y hy => ?_⟩
    obtain rfl : none = y := Except.ok.inj hy
    exact iff_of_true .none rfl
  | some x => exact (h x).map some fun y _ => by simp

end Follows

/-! ### Readers that refuse or return what they read -/

/-- The reader returns the value, or refuses. -/
def Reads (panic : ε) (r : Except ε α) : Option α → Prop
  | some a => r = .ok a
  | none => ∃ e, e ≠ panic ∧ r = .error e

namespace Reads

variable {r : Except ε α} {o : Option α} {f : α → Except ε β} {out : α → Outcome}
  {Right : α → β → Prop}

theorem follows (h : Reads panic r o) :
    Follows panic r (.check o.isSome) fun _ => True := by
  refine .of_check ?_
  cases o with
  | some a => exact ⟨a, h⟩
  | none => exact h

/-- What is read decides how the rest is read. -/
theorem select {Right : β → Prop} (h : Reads panic r o)
    (h' : ∀ a, o = some a → Follows panic (f a) (out a) Right) :
    Follows panic (r >>= f) (o.elim .refused out) Right := by
  cases o with
  | some a =>
    have hr : r = .ok a := h
    rw [hr]
    exact h' a rfl
  | none =>
    obtain ⟨e, he, hr⟩ := h
    rw [hr]
    exact .refuse he

/-- What is read decides how the rest is read, and what is right. -/
theorem bind (h : Reads panic r o)
    (h' : ∀ a, o = some a → Follows panic (f a) (out a) (Right a)) :
    Follows panic (r >>= f) (o.elim .refused out) fun b => ∃ a, o = some a ∧ Right a b :=
  h.select fun a ha => (h' a ha).congr fun b _ => by simp [ha]

/-- A reader of what has been read. -/
theorem andThen {g : α → Except ε γ} {o' : α → Option γ} (h : Reads panic r o)
    (h' : ∀ a, Reads panic (g a) (o' a)) : Reads panic (r >>= g) (o.bind o') := by
  cases o with
  | some a =>
    have hr : r = .ok a := h
    rw [hr]
    exact h' a
  | none =>
    obtain ⟨e, he, hr⟩ := h
    rw [hr]
    exact ⟨e, he, rfl⟩

/-- One reader after another. -/
theorem chain {o' : α → Option γ} {out : γ → Outcome} {Right : γ → β → Prop}
    (h : Reads panic r o) (h' : ∀ a, o = some a → Follows panic (f a)
      ((o' a).elim .refused out) fun b => ∃ c, o' a = some c ∧ Right c b) :
    Follows panic (r >>= f) ((o.bind o').elim .refused out)
      fun b => ∃ c, o.bind o' = some c ∧ Right c b := by
  have hselect := h.select fun a ha => (h' a ha).congr fun b _ =>
    (by rw [ha]; rfl : (∃ c, o.bind o' = some c ∧ Right c b) ↔ ∃ c, o' a = some c ∧ Right c b)
  cases o <;> exact hselect

end Reads

end Decoders

end Decoding
