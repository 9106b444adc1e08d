import BatMarkets.Ordered.Map

/-!
# Records that are patched

A record has a value in each of its fields.  A patch is about the record of one key and has new
values for some of its fields; the others keep theirs.  So a field has the last value that was
written to it.

## Main results

* `lastWritten_concat` : one more patch writes to the fields of its own record only.
-/

namespace Ordered

variable {κ F V : Type}

/-- New values for some fields of the record of a key. -/
structure Patch (κ F V : Type) where
  key : κ
  value : F → Option V

/-- The values that the patches write to a field of the record of a key, in their order. -/
def writes [DecidableEq κ] (k : κ) (f : F) (ps : List (Patch κ F V)) : List V :=
  ps.filterMap fun p => if p.key = k then p.value f else none

/-- The last value that is written to the field, or the one it had before. -/
def lastWritten [DecidableEq κ] (before : V) (k : κ) (f : F) (ps : List (Patch κ F V)) : V :=
  (writes k f ps).getLast?.getD before

/-- The fields of all records after a patch. -/
def patched [DecidableEq κ] (records : κ → F → V) (p : Patch κ F V) : κ → F → V := fun k f =>
  if p.key = k then (p.value f).getD (records k f) else records k f

section Patched

variable [DecidableEq κ] {records : κ → F → V}

@[simp] theorem lastWritten_nil (before : V) (k : κ) (f : F) :
    lastWritten before k f ([] : List (Patch κ F V)) = before := rfl

theorem lastWritten_append (before : V) (k : κ) (f : F) (ps ps' : List (Patch κ F V)) :
    lastWritten before k f (ps ++ ps') = lastWritten (lastWritten before k f ps) k f ps' := by
  unfold lastWritten writes
  rw [List.filterMap_append, List.getLast?_append]
  cases (ps'.filterMap fun p => if p.key = k then p.value f else none).getLast? with
  | none => simp
  | some v => simp

/-- One more patch writes to the fields of its own record only. -/
theorem lastWritten_concat (before : V) (k : κ) (f : F) (ps : List (Patch κ F V))
    (p : Patch κ F V) : lastWritten before k f (ps ++ [p]) =
      patched (fun k f => lastWritten before k f ps) p k f := by
  rw [lastWritten_append]
  unfold lastWritten writes patched
  by_cases hkey : p.key = k
  · cases hvalue : p.value f <;> simp [hkey, hvalue]
  · simp [hkey]

end Patched

end Ordered
