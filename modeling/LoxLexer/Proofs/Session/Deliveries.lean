import LoxLexer.Proofs.Scan.Faults
import LoxLexer.Proofs.Session.Requests

/-!
# What listeners hear

A bus can be used in any way: listeners subscribe, reports are made by hand, and sources are scanned.
What is delivered can be said of each operation on its own. An operation makes some reports, and every
report goes to all listeners that have subscribed by then, in the order in which they did.

A scan makes its reports while it goes on, and keeps its diagnostics apart from them. Both tell the same.

## Main Results

* `perform_deliveries`, `perform_bus`: one operation.
* `performAll_append`, `heard_performAll`: operations one after the other.
* `performAll_delivers`: all deliveries on a new bus, and what a listener hears of them.
-/

namespace LoxLexer.Bus

variable {α : Type}

/-- The listeners that operations subscribe, in order. -/
def subscribed (ops : List (Operation α)) : List α :=
  ops.flatMap fun
    | .subscribe listener => [listener]
    | .report _ => []
    | .scan _ => []

/-- The reports that an operation makes. A scan makes one for each diagnostic that it returns. -/
def Operation.reports : Operation α → List Report
  | .subscribe _ => []
  | .report r => [r]
  | .scan source => (diagnostics source).map fun d => ⟨d.line.getD 0, d.message⟩

/-! ## §1 One operation -/

/-- **An operation delivers the reports that it makes**, each to all listeners. -/
theorem perform_deliveries (bus : Bus α) (op : Operation α) :
    (bus.perform op).deliveries = bus.deliverAll op.reports := by
  cases op with
  | subscribe listener => rfl
  | report r => exact (List.append_nil _).symm
  | scan source =>
    -- what is told during the scan against what it keeps
    show ((Session.start source).scanWith (some bus)).2.1 = _
    rw [Session.scanWith_eq, Session.scan_start, Operation.reports, ← reports_eq_map]
    rfl

theorem perform_bus (bus : Bus α) (op : Operation α) :
    (bus.perform op).bus = ⟨bus.listeners ++ subscribed [op]⟩ := by
  cases op with
  | subscribe listener => rfl
  | report r => exact congrArg Bus.mk (List.append_nil _).symm
  | scan source => exact congrArg Bus.mk (List.append_nil _).symm

theorem perform_scanned (bus : Bus α) (source : String) :
    (bus.perform (.scan source)).scanned = some (tokens source, diagnostics source) := by
  simp only [perform]
  rw [Session.scanWith_eq]
  rfl

/-! ## §2 Operations one after the other -/

theorem subscribed_cons (op : Operation α) (ops : List (Operation α)) :
    subscribed (op :: ops) = subscribed [op] ++ subscribed ops := by
  simp [subscribed]

theorem performAll_append (bus : Bus α) (before after : List (Operation α)) :
    bus.performAll (before ++ after) =
      bus.performAll before ++ performAll ⟨bus.listeners ++ subscribed before⟩ after := by
  induction before generalizing bus with
  | nil => simp [performAll, subscribed]
  | cons op before ih =>
    rw [List.cons_append, performAll, ih, perform_bus, performAll, perform_bus,
      subscribed_cons op before, List.append_assoc, List.cons_append]

theorem length_performAll (bus : Bus α) (ops : List (Operation α)) :
    (bus.performAll ops).length = ops.length := by
  induction ops generalizing bus with
  | nil => rfl
  | cons op ops ih => rw [performAll, List.length_cons, List.length_cons, ih]

/-- Each operation meets the bus that the operations before it have left. -/
theorem getElem?_performAll (bus : Bus α) (before : List (Operation α)) (op : Operation α)
    (after : List (Operation α)) :
    (bus.performAll (before ++ op :: after))[before.length]? =
      some (perform ⟨bus.listeners ++ subscribed before⟩ op) := by
  rw [performAll_append, List.getElem?_append_right (length_performAll bus before).le,
    length_performAll, Nat.sub_self]
  rfl

/-! ## §3 One listener -/

variable [DecidableEq α]

/-- The reports that a listener hears among deliveries. -/
def heard (listener : α) (ds : List (α × Report)) : List Report :=
  (ds.filter fun d => d.1 = listener).map Prod.snd

theorem heard_append (listener : α) (ds es : List (α × Report)) :
    heard listener (ds ++ es) = heard listener ds ++ heard listener es := by
  simp [heard]

/-- A listener hears a report as often as it has subscribed. -/
theorem heard_deliver (listener : α) (bus : Bus α) (r : Report) :
    heard listener (bus.deliver r) = List.replicate (bus.listeners.count listener) r := by
  rcases bus with ⟨ls⟩
  induction ls with
  | nil => rfl
  | cons l ls ih =>
    have hcons : deliver ⟨l :: ls⟩ r = [(l, r)] ++ deliver ⟨ls⟩ r := rfl
    rw [hcons, heard_append, ih]
    by_cases hl : l = listener
    · subst hl
      simp [heard, List.replicate_succ]
    · simp [heard, hl]

theorem heard_deliverAll (listener : α) (bus : Bus α) (rs : List Report) :
    heard listener (bus.deliverAll rs) =
      rs.flatMap (List.replicate (bus.listeners.count listener)) := by
  induction rs with
  | nil => rfl
  | cons r rs ih =>
    have hcons : bus.deliverAll (r :: rs) = bus.deliver r ++ bus.deliverAll rs := rfl
    rw [hcons, heard_append, heard_deliver, ih, List.flatMap_cons]

/-- **While it does not subscribe again, a listener hears every report**, as often as it has
subscribed. -/
theorem heard_performAll {listener : α} (bus : Bus α) {ops : List (Operation α)}
    (h : listener ∉ subscribed ops) :
    heard listener ((bus.performAll ops).flatMap Effect.deliveries) =
      (ops.flatMap Operation.reports).flatMap (List.replicate (bus.listeners.count listener)) := by
  induction ops generalizing bus with
  | nil => rfl
  | cons op ops ih =>
    rw [subscribed_cons, List.mem_append, not_or] at h
    -- the operation leaves the subscriptions of this listener alone
    have hcount : (bus.perform op).bus.listeners.count listener = bus.listeners.count listener := by
      rw [perform_bus, List.count_append, List.count_eq_zero_of_not_mem h.1, Nat.add_zero]
    rw [performAll, List.flatMap_cons, heard_append, perform_deliveries, heard_deliverAll, ih _ h.2,
      hcount, List.flatMap_cons, List.flatMap_append]

/-- A listener that subscribes once hears what is reported afterwards. -/
theorem heard_once {before after : List (Operation α)} {listener : α}
    (hbefore : listener ∉ subscribed before) (hafter : listener ∉ subscribed after) :
    heard listener
        ((empty.performAll (before ++ .subscribe listener :: after)).flatMap Effect.deliveries) =
      after.flatMap Operation.reports := by
  -- the bus before the subscription, and the one that the rest of the operations meet
  obtain ⟨bus, hbus⟩ : ∃ bus : Bus α, bus = ⟨subscribed before⟩ := ⟨_, rfl⟩
  have hcount : (bus.subscribe listener).listeners.count listener = 1 := by
    rw [hbus]
    simp [subscribe, List.count_eq_zero_of_not_mem hbefore]
  have hearlier : heard listener ((empty.performAll before).flatMap Effect.deliveries) = [] := by
    rw [heard_performAll empty hbefore]
    simp [empty]
  have hlater : heard listener (((bus.subscribe listener).performAll after).flatMap
      Effect.deliveries) = after.flatMap Operation.reports := by
    rw [heard_performAll _ hafter, hcount]
    exact List.flatMap_singleton' _
  have hrun : empty.performAll (before ++ .subscribe listener :: after) = empty.performAll before ++
      bus.perform (.subscribe listener) :: (bus.subscribe listener).performAll after := by
    rw [performAll_append, hbus]
    rfl
  rw [hrun, List.flatMap_append, heard_append, hearlier]
  exact hlater

/-! ## §4 Whole runs -/

/-- **Deliveries mirror reports and diagnostics.** On a new bus each operation has its effect, in
order. What it delivers goes report by report, and each report to all who have subscribed before, in the
order in which they did. A scan returns the tokens and the diagnostics of its source, and makes a report
of each diagnostic, which always has a line. So a listener that subscribes once hears exactly what is
reported afterwards, once each and in order. A scan returns the same with any reporter and without
one. -/
theorem performAll_delivers (ops : List (Operation α)) :
    (empty.performAll ops).length = ops.length ∧
    (∀ before op after, ops = before ++ op :: after → ∃ e,
      (empty.performAll ops)[before.length]? = some e ∧
      e.deliveries = (op.reports.flatMap fun r => (subscribed before).map fun l => (l, r)) ∧
      ∀ source, op = .scan source → e.scanned = some (tokens source, diagnostics source)) ∧
    (∀ source, ∀ d ∈ diagnostics source, ∃ n, d.line = some n) ∧
    (∀ before listener after, ops = before ++ .subscribe listener :: after →
      listener ∉ subscribed before → listener ∉ subscribed after →
      heard listener ((empty.performAll ops).flatMap Effect.deliveries) =
        after.flatMap Operation.reports) ∧
    ∀ (reporter : Option (Bus α)) (source : String),
      ((Session.start source).scanWith reporter).1 = tokens source ∧
      ((Session.start source).scanWith reporter).2.2.pending = diagnostics source := by
  refine ⟨length_performAll empty ops, ?_, ?_, ?_, ?_⟩
  · rintro before op after rfl
    refine ⟨_, getElem?_performAll empty before op after, perform_deliveries _ op, ?_⟩
    rintro source rfl
    exact perform_scanned _ source
  · intro source d hd
    obtain ⟨n, -, hn⟩ := exists_line_of_mem_diagnostics hd
    exact ⟨1 + n, hn⟩
  · rintro before listener after rfl hbefore hafter
    exact heard_once hbefore hafter
  · intro reporter source
    rw [Session.scanWith_eq]
    exact ⟨rfl, rfl⟩

/-- The late listener hears of the wrong character, and not of the report before. -/
theorem performAll_delivers_late_listener :
    let ops := [.subscribe "a", .report ⟨7, "x"⟩, .subscribe "b", .scan "#"]
    let wrong := Report.ofFault 1 (.unexpectedCharacter '#')
    heard "b" ((empty.performAll ops).flatMap Effect.deliveries) = [wrong] ∧
      ∃ e, (empty.performAll ops)[3]? = some e ∧ e.deliveries = [("a", wrong), ("b", wrong)] := by
  intro ops wrong
  have hspans : placedSpans 1 "#".toList = [⟨⟨['#'], .fault (.unexpectedCharacter '#')⟩, 1⟩] := by cbv
  have hreports : (Operation.scan "#" : Operation String).reports = [wrong] := by
    rw [Operation.reports, diagnostics, hspans]
    rfl
  obtain ⟨-, heffects, -, hlisteners, -⟩ := performAll_delivers ops
  obtain ⟨e, he, hdeliveries, -⟩ :=
    heffects [.subscribe "a", .report ⟨7, "x"⟩, .subscribe "b"] (.scan "#") [] rfl
  have hheard := hlisteners [.subscribe "a", .report ⟨7, "x"⟩] "b" [.scan "#"] rfl (by decide) (by decide)
  rw [List.flatMap_singleton, hreports] at hheard
  rw [hreports] at hdeliveries
  exact ⟨hheard, e, he, hdeliveries⟩

end LoxLexer.Bus
