import SealedMessaging.Report

/-!
# Outcomes of steps in sequence

A sequence of steps succeeds when each of them does. The lemmas of this module take such a success
apart, for plain results (`Except`) and for reports, whose outcome does not depend on their events.

* `Except.bind_eq_ok_iff`, `Except.map_eq_ok_iff`: a step and what follows it.
* `Report.outcome_bind`, `Report.outcome_mapError`: the outcome of a report, as a plain result.
-/

namespace Except

variable {ε ε' α β : Type}

theorem bind_eq_ok_iff {x : Except ε α} {f : α → Except ε β} {b : β} :
    x >>= f = .ok b ↔ ∃ a, x = .ok a ∧ f a = .ok b := by
  cases x with
  | error e => simp [bind, Except.bind]
  | ok a => simp [bind, Except.bind]

theorem map_eq_ok_iff {x : Except ε α} {f : α → β} {b : β} :
    x.map f = .ok b ↔ ∃ a, x = .ok a ∧ f a = b := by
  cases x <;> simp [Except.map]

@[simp] theorem mapError_ok (f : ε → ε') (a : α) : (.ok a : Except ε α).mapError f = .ok a := rfl

theorem mapError_eq_ok_iff {x : Except ε α} {f : ε → ε'} {a : α} :
    x.mapError f = .ok a ↔ x = .ok a := by
  cases x with
  | error e => exact ⟨(nomatch ·), (nomatch ·)⟩
  | ok b => exact ⟨fun h => congrArg Except.ok (Except.ok.inj h), fun h => h ▸ rfl⟩

theorem pure_eq_ok_iff {a b : α} : (pure a : Except ε α) = .ok b ↔ a = b := by
  simp [pure, Except.pure]

theorem eq_ok_of_toOption {x : Except ε α} {a : α} (h : x.toOption = some a) : x = .ok a := by
  cases x with
  | error e => exact absurd h (by simp [Except.toOption])
  | ok b => exact congrArg Except.ok (Option.some.inj h)

end Except

namespace SealedMessaging.Report

variable {ε ε' α β : Type}

theorem outcome_bind (r : Report ε α) (next : α → Report ε β) :
    (r >>= next).outcome = r.outcome >>= fun a => (next a).outcome := by
  show (Report.bind r next).outcome = _
  unfold Report.bind
  cases r.outcome <;> rfl

@[simp] theorem outcome_pure (a : α) : (pure a : Report ε α).outcome = .ok a := rfl

@[simp] theorem outcome_ofExcept (x : Except ε α) : (ofExcept x).outcome = x := rfl

@[simp] theorem outcome_fail (fault : ε) : (fail fault : Report ε α).outcome = .error fault := rfl

@[simp] theorem outcome_log (event : Event) : (log event : Report ε Unit).outcome = .ok () := rfl

@[simp] theorem outcome_mapError (f : ε → ε') (r : Report ε α) :
    (r.mapError f).outcome = r.outcome.mapError f := rfl

theorem ofExcept_bind_pure (x : Except ε α) (b : β) :
    (ofExcept x >>= fun _ => pure b) = ofExcept (x.map fun _ => b) := by
  cases x <;> rfl

/-- What succeeds without events goes on as if nothing had been. -/
theorem ofExcept_ok_bind (a : α) (next : α → Report ε β) :
    (ofExcept (.ok a) : Report ε α) >>= next = next a := rfl

/-- What fails goes no further. -/
theorem bind_of_error {r : Report ε α} {fault : ε} (h : r.outcome = .error fault)
    (next : α → Report ε β) : r >>= next = ⟨.error fault, r.events⟩ := by
  show Report.bind r next = _
  unfold Report.bind
  rw [h]

/-- A step without events adds none. -/
theorem events_bind_ofExcept (r : Report ε α) (next : α → Except ε β) :
    (r >>= fun a => ofExcept (next a)).events = r.events := by
  obtain ⟨outcome, events⟩ := r
  cases outcome with
  | error fault => rfl
  | ok a => exact List.append_nil events

/-- A report succeeds when its first step does and, from what that gives, the steps that follow. -/
theorem outcome_bind_eq_ok_iff {r : Report ε α} {next : α → Report ε β} {b : β} :
    (r >>= next).outcome = .ok b ↔ ∃ a, r.outcome = .ok a ∧ (next a).outcome = .ok b := by
  rw [outcome_bind, Except.bind_eq_ok_iff]

end SealedMessaging.Report
