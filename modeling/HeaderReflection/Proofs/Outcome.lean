import HeaderReflection.Log
import Mathlib.Data.List.Forall2

/-!
# Outcomes

A computation that may fail succeeds exactly when each of its steps does. The records of a run have no part in this:
its outcome is the outcome of its steps.

## Main results

- `bind_ok`, `map_ok`, `mapM_eq_ok`: the steps of a computation that succeeds.
- `Logged.outcome_bind`: outcomes of runs that go on with a value.
-/

namespace HeaderReflection

/-! ## §1 Computations that may fail -/

/-- A computation in two steps that succeeds has a first step that does. -/
theorem bind_ok {ε α β : Type} {x : Except ε α} {next : α → Except ε β} {b : β} (h : (x >>= next) = .ok b) :
    ∃ a, x = .ok a ∧ next a = .ok b := by
  cases x with
  | error e => cases h
  | ok a => exact ⟨a, rfl, h⟩

theorem bind_eq_ok {ε α β : Type} {x : Except ε α} {next : α → Except ε β} {b : β} :
    (x >>= next) = .ok b ↔ ∃ a, x = .ok a ∧ next a = .ok b := by
  constructor
  · exact bind_ok
  · rintro ⟨a, rfl, h⟩
    exact h

/-- A computation of which something is known has succeeded. -/
theorem map_ok {ε α β : Type} {x : Except ε α} {f : α → β} {b : β} (h : x.map f = .ok b) : ∃ a, x = .ok a ∧ f a = b := by
  cases x with
  | error e => cases h
  | ok a => exact ⟨a, rfl, Except.ok.inj h⟩

theorem mapM_eq_ok {ε α β : Type} {f : α → Except ε β} {xs : List α} {ys : List β} (h : xs.mapM f = .ok ys) :
    List.Forall₂ (fun x y => f x = .ok y) xs ys := by
  induction xs generalizing ys with
  | nil =>
    rw [List.mapM_nil] at h
    cases h
    exact List.Forall₂.nil
  | cons x xs ih =>
    rw [List.mapM_cons] at h
    obtain ⟨y, hy, h⟩ := bind_ok h
    obtain ⟨rest, hrest, h⟩ := bind_ok h
    cases h
    exact List.Forall₂.cons hy (ih hrest)

theorem mapM_of_forall_ok {ε α β : Type} {f : α → Except ε β} {g : α → β} {xs : List α}
    (h : ∀ x ∈ xs, f x = .ok (g x)) : xs.mapM f = .ok (xs.map g) := by
  induction xs with
  | nil => rfl
  | cons x xs ih =>
    rw [List.mapM_cons, h x List.mem_cons_self, ih fun y hy => h y (List.mem_cons_of_mem _ hy)]
    rfl

theorem mapM_ok {ε α β : Type} {f : α → Except ε β} {xs : List α} (h : ∀ x ∈ xs, ∃ y, f x = .ok y) :
    ∃ ys, xs.mapM f = .ok ys := by
  induction xs with
  | nil => exact ⟨[], rfl⟩
  | cons x xs ih =>
    obtain ⟨y, hy⟩ := h x List.mem_cons_self
    obtain ⟨ys, hys⟩ := ih fun x hx => h x (List.mem_cons_of_mem _ hx)
    refine ⟨y :: ys, ?_⟩
    rw [List.mapM_cons, hy, hys]
    rfl

theorem ok_of_mapM_eq_ok {ε α β : Type} {f : α → Except ε β} {xs : List α} {ys : List β} (h : xs.mapM f = .ok ys)
    {x : α} (hx : x ∈ xs) : ∃ y, f x = .ok y := by
  induction xs generalizing ys with
  | nil => cases hx
  | cons first xs ih =>
    rw [List.mapM_cons] at h
    obtain ⟨y, hy, h⟩ := bind_ok h
    obtain ⟨rest, hrest, -⟩ := bind_ok h
    rcases List.mem_cons.mp hx with rfl | hx
    · exact ⟨y, hy⟩
    · exact ih hrest hx

theorem forall₂_of_mem {α β : Type} {R S : α → β → Prop} {xs : List α} {ys : List β}
    (h : ∀ a ∈ xs, ∀ b, R a b → S a b) (hxs : List.Forall₂ R xs ys) : List.Forall₂ S xs ys :=
  ((List.forall₂_and_left xs ys).mpr ⟨h, hxs⟩).imp fun _ b hab => hab.1 b hab.2

theorem exists_of_mem_forall₂ {α β : Type} {R : α → β → Prop} {xs : List α} {ys : List β} (h : List.Forall₂ R xs ys)
    {y : β} (hy : y ∈ ys) : ∃ x ∈ xs, R x y := by
  induction h with
  | nil => cases hy
  | @cons x y' xs ys hxy hrest ih =>
    rcases List.mem_cons.mp hy with rfl | hy
    · exact ⟨x, List.mem_cons_self, hxy⟩
    · obtain ⟨x', hx', hx'y⟩ := ih hy
      exact ⟨x', List.mem_cons_of_mem _ hx', hx'y⟩

/-! ## §2 Runs with records -/

namespace Logged

variable {ε ε' α β : Type}

/-- **Records have no part in an outcome**: a run goes on exactly when it has not failed. -/
@[simp] theorem outcome_bind (run : Logged ε α) (next : α → Logged ε β) :
    (run >>= next).outcome = (run.outcome >>= fun a => (next a).outcome) := by
  show (Logged.bind run next).outcome = _
  unfold Logged.bind
  split
  · next e h => rw [h]; rfl
  · next a h => rw [h]; rfl

/-- A run goes on alike if it does so with the value that it has, if any. -/
theorem bind_congr_ok {run : Logged ε α} {next next' : α → Logged ε β}
    (h : ∀ a, run.outcome = .ok a → next a = next' a) : run >>= next = run >>= next' := by
  show Logged.bind run next = Logged.bind run next'
  unfold Logged.bind
  split
  · rfl
  · next a ha => rw [h a ha]

@[simp] theorem outcome_pure (a : α) : (pure a : Logged ε α).outcome = .ok a := rfl

@[simp] theorem outcome_ofExcept (outcome : Except ε α) : (ofExcept outcome).outcome = outcome := rfl

@[simp] theorem outcome_note (record : LogRecord) : (note record : Logged ε Unit).outcome = .ok () := rfl

@[simp] theorem outcome_notes (records : List LogRecord) : (notes records : Logged ε Unit).outcome = .ok () := rfl

@[simp] theorem outcome_fail (e : ε) : (fail e : Logged ε α).outcome = .error e := rfl

@[simp] theorem outcome_within (context : List (String × LogValue)) (run : Logged ε α) :
    (run.within context).outcome = run.outcome := rfl

@[simp] theorem outcome_mapError (f : ε → ε') (run : Logged ε α) :
    (run.mapError f).outcome = run.outcome.mapError f := rfl

end Logged

/-- A success is a success whatever failures are called. -/
theorem mapError_eq_ok {ε ε' α : Type} {f : ε → ε'} {x : Except ε α} {a : α} : x.mapError f = .ok a ↔ x = .ok a := by
  cases x with
  | error e => simp [Except.mapError]
  | ok b => simp [Except.mapError]

end HeaderReflection
