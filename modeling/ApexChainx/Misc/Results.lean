import Mathlib.Logic.Basic

/-!
# Results

Rules that read off what a computation in `Except` must have done to return a value. They are
simp lemmas about `x = .ok b`, so that unfolding a validator leaves the conditions it checked.
-/

namespace Misc

variable {ε α β : Type}

/-- `o.ok_or(e)`. -/
def okOr (o : Option α) (e : ε) : Except ε α :=
  match o with
  | some a => .ok a
  | none => .error e

@[simp] theorem okOr_some (a : α) (e : ε) : okOr (some a) e = .ok a := rfl

@[simp] theorem okOr_none (e : ε) : okOr (none : Option α) e = .error e := rfl

@[simp] theorem okOr_eq_ok {o : Option α} {e : ε} {a : α} : okOr o e = .ok a ↔ o = some a := by
  cases o <;> simp

@[simp] theorem okOr_eq_error {o : Option α} {e e' : ε} :
    okOr o e = .error e' ↔ o = none ∧ e = e' := by
  cases o <;> simp

@[simp] theorem bind_eq_ok {x : Except ε α} {f : α → Except ε β} {b : β} :
    (x >>= f) = .ok b ↔ ∃ a, x = .ok a ∧ f a = .ok b := by
  cases x <;> simp [bind, Except.bind]

@[simp] theorem bind_eq_error {x : Except ε α} {f : α → Except ε β} {e : ε} :
    (x >>= f) = .error e ↔ x = .error e ∨ ∃ a, x = .ok a ∧ f a = .error e := by
  cases x <;> simp [bind, Except.bind]

@[simp] theorem ok_bind (a : α) (f : α → Except ε β) : (Except.ok a >>= f) = f a := rfl

@[simp] theorem error_bind (e : ε) (f : α → Except ε β) : (Except.error e >>= f) = .error e := rfl

@[simp] theorem pure_eq_ok {a b : α} : (pure a : Except ε α) = .ok b ↔ a = b := by
  simp [pure, Except.pure]

@[simp] theorem pure_ne_error {a : α} {e : ε} : (pure a : Except ε α) ≠ .error e := by
  simp [pure, Except.pure]

/-- A computation that succeeds on every element of a list maps it. -/
theorem mapM_ok {f : α → Except ε β} {g : α → β} {l : List α} (h : ∀ a ∈ l, f a = .ok (g a)) :
    l.mapM f = .ok (l.map g) := by
  induction l with
  | nil => rfl
  | cons a l ih =>
    rw [List.mapM_cons, h a List.mem_cons_self, ih fun b hb => h b (List.mem_cons_of_mem a hb)]
    rfl

/-- Refuse when the condition holds: `if c { return Err(e) }`. -/
def refuseIf (c : Prop) [Decidable c] (e : ε) : Except ε Unit := if c then .error e else .ok ()

@[simp] theorem refuseIf_eq_ok {c : Prop} [Decidable c] {e : ε} {u : Unit} :
    refuseIf c e = .ok u ↔ ¬ c := by
  by_cases h : c <;> simp [refuseIf, h]

@[simp] theorem refuseIf_eq_error {c : Prop} [Decidable c] {e e' : ε} :
    refuseIf c e = .error e' ↔ c ∧ e = e' := by
  by_cases h : c <;> simp [refuseIf, h]

section MapError

variable {ε' : Type} (f : ε → ε')

@[simp] theorem mapError_ok (a : α) : (Except.ok a : Except ε α).mapError f = .ok a := rfl

@[simp] theorem mapError_error (e : ε) :
    (Except.error e : Except ε α).mapError f = .error (f e) := rfl

@[simp] theorem mapError_pure (a : α) : (pure a : Except ε α).mapError f = pure a := rfl

@[simp] theorem mapError_bind (x : Except ε α) (g : α → Except ε β) :
    (x >>= g).mapError f = x.mapError f >>= fun a => (g a).mapError f := by
  cases x <;> rfl

@[simp] theorem mapError_okOr (o : Option α) (e : ε) :
    (okOr o e).mapError f = okOr o (f e) := by
  cases o <;> rfl

@[simp] theorem mapError_refuseIf (c : Prop) [Decidable c] (e : ε) :
    (refuseIf c e).mapError f = refuseIf c (f e) := by
  by_cases h : c <;> simp [refuseIf, h]

end MapError

end Misc
