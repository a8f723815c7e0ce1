import ApexChainx.Host.Prog

/-!
# Programs whose errors have written nothing

The host discards what a failing call wrote. A program is atomic when it does not need that: where
it stops with an error of the contract, it has written no key before. Checks that write nothing
may precede an atomic program (`AtomicAt.bind`), and a program that always returns is atomic
(`Total.atomic`).
-/

namespace Host

variable {K : Type} {A : Type} {V : K → Type} {E ε α β : Type}

/-- Nothing was written between `env` and `env'`; events may have been published. -/
structure Unwritten (env env' : Env V E) : Prop where
  storage : env'.storage = env.storage
  writes : env'.writes = env.writes

theorem Unwritten.refl (env : Env V E) : Unwritten env env := ⟨rfl, rfl⟩

theorem Unwritten.trans {env mid env' : Env V E} (h : Unwritten env mid)
    (h' : Unwritten mid env') : Unwritten env env' :=
  ⟨h'.storage.trans h.storage, h'.writes.trans h.writes⟩

namespace Prog

/-- `m` run in `env` writes nothing, whether it returns or stops. -/
def SilentAt (m : Prog A V E ε α) (f : Frame A) (env : Env V E) : Prop :=
  Unwritten env (m f env).2

/-- `m` writes nothing. -/
def Silent (m : Prog A V E ε α) : Prop := ∀ f env, m.SilentAt f env

/-- An error of `m` run in `env` comes before any write. -/
def AtomicAt (m : Prog A V E ε α) (f : Frame A) (env : Env V E) : Prop :=
  ∀ e env', m.Fails f env (.err e) env' → Unwritten env env'

/-- An error of `m` comes before any write. -/
def Atomic (m : Prog A V E ε α) : Prop := ∀ f env, m.AtomicAt f env

section Steps

variable {m : Prog A V E ε α} {k : α → Prog A V E ε β} {f : Frame A} {env env' : Env V E}

theorem SilentAt.returns {a : α} (h : m.SilentAt f env) (hr : m.Returns f env a env') :
    Unwritten env env' := by
  rw [SilentAt, show m f env = _ from hr] at h
  exact h

theorem SilentAt.fails {x : Fault ε} (h : m.SilentAt f env) (hx : m.Fails f env x env') :
    Unwritten env env' := by
  rw [SilentAt, show m f env = _ from hx] at h
  exact h

theorem Silent.bind (hm : Silent m) (hk : ∀ a, Silent (k a)) : Silent (m >>= k) := by
  intro f env
  rcases returns_or_fails m f env with ⟨a, mid, ha⟩ | ⟨x, mid, hx⟩
  · rw [SilentAt, ha.bind_apply]
    exact ((hm f env).returns ha).trans (hk a f mid)
  · rw [SilentAt, show (m >>= k) f env = _ from hx.bind k]
    exact (hm f env).fails hx

/-- What writes nothing may come before what is atomic. -/
theorem AtomicAt.bind (hm : m.SilentAt f env)
    (hk : ∀ a mid, m.Returns f env a mid → (k a).AtomicAt f mid) : (m >>= k).AtomicAt f env := by
  intro e env' hfails
  rcases returns_or_fails m f env with ⟨a, mid, ha⟩ | ⟨x, mid, hx⟩
  · rw [Fails, ha.bind_apply] at hfails
    exact (hm.returns ha).trans (hk a mid ha e env' hfails)
  · cases (hx.bind k).symm.trans hfails
    exact hm.fails hx

/-- What returns may come after what is atomic. -/
theorem AtomicAt.bind_returns (hm : m.AtomicAt f env)
    (hk : ∀ a mid, m.Returns f env a mid → ∃ b env', (k a).Returns f mid b env') :
    (m >>= k).AtomicAt f env := by
  intro e env' hfails
  rcases returns_or_fails m f env with ⟨a, mid, ha⟩ | ⟨x, mid, hx⟩
  · rw [Fails, ha.bind_apply] at hfails
    obtain ⟨b, last, hb⟩ := hk a mid ha
    cases hb.symm.trans hfails
  · cases (hx.bind k).symm.trans hfails
    exact hm e _ hx

theorem AtomicAt.bind_total (hm : m.AtomicAt f env) (hk : ∀ a, Total (k a)) :
    (m >>= k).AtomicAt f env :=
  hm.bind_returns fun a mid _ => hk a f mid

theorem Silent.atomic (h : Silent m) : Atomic m := fun f env _ _ hx => (h f env).fails hx

theorem Total.atomic (h : Total m) : Atomic m :=
  fun f env e env' hx => absurd hx (h.never e f env env')

theorem Atomic.bind (hm : Silent m) (hk : ∀ a, Atomic (k a)) : Atomic (m >>= k) :=
  fun f env => .bind (hm f env) fun a mid _ => hk a f mid

theorem Atomic.ite (c : Prop) [Decidable c] {m n : Prog A V E ε α} (hm : Atomic m)
    (hn : Atomic n) : Atomic (if c then m else n) := by
  by_cases h : c <;> simpa [h]

end Steps

namespace Silent

theorem pure (a : α) : Silent (Pure.pure a : Prog A V E ε α) := fun _ env => .refl env

theorem fail (e : ε) : Silent (Prog.fail e : Prog A V E ε α) := fun _ env => .refl env

theorem has (k : K) : Silent (Prog.has k : Prog A V E ε _) := fun _ env => .refl env

theorem getD (k : K) (d : V k) : Silent (Prog.getD k d : Prog A V E ε _) := fun _ env => .refl env

theorem ask (g : Store V → α) : Silent (Prog.ask g : Prog A V E ε α) := fun _ env => .refl env

theorem timestamp : Silent (Prog.timestamp : Prog A V E ε _) := fun _ env => .refl env

theorem publish (e : E) : Silent (Prog.publish e : Prog A V E ε _) := fun _ _ => ⟨rfl, rfl⟩

theorem requireAuth [DecidableEq A] (a : A) : Silent (Prog.requireAuth a : Prog A V E ε _) := by
  intro f env
  unfold SilentAt Prog.requireAuth
  split <;> exact .refl env

theorem getOr (k : K) (e : ε) : Silent (Prog.getOr k e : Prog A V E ε _) := by
  intro f env
  unfold SilentAt Prog.getOr
  split <;> exact .refl env

theorem failIf (c : Prop) [Decidable c] (e : ε) : Silent (Prog.failIf c e : Prog A V E ε _) := by
  intro f env
  unfold SilentAt Prog.failIf
  split <;> exact .refl env

theorem reads (g : Store V → Except ε α) : Silent (Prog.reads g : Prog A V E ε α) := by
  intro f env
  unfold SilentAt Prog.reads
  split <;> exact .refl env

end Silent

end Prog

end Host
