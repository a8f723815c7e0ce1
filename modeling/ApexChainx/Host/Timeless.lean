import ApexChainx.Host.Prog

/-!
# Programs that do not look at the ledger

A program that reads neither the time nor the sequence of the ledger runs alike in every frame with
the same authorizations. There is one rule for each way of building such a program.
-/

namespace Host

variable {K : Type} {A : Type} {V : K → Type} {E ε α β : Type}

namespace Prog

/-- `m` depends on the frame by its authorizations only. -/
def Timeless (m : Prog A V E ε α) : Prop :=
  ∀ f f' env, f.auths = f'.auths → m f env = m f' env

namespace Timeless

theorem pure (a : α) : Timeless (Pure.pure a : Prog A V E ε α) := fun _ _ _ _ => rfl

theorem bind {m : Prog A V E ε α} {k : α → Prog A V E ε β} (hm : Timeless m)
    (hk : ∀ a, Timeless (k a)) : Timeless (m >>= k) := by
  intro f f' env hauths
  have hsame := hm f f' env hauths
  rcases returns_or_fails m f env with ⟨a, mid, ha⟩ | ⟨x, mid, hx⟩
  · have ha' : m.Returns f' env a mid := hsame.symm.trans ha
    rw [ha.bind_apply, ha'.bind_apply]
    exact hk a f f' mid hauths
  · have hx' : m.Fails f' env x mid := hsame.symm.trans hx
    rw [show (m >>= k) f env = _ from hx.bind k, show (m >>= k) f' env = _ from hx'.bind k]

theorem reads (g : Store V → Except ε α) : Timeless (Prog.reads g : Prog A V E ε α) :=
  fun _ _ _ _ => rfl

theorem getOr (k : K) (e : ε) : Timeless (Prog.getOr k e : Prog A V E ε _) := fun _ _ _ _ => rfl

theorem failIf (c : Prop) [Decidable c] (e : ε) : Timeless (Prog.failIf c e : Prog A V E ε _) :=
  fun _ _ _ _ => rfl

theorem requireAuth [DecidableEq A] (a : A) : Timeless (Prog.requireAuth a : Prog A V E ε _) := by
  intro f f' env hauths
  unfold Prog.requireAuth
  rw [hauths]

end Timeless

end Prog

end Host
