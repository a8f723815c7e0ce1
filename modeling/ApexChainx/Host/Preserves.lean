import ApexChainx.Host.Run

/-!
# Properties of the storage that programs preserve

A program preserves a property of the storage when it leaves it holding, whether it returns or
stops. There is one rule for each way of building a program, so that a proof follows the text of
the program; only a write and a removal have something to show about the property itself. A
property that every call preserves holds along every run (`preserved_run`).
-/

namespace Host

variable {K : Type} {A : Type} {V : K → Type} {E ε α β γ : Type}

namespace Prog

/-- `m` leaves `I` holding of the storage. -/
def Preserves (I : Store V → Prop) (m : Prog A V E ε α) : Prop :=
  ∀ f env, I env.storage → I (m f env).2.storage

namespace Preserves

variable {I : Store V → Prop}

theorem pure (a : α) : Preserves I (Pure.pure a : Prog A V E ε α) := fun _ _ h => h

theorem fail (e : ε) : Preserves I (Prog.fail e : Prog A V E ε α) := fun _ _ h => h

theorem bind {m : Prog A V E ε α} {k : α → Prog A V E ε β} (hm : Preserves I m)
    (hk : ∀ a, Preserves I (k a)) : Preserves I (m >>= k) := by
  intro f env h
  have hmid := hm f env h
  rcases returns_or_fails m f env with ⟨a, mid, ha⟩ | ⟨x, mid, hx⟩
  · rw [show m f env = _ from ha] at hmid
    rw [ha.bind_apply]
    exact hk a f mid hmid
  · rw [show m f env = _ from hx] at hmid
    rw [show (m >>= k) f env = _ from hx.bind k]
    exact hmid

theorem get (k : K) : Preserves I (Prog.get k : Prog A V E ε _) := fun _ _ h => h

theorem has (k : K) : Preserves I (Prog.has k : Prog A V E ε _) := fun _ _ h => h

theorem getD (k : K) (d : V k) : Preserves I (Prog.getD k d : Prog A V E ε _) := fun _ _ h => h

theorem ask (g : Store V → α) : Preserves I (Prog.ask g : Prog A V E ε α) := fun _ _ h => h

theorem timestamp : Preserves I (Prog.timestamp : Prog A V E ε _) := fun _ _ h => h

theorem sequence : Preserves I (Prog.sequence : Prog A V E ε _) := fun _ _ h => h

theorem publish (e : E) : Preserves I (Prog.publish e : Prog A V E ε _) := fun _ _ h => h

theorem getOr (k : K) (e : ε) : Preserves I (Prog.getOr k e : Prog A V E ε _) := by
  intro f env h
  unfold Prog.getOr
  split <;> exact h

theorem failIf (c : Prop) [Decidable c] (e : ε) :
    Preserves I (Prog.failIf c e : Prog A V E ε _) := by
  intro f env h
  unfold Prog.failIf
  split <;> exact h

theorem reads (g : Store V → Except ε α) : Preserves I (Prog.reads g : Prog A V E ε α) := by
  intro f env h
  unfold Prog.reads
  split <;> exact h

theorem requireAuth [DecidableEq A] (a : A) :
    Preserves I (Prog.requireAuth a : Prog A V E ε _) := by
  intro f env h
  unfold Prog.requireAuth
  split <;> exact h

theorem set [DecidableEq K] {k : K} (h : ∀ s v, I s → I (s.set k v)) (v : V k) :
    Preserves I (Prog.set k v : Prog A V E ε _) := fun _ _ hI => h _ v hI

theorem remove [DecidableEq K] {k : K} (h : ∀ s, I s → I (s.remove k)) :
    Preserves I (Prog.remove k : Prog A V E ε _) := fun _ _ hI => h _ hI

theorem whenSome (o : Option γ) {m : γ → Prog A V E ε Unit} (hm : ∀ a, Preserves I (m a)) :
    Preserves I (Prog.whenSome o m) := by
  cases o with
  | none => exact Preserves.pure ()
  | some a => exact hm a

theorem ite (c : Prop) [Decidable c] {m n : Prog A V E ε α} (hm : Preserves I m)
    (hn : Preserves I n) : Preserves I (if c then m else n) := by
  by_cases h : c <;> simpa [h]

theorem foldlM {body : α → γ → Prog A V E ε α} (hb : ∀ a c, Preserves I (body a c)) (a : α)
    (l : List γ) : Preserves I (l.foldlM body a) := by
  induction l generalizing a with
  | nil => exact Preserves.pure a
  | cons c l ih => exact Preserves.bind (hb a c) fun a' => ih a'

theorem forM {body : γ → Prog A V E ε PUnit} (hb : ∀ c, Preserves I (body c)) (l : List γ) :
    Preserves I (l.forM body) := by
  induction l with
  | nil => exact Preserves.pure _
  | cons c l ih => exact Preserves.bind (hb c) fun _ => ih

end Preserves

end Prog

section Runs

variable {C R : Type} {exec : C → Prog A V E ε R} {I : Store V → Prop}

/-- What the program of a call preserves holds after the call. -/
theorem preserved_invoke {tx : Tx A C} (hc : (exec tx.call).Preserves I) {s : Store V}
    (hs : I s) : I (invoke exec tx s).storage := by
  have hprogram := hc tx.frame ⟨s, [], []⟩ hs
  rcases invoke_cases exec tx s with ⟨r, env', hreturns, hi⟩ | ⟨x, hi⟩
  · rw [show exec tx.call tx.frame _ = _ from hreturns] at hprogram
    rw [hi]
    exact hprogram
  · rw [hi]
    exact hs

/-- What every call preserves holds along every run. -/
theorem preserved_run (hexec : ∀ c, (exec c).Preserves I) {s : Store V} (hs : I s)
    (txs : List (Tx A C)) : I (final exec s txs) := by
  induction txs generalizing s with
  | nil => exact hs
  | cons tx txs ih => exact ih (preserved_invoke (hexec tx.call) hs)

end Runs

end Host
