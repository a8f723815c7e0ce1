import ApexChainx.Host.Run

/-!
# Programs in lockstep

`Lockstep f P m m' Q` relates two programs: started in environments related by `P`, they stop
with the same fault, or return the same value in environments related by `Q`. Rules follow the
ways programs are built. A program that reads keys on which the environments agree, and writes
keys that a relation allows, runs in lockstep with itself and keeps the relation (`Keeps`).
-/

namespace Host

variable {K A E ε α β C R : Type} {V : K → Type}

/-- The ends of two runs: the same value and related environments, or the same fault. -/
inductive Meets (Q : α → Env V E → Env V E → Prop) :
    Except (Fault ε) α × Env V E → Except (Fault ε) α × Env V E → Prop
  | returned {a env env'} (h : Q a env env') : Meets Q (.ok a, env) (.ok a, env')
  | stopped {x env env'} : Meets Q (.error x, env) (.error x, env')

/-- From environments related by `P` the two programs end alike, in environments related by
`Q`. -/
def Lockstep (f : Frame A) (P : Env V E → Env V E → Prop) (m m' : Prog A V E ε α)
    (Q : α → Env V E → Env V E → Prop) : Prop :=
  ∀ env env', P env env' → Meets Q (m f env) (m' f env')

namespace Lockstep

variable {f : Frame A} {P : Env V E → Env V E → Prop} {m m' : Prog A V E ε α}
  {Q Q' : α → Env V E → Env V E → Prop} {T : β → Env V E → Env V E → Prop}

theorem pure {a : α} (h : ∀ env env', P env env' → Q a env env') :
    Lockstep f P (Pure.pure a : Prog A V E ε α) (Pure.pure a) Q :=
  fun env env' hP => .returned (h env env' hP)

theorem bind {k k' : α → Prog A V E ε β} (hm : Lockstep f P m m' Q)
    (hk : ∀ a, Lockstep f (Q a) (k a) (k' a) T) : Lockstep f P (m >>= k) (m' >>= k') T := by
  intro env env' hP
  have h := hm env env' hP
  simp only [Bind.bind, Prog.bind]
  generalize m f env = end₁ at h
  generalize m' f env' = end₂ at h
  cases h with
  | returned h => exact hk _ _ _ h
  | stopped => exact .stopped

/-- The relation the programs end in may be weakened. -/
theorem weaken (hm : Lockstep f P m m' Q) (h : ∀ a env env', Q a env env' → Q' a env env') :
    Lockstep f P m m' Q' := by
  intro env env' hP
  have hmeets := hm env env' hP
  generalize m f env = end₁ at hmeets
  generalize m' f env' = end₂ at hmeets
  cases hmeets with
  | returned hQ => exact .returned (h _ _ _ hQ)
  | stopped => exact .stopped

/-- The relation the programs start from may be strengthened. -/
theorem strengthen {P' : Env V E → Env V E → Prop} (hm : Lockstep f P m m' Q)
    (h : ∀ env env', P' env env' → P env env') : Lockstep f P' m m' Q :=
  fun env env' hP => hm env env' (h env env' hP)

/-- What the first program alone guarantees may be added to the relation they end in. -/
theorem and_left {G : α → Env V E → Prop} (hm : Lockstep f P m m' Q)
    (h : ∀ env env' a mid, P env env' → m.Returns f env a mid → G a mid) :
    Lockstep f P m m' (fun a mid mid' => Q a mid mid' ∧ G a mid) := by
  intro env env' hP
  have hmeets := hm env env' hP
  have hreturns := fun a mid => h env env' a mid hP
  simp only [Prog.Returns] at hreturns
  generalize m f env = end₁ at hmeets hreturns
  generalize m' f env' = end₂ at hmeets
  cases hmeets with
  | returned hQ => exact .returned ⟨hQ, hreturns _ _ rfl⟩
  | stopped => exact .stopped

/-- Programs that always return are in lockstep when their values and ends are related. -/
theorem of_returns (h : ∀ env env', P env env' → ∃ a mid mid', m.Returns f env a mid ∧
    m'.Returns f env' a mid' ∧ Q a mid mid') : Lockstep f P m m' Q := by
  intro env env' hP
  obtain ⟨a, mid, mid', hm, hm', hQ⟩ := h env env' hP
  rw [show m f env = _ from hm, show m' f env' = _ from hm']
  exact .returned hQ

/-- A read that gives the same value in both environments. -/
theorem reads {g g' : Store V → Except ε α}
    (h : ∀ env env', P env env' → g env.storage = g' env'.storage) :
    Lockstep f P (Prog.reads g) (Prog.reads g')
      (fun a env env' => P env env' ∧ g env.storage = .ok a) := by
  intro env env' hP
  simp only [Prog.reads, ← h env env' hP]
  cases hg : g env.storage with
  | ok a => exact .returned ⟨hP, hg⟩
  | error e => exact .stopped

/-- A key the environments agree on is read alike. -/
theorem getD {k : K} {d : V k} (h : ∀ env env', P env env' → env.storage k = env'.storage k) :
    Lockstep f P (Prog.getD k d : Prog A V E ε _) (Prog.getD k d)
      (fun a env env' => P env env' ∧ a = (env.storage k).getD d) := by
  intro env env' hP
  simp only [Prog.getD, ← h env env' hP]
  exact .returned ⟨hP, rfl⟩

theorem getOr {k : K} {e : ε} (h : ∀ env env', P env env' → env.storage k = env'.storage k) :
    Lockstep f P (Prog.getOr k e : Prog A V E ε _) (Prog.getOr k e)
      (fun a env env' => P env env' ∧ env.storage k = some a) := by
  intro env env' hP
  simp only [Prog.getOr, ← h env env' hP]
  cases hv : env.storage k with
  | none => exact .stopped
  | some v => exact .returned ⟨hP, hv⟩

/-- What two calls in lockstep commit and reply. -/
theorem invoke {exec exec' : C → Prog A V E ε R} {tx : Tx A C} {s s' : Store V}
    {Q : R → Env V E → Env V E → Prop}
    (h : Lockstep tx.frame P (exec tx.call) (exec' tx.call) Q) (hP : P ⟨s, [], []⟩ ⟨s', [], []⟩) :
    (∃ r env env', Q r env env' ∧
      Host.invoke exec tx s = ⟨env.storage, env.events, .ok r⟩ ∧
      Host.invoke exec' tx s' = ⟨env'.storage, env'.events, .ok r⟩) ∨
    ∃ x, Host.invoke exec tx s = ⟨s, [], .error x⟩ ∧
      Host.invoke exec' tx s' = ⟨s', [], .error x⟩ := by
  have hmeets := h _ _ hP
  simp only [Host.invoke]
  generalize exec tx.call tx.frame ⟨s, [], []⟩ = end₁ at hmeets
  generalize exec' tx.call tx.frame ⟨s', [], []⟩ = end₂ at hmeets
  cases hmeets with
  | returned hQ => exact .inl ⟨_, _, _, hQ, rfl, rfl⟩
  | stopped => exact .inr ⟨_, rfl, rfl⟩

end Lockstep

/-! ## Relations that a program keeps -/

/-- The program runs in lockstep with itself and keeps the relation. -/
def Keeps (rel : Env V E → Env V E → Prop) (m : Prog A V E ε α) : Prop :=
  ∀ f, Lockstep f rel m m fun _ => rel

/-- Related environments agree on the keys of `S`. -/
def Agrees (rel : Env V E → Env V E → Prop) (S : Set K) : Prop :=
  ∀ env env', rel env env' → Store.Agree S env.storage env'.storage

/-- The relation allows the keys of `W` to be written, and events to be published. -/
structure Allows [DecidableEq K] (rel : Env V E → Env V E → Prop) (W : Set K) : Prop where
  set : ∀ env env', rel env env' → ∀ k ∈ W, ∀ v, rel (env.set k v) (env'.set k v)
  remove : ∀ env env', rel env env' → ∀ k ∈ W, rel (env.remove k) (env'.remove k)
  publish : ∀ env env', rel env env' → ∀ e, rel (env.publish e) (env'.publish e)

theorem Allows.mono [DecidableEq K] {rel : Env V E → Env V E → Prop} {W W' : Set K}
    (h : Allows rel W) (hsub : W' ⊆ W) : Allows rel W' where
  set := fun env env' hrel k hk v => h.set env env' hrel k (hsub hk) v
  remove := fun env env' hrel k hk => h.remove env env' hrel k (hsub hk)
  publish := h.publish

namespace Keeps

variable {rel : Env V E → Env V E → Prop} {S W : Set K}

theorem pure (a : α) : Keeps rel (Pure.pure a : Prog A V E ε α) :=
  fun _ => Lockstep.pure fun _ _ h => h

theorem fail (e : ε) : Keeps rel (Prog.fail e : Prog A V E ε α) :=
  fun _ _ _ _ => .stopped

theorem bind {m : Prog A V E ε α} {k : α → Prog A V E ε β} (hm : Keeps rel m)
    (hk : ∀ a, Keeps rel (k a)) : Keeps rel (m >>= k) :=
  fun f => Lockstep.bind (hm f) fun a => hk a f

theorem ite (c : Prop) [Decidable c] {m n : Prog A V E ε α} (hm : Keeps rel m)
    (hn : Keeps rel n) : Keeps rel (if c then m else n) := by
  by_cases h : c <;> simpa [h]

theorem whenSome {γ : Type} (o : Option γ) {m : γ → Prog A V E ε Unit}
    (hm : ∀ a, Keeps rel (m a)) : Keeps rel (Prog.whenSome o m) := by
  cases o with
  | none => exact Keeps.pure ()
  | some a => exact hm a

theorem foldlM {γ : Type} {body : α → γ → Prog A V E ε α} (hb : ∀ a c, Keeps rel (body a c))
    (a : α) (l : List γ) : Keeps rel (l.foldlM body a) := by
  induction l generalizing a with
  | nil => exact Keeps.pure a
  | cons c l ih => exact Keeps.bind (hb a c) fun a' => ih a'

theorem forM {γ : Type} {body : γ → Prog A V E ε PUnit} (hb : ∀ c, Keeps rel (body c))
    (l : List γ) : Keeps rel (l.forM body) := by
  induction l with
  | nil => exact Keeps.pure _
  | cons c l ih => exact Keeps.bind (hb c) fun _ => ih

theorem failIf (c : Prop) [Decidable c] (e : ε) :
    Keeps rel (Prog.failIf c e : Prog A V E ε Unit) := by
  intro f env env' h
  by_cases hc : c <;> simp only [Prog.failIf, hc, if_true, if_false]
  · exact .stopped
  · exact .returned h

theorem timestamp : Keeps rel (Prog.timestamp : Prog A V E ε Nat) :=
  fun _ _ _ h => .returned h

theorem sequence : Keeps rel (Prog.sequence : Prog A V E ε Nat) :=
  fun _ _ _ h => .returned h

theorem requireAuth [DecidableEq A] (a : A) :
    Keeps rel (Prog.requireAuth a : Prog A V E ε Unit) := by
  intro f env env' h
  by_cases ha : a ∈ f.auths <;> simp only [Prog.requireAuth, ha, if_true, if_false]
  · exact .returned h
  · exact .stopped

/-- A program that keeps every relation of a family keeps their union. -/
theorem union {ι : Type} {family : ι → Env V E → Env V E → Prop} {m : Prog A V E ε α}
    (h : ∀ i, Keeps (family i) m) : Keeps (fun env env' => ∃ i, family i env env') m := by
  rintro f env env' ⟨i, hi⟩
  exact (h i f).weaken (fun _ _ _ hmid => ⟨i, hmid⟩) env env' hi

section Reads

variable (hrel : Agrees rel S) {k : K} (hk : k ∈ S)

include hrel

/-- A check of the storage that depends on the keys of `S` only. -/
theorem reads {g : Store V → Except ε α} (hg : ∀ s s', Store.Agree S s s' → g s = g s') :
    Keeps rel (Prog.reads g : Prog A V E ε α) :=
  fun _ => (Lockstep.reads fun env env' h => hg _ _ (hrel env env' h)).weaken fun _ _ _ h => h.1

/-- A total read of the storage that depends on the keys of `S` only. -/
theorem ask {g : Store V → α} (hg : ∀ s s', Store.Agree S s s' → g s = g s') :
    Keeps rel (Prog.ask g : Prog A V E ε α) := by
  intro f env env' h
  simp only [Prog.ask, hg _ _ (hrel env env' h)]
  exact .returned h

include hk

theorem get : Keeps rel (Prog.get k : Prog A V E ε _) := by
  intro f env env' h
  simp only [Prog.get, hrel env env' h k hk]
  exact .returned h

theorem getD (d : V k) : Keeps rel (Prog.getD k d : Prog A V E ε _) :=
  fun _ => (Lockstep.getD fun env env' h => hrel env env' h k hk).weaken fun _ _ _ h => h.1

theorem getOr (e : ε) : Keeps rel (Prog.getOr k e : Prog A V E ε _) :=
  fun _ => (Lockstep.getOr fun env env' h => hrel env env' h k hk).weaken fun _ _ _ h => h.1

theorem has : Keeps rel (Prog.has k : Prog A V E ε _) := by
  intro f env env' h
  simp only [Prog.has, hrel env env' h k hk]
  exact .returned h

end Reads

section Writes

variable [DecidableEq K] (hrel : Allows rel W) {k : K} (hk : k ∈ W)

include hrel

theorem publish (e : E) : Keeps rel (Prog.publish e : Prog A V E ε _) :=
  fun _ env env' h => .returned (hrel.publish env env' h e)

include hk

theorem set (v : V k) : Keeps rel (Prog.set k v : Prog A V E ε _) :=
  fun _ env env' h => .returned (hrel.set env env' h k hk v)

theorem remove : Keeps rel (Prog.remove k : Prog A V E ε _) :=
  fun _ env env' h => .returned (hrel.remove env env' h k hk)

end Writes

end Keeps

/-! ## Programs that depend on the storage only -/

/-- The environments hold the same storage; the events and the written keys may differ. -/
def SameStorage (env env' : Env V E) : Prop := env.storage = env'.storage

theorem agrees_sameStorage (S : Set K) :
    Agrees (SameStorage : Env V E → Env V E → Prop) S :=
  fun _ _ h _ _ => congrFun h _

theorem allows_sameStorage [DecidableEq K] (W : Set K) :
    Allows (SameStorage : Env V E → Env V E → Prop) W where
  set := fun _ _ h k _ v => congrArg (Store.set · k v) h
  remove := fun _ _ h k _ => congrArg (Store.remove · k) h
  publish := fun _ _ h _ => h

/-- Such a program leaves the same storage whatever was published and written before it. -/
theorem Keeps.storage_eq {m : Prog A V E ε α} (hm : Keeps SameStorage m) {f : Frame A}
    {env env' mid : Env V E} {a : α} (hsame : SameStorage env env')
    (h : m.Returns f env a mid) : (m f env').2.storage = mid.storage := by
  have hmeets := hm f env env' hsame
  rw [show m f env = _ from h] at hmeets
  generalize m f env' = end₂ at hmeets
  cases hmeets with
  | returned hstorage => exact hstorage.symm

end Host
