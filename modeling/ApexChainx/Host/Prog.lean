import ApexChainx.Host.Store

/-!
# Contract programs

One invocation of a contract entry point runs against an environment: the instance storage,
the events published so far and the keys written so far. A program either returns a value, or
stops with an error of the contract, or traps (the host aborts it, as on a failed
authorization). The environment is kept in every case, so that what a failing call had
already done stays visible; whether the host commits it is the business of
`ApexChainx.Host.Run`.
-/

namespace Host

/-- Why an invocation stopped: an error value of the contract, or an abort by the host. -/
inductive Fault (ε : Type) where
  | err (e : ε)
  | trap
  deriving DecidableEq, Repr

/-- What the host tells an invocation: the addresses that authorized it, and the timestamp
and the sequence number of the ledger it runs in. -/
structure Frame (A : Type) where
  auths : List A
  timestamp : Nat
  sequence : Nat
  deriving DecidableEq, Repr

/-- The mutable side of one invocation. -/
structure Env {K : Type} (V : K → Type) (E : Type) where
  storage : Store V
  events : List E
  writes : List K

/-- A program over addresses `A`, storage `V`, events `E` and contract errors `ε`. -/
def Prog {K : Type} (A : Type) (V : K → Type) (E ε α : Type) : Type :=
  Frame A → Env V E → Except (Fault ε) α × Env V E

variable {K : Type} {A : Type} {V : K → Type} {E ε α β : Type}

namespace Env

variable [DecidableEq K]

/-- Write a key. -/
def set (env : Env V E) (k : K) (v : V k) : Env V E :=
  { env with storage := env.storage.set k v, writes := env.writes ++ [k] }

/-- Remove a key. -/
def remove (env : Env V E) (k : K) : Env V E :=
  { env with storage := env.storage.remove k, writes := env.writes ++ [k] }

omit [DecidableEq K] in
/-- Publish an event. -/
def publish (env : Env V E) (e : E) : Env V E := { env with events := env.events ++ [e] }

@[simp] theorem set_storage (env : Env V E) (k : K) (v : V k) :
    (env.set k v).storage = env.storage.set k v := rfl
@[simp] theorem set_events (env : Env V E) (k : K) (v : V k) :
    (env.set k v).events = env.events := rfl
@[simp] theorem remove_storage (env : Env V E) (k : K) :
    (env.remove k).storage = env.storage.remove k := rfl
@[simp] theorem remove_events (env : Env V E) (k : K) :
    (env.remove k).events = env.events := rfl
omit [DecidableEq K] in
@[simp] theorem publish_storage (env : Env V E) (e : E) :
    (env.publish e).storage = env.storage := rfl
omit [DecidableEq K] in
@[simp] theorem publish_events (env : Env V E) (e : E) :
    (env.publish e).events = env.events ++ [e] := rfl
omit [DecidableEq K] in
@[simp] theorem publish_writes (env : Env V E) (e : E) :
    (env.publish e).writes = env.writes := rfl

end Env

namespace Prog

/-- Return a value and change nothing. -/
protected def pure (a : α) : Prog A V E ε α := fun _ env => (.ok a, env)

/-- Run `m`, and `k` on its value unless `m` stopped. -/
protected def bind (m : Prog A V E ε α) (k : α → Prog A V E ε β) : Prog A V E ε β :=
  fun f env =>
    match m f env with
    | (.ok a, env') => k a f env'
    | (.error x, env') => (.error x, env')

instance : Monad (Prog A V E ε) where
  pure := Prog.pure
  bind := Prog.bind

/-- Stop with an error of the contract: `return Err(e)`. -/
def fail (e : ε) : Prog A V E ε α := fun _ env => (.error (.err e), env)

/-- `storage().instance().get(k)`. -/
def get (k : K) : Prog A V E ε (Option (V k)) := fun _ env => (.ok (env.storage k), env)

/-- `storage().instance().has(k)`. -/
def has (k : K) : Prog A V E ε Bool := fun _ env => (.ok (env.storage k).isSome, env)

/-- `storage().instance().set(k, v)`. -/
def set [DecidableEq K] (k : K) (v : V k) : Prog A V E ε Unit :=
  fun _ env => (.ok (), env.set k v)

/-- `storage().instance().remove(k)`. -/
def remove [DecidableEq K] (k : K) : Prog A V E ε Unit :=
  fun _ env => (.ok (), env.remove k)

/-- `events().publish(e)`. -/
def publish (e : E) : Prog A V E ε Unit := fun _ env => (.ok (), env.publish e)

/-- `ledger().timestamp()`. -/
def timestamp : Prog A V E ε Nat := fun f env => (.ok f.timestamp, env)

/-- `ledger().sequence()`. -/
def sequence : Prog A V E ε Nat := fun f env => (.ok f.sequence, env)

/-- `a.require_auth()`: the host aborts the invocation unless `a` authorized it. -/
def requireAuth [DecidableEq A] (a : A) : Prog A V E ε Unit :=
  fun f env => if a ∈ f.auths then (.ok (), env) else (.error .trap, env)

/-- `storage().instance().get(k).unwrap_or(d)`. -/
def getD (k : K) (d : V k) : Prog A V E ε (V k) := fun _ env => (.ok ((env.storage k).getD d), env)

/-- `storage().instance().get(k).ok_or(e)?`. -/
def getOr (k : K) (e : ε) : Prog A V E ε (V k) := fun _ env =>
  match env.storage k with
  | some v => (.ok v, env)
  | none => (.error (.err e), env)

/-- `if c { return Err(e) }`. -/
def failIf (c : Prop) [Decidable c] (e : ε) : Prog A V E ε Unit :=
  fun _ env => if c then (.error (.err e), env) else (.ok (), env)

/-- `if let Some(a) = o { m(a) }`. -/
def whenSome {γ : Type} (o : Option γ) (m : γ → Prog A V E ε Unit) : Prog A V E ε Unit :=
  match o with
  | some a => m a
  | none => Prog.pure ()

/-- A total function of the storage. -/
def ask (g : Store V → α) : Prog A V E ε α := fun _ env => (.ok (g env.storage), env)

/-- Run a function that only reads the storage. -/
def reads (g : Store V → Except ε α) : Prog A V E ε α :=
  fun _ env =>
    match g env.storage with
    | .ok a => (.ok a, env)
    | .error e => (.error (.err e), env)

/-! ## Runs that return

`m.Returns f env a env'` says that `m` started in `env` returns `a` and leaves `env'`. The
rules below are simp lemmas, so that unfolding an entry point turns `Returns` into the guards
that let the call through and the environment it leaves. -/

/-- `m` run in `env` returns `a` and leaves `env'`. -/
def Returns (m : Prog A V E ε α) (f : Frame A) (env : Env V E) (a : α) (env' : Env V E) : Prop :=
  m f env = (.ok a, env')

@[simp] theorem returns_pure (a b : α) (f : Frame A) (env env' : Env V E) :
    (pure a : Prog A V E ε α).Returns f env b env' ↔ b = a ∧ env' = env := by
  simp only [Returns, pure, Prog.pure, Prod.mk.injEq, Except.ok.injEq]
  exact ⟨fun h => ⟨h.1.symm, h.2.symm⟩, fun h => ⟨h.1.symm, h.2.symm⟩⟩

theorem returns_bind (m : Prog A V E ε α) (k : α → Prog A V E ε β) (f : Frame A)
    (env env' : Env V E) (b : β) :
    (m >>= k).Returns f env b env' ↔
      ∃ a mid, m.Returns f env a mid ∧ (k a).Returns f mid b env' := by
  simp only [Returns, bind, Prog.bind]
  rcases h : m f env with ⟨_ | a, mid⟩
  · simp
  · refine ⟨fun hk => ⟨a, mid, rfl, hk⟩, ?_⟩
    rintro ⟨a', mid', heq, hk⟩
    simp only [Prod.mk.injEq, Except.ok.injEq] at heq
    obtain ⟨rfl, rfl⟩ := heq
    exact hk

@[simp] theorem returns_fail (e : ε) (f : Frame A) (env env' : Env V E) (a : α) :
    ¬ (fail e : Prog A V E ε α).Returns f env a env' := by
  simp [Returns, fail]

@[simp] theorem returns_get (k : K) (f : Frame A) (env env' : Env V E) (a : Option (V k)) :
    (get k : Prog A V E ε _).Returns f env a env' ↔ a = env.storage k ∧ env' = env := by
  simp only [Returns, get, Prod.mk.injEq, Except.ok.injEq, eq_comm]

@[simp] theorem returns_has (k : K) (f : Frame A) (env env' : Env V E) (b : Bool) :
    (has k : Prog A V E ε _).Returns f env b env' ↔
      b = (env.storage k).isSome ∧ env' = env := by
  simp only [Returns, has, Prod.mk.injEq, Except.ok.injEq, eq_comm]

@[simp] theorem returns_set [DecidableEq K] (k : K) (v : V k) (f : Frame A)
    (env env' : Env V E) (u : Unit) :
    (set k v : Prog A V E ε _).Returns f env u env' ↔ env' = env.set k v := by
  simp only [Returns, set, Prod.mk.injEq, true_and, eq_comm]

@[simp] theorem returns_remove [DecidableEq K] (k : K) (f : Frame A)
    (env env' : Env V E) (u : Unit) :
    (remove k : Prog A V E ε _).Returns f env u env' ↔ env' = env.remove k := by
  simp only [Returns, remove, Prod.mk.injEq, true_and, eq_comm]

@[simp] theorem returns_publish (e : E) (f : Frame A) (env env' : Env V E) (u : Unit) :
    (publish e : Prog A V E ε _).Returns f env u env' ↔ env' = env.publish e := by
  simp only [Returns, publish, Prod.mk.injEq, true_and, eq_comm]

@[simp] theorem returns_timestamp (f : Frame A) (env env' : Env V E) (t : Nat) :
    (timestamp : Prog A V E ε _).Returns f env t env' ↔ t = f.timestamp ∧ env' = env := by
  simp only [Returns, timestamp, Prod.mk.injEq, Except.ok.injEq, eq_comm]

@[simp] theorem returns_sequence (f : Frame A) (env env' : Env V E) (t : Nat) :
    (sequence : Prog A V E ε _).Returns f env t env' ↔ t = f.sequence ∧ env' = env := by
  simp only [Returns, sequence, Prod.mk.injEq, Except.ok.injEq, eq_comm]

@[simp] theorem returns_requireAuth [DecidableEq A] (a : A) (f : Frame A)
    (env env' : Env V E) (u : Unit) :
    (requireAuth a : Prog A V E ε _).Returns f env u env' ↔ a ∈ f.auths ∧ env' = env := by
  by_cases h : a ∈ f.auths <;> simp [Returns, requireAuth, h, eq_comm]

@[simp] theorem returns_getD (k : K) (d : V k) (f : Frame A) (env env' : Env V E) (a : V k) :
    (getD k d : Prog A V E ε _).Returns f env a env' ↔
      a = (env.storage k).getD d ∧ env' = env := by
  simp only [Returns, getD, Prod.mk.injEq, Except.ok.injEq, eq_comm]

@[simp] theorem returns_getOr (k : K) (e : ε) (f : Frame A) (env env' : Env V E) (a : V k) :
    (getOr k e : Prog A V E ε _).Returns f env a env' ↔
      env.storage k = some a ∧ env' = env := by
  simp only [Returns, getOr]
  cases env.storage k <;> simp [eq_comm]

@[simp] theorem returns_failIf (c : Prop) [Decidable c] (e : ε) (f : Frame A)
    (env env' : Env V E) (u : Unit) :
    (failIf c e : Prog A V E ε _).Returns f env u env' ↔ ¬ c ∧ env' = env := by
  by_cases h : c <;> simp [Returns, failIf, h, eq_comm]

@[simp] theorem whenSome_some {γ : Type} (a : γ) (m : γ → Prog A V E ε Unit) :
    whenSome (some a) m = m a := rfl

@[simp] theorem whenSome_none {γ : Type} (m : γ → Prog A V E ε Unit) :
    whenSome none m = pure () := rfl

@[simp] theorem returns_ask (g : Store V → α) (f : Frame A) (env env' : Env V E) (a : α) :
    (ask g : Prog A V E ε α).Returns f env a env' ↔ a = g env.storage ∧ env' = env := by
  simp only [Returns, ask, Prod.mk.injEq, Except.ok.injEq, eq_comm]

@[simp] theorem returns_reads (g : Store V → Except ε α) (f : Frame A) (env env' : Env V E)
    (a : α) :
    (reads g : Prog A V E ε α).Returns f env a env' ↔ g env.storage = .ok a ∧ env' = env := by
  simp only [Returns, reads]
  cases g env.storage <;> simp [eq_comm]

@[simp] theorem returns_ite (c : Prop) [Decidable c] (m n : Prog A V E ε α) (f : Frame A)
    (env env' : Env V E) (a : α) :
    (if c then m else n).Returns f env a env' ↔
      (c ∧ m.Returns f env a env') ∨ (¬ c ∧ n.Returns f env a env') := by
  by_cases h : c <;> simp [h]

/-! ### A primitive followed by the rest of a program -/

section Rest

variable (f : Frame A) (env env' : Env V E) (b : β)

@[simp] theorem returns_pure_bind (a : α) (g : α → Prog A V E ε β) :
    ((pure a : Prog A V E ε α) >>= g).Returns f env b env' ↔ (g a).Returns f env b env' :=
  Iff.rfl

theorem bind_assoc {γ : Type} (m : Prog A V E ε γ) (h : γ → Prog A V E ε α)
    (g : α → Prog A V E ε β) : (m >>= h) >>= g = m >>= fun c => h c >>= g := by
  funext f env
  simp only [bind, Prog.bind]
  rcases m f env with ⟨_ | c, mid⟩ <;> rfl

@[simp] theorem returns_bind_assoc {γ : Type} (m : Prog A V E ε γ) (h : γ → Prog A V E ε α)
    (g : α → Prog A V E ε β) :
    ((m >>= h) >>= g).Returns f env b env' ↔
      (m >>= fun c => h c >>= g).Returns f env b env' := by
  rw [bind_assoc]

@[simp] theorem returns_get_bind (k : K) (g : Option (V k) → Prog A V E ε β) :
    (get k >>= g).Returns f env b env' ↔ (g (env.storage k)).Returns f env b env' :=
  Iff.rfl

@[simp] theorem returns_getD_bind (k : K) (d : V k) (g : V k → Prog A V E ε β) :
    (getD k d >>= g).Returns f env b env' ↔
      (g ((env.storage k).getD d)).Returns f env b env' :=
  Iff.rfl

@[simp] theorem returns_has_bind (k : K) (g : Bool → Prog A V E ε β) :
    (has k >>= g).Returns f env b env' ↔ (g (env.storage k).isSome).Returns f env b env' :=
  Iff.rfl

@[simp] theorem returns_ask_bind (q : Store V → α) (g : α → Prog A V E ε β) :
    (ask q >>= g).Returns f env b env' ↔ (g (q env.storage)).Returns f env b env' :=
  Iff.rfl

@[simp] theorem returns_timestamp_bind (g : Nat → Prog A V E ε β) :
    (timestamp >>= g).Returns f env b env' ↔ (g f.timestamp).Returns f env b env' :=
  Iff.rfl

@[simp] theorem returns_sequence_bind (g : Nat → Prog A V E ε β) :
    (sequence >>= g).Returns f env b env' ↔ (g f.sequence).Returns f env b env' :=
  Iff.rfl

@[simp] theorem returns_set_bind [DecidableEq K] (k : K) (v : V k) (g : Unit → Prog A V E ε β) :
    (set k v >>= g).Returns f env b env' ↔ (g ()).Returns f (env.set k v) b env' :=
  Iff.rfl

@[simp] theorem returns_remove_bind [DecidableEq K] (k : K) (g : Unit → Prog A V E ε β) :
    (remove k >>= g).Returns f env b env' ↔ (g ()).Returns f (env.remove k) b env' :=
  Iff.rfl

@[simp] theorem returns_publish_bind (e : E) (g : Unit → Prog A V E ε β) :
    (publish e >>= g).Returns f env b env' ↔ (g ()).Returns f (env.publish e) b env' :=
  Iff.rfl

@[simp] theorem returns_failIf_bind (c : Prop) [Decidable c] (e : ε)
    (g : Unit → Prog A V E ε β) :
    (failIf c e >>= g).Returns f env b env' ↔ ¬ c ∧ (g ()).Returns f env b env' := by
  by_cases h : c <;> simp [Returns, failIf, bind, Prog.bind, h]

@[simp] theorem returns_getOr_bind (k : K) (e : ε) (g : V k → Prog A V E ε β) :
    (getOr k e >>= g).Returns f env b env' ↔
      ∃ v, env.storage k = some v ∧ (g v).Returns f env b env' := by
  simp only [Returns, getOr, bind, Prog.bind]
  cases env.storage k <;> simp

@[simp] theorem returns_requireAuth_bind [DecidableEq A] (a : A) (g : Unit → Prog A V E ε β) :
    (requireAuth a >>= g).Returns f env b env' ↔
      a ∈ f.auths ∧ (g ()).Returns f env b env' := by
  by_cases h : a ∈ f.auths <;> simp [Returns, requireAuth, bind, Prog.bind, h]

@[simp] theorem returns_reads_bind (q : Store V → Except ε α) (g : α → Prog A V E ε β) :
    (reads q >>= g).Returns f env b env' ↔
      ∃ a, q env.storage = .ok a ∧ (g a).Returns f env b env' := by
  simp only [Returns, reads, bind, Prog.bind]
  cases q env.storage <;> simp

@[simp] theorem returns_ite_bind (c : Prop) [Decidable c] (m n : Prog A V E ε α)
    (g : α → Prog A V E ε β) :
    ((if c then m else n) >>= g).Returns f env b env' ↔
      (c ∧ (m >>= g).Returns f env b env') ∨ (¬ c ∧ (n >>= g).Returns f env b env') := by
  by_cases h : c <;> simp [h]

@[simp] theorem returns_fail_bind (e : ε) (g : α → Prog A V E ε β) :
    ¬ (fail e >>= g).Returns f env b env' := by
  simp [Returns, fail, bind, Prog.bind]

end Rest

/-! ## Runs that stop -/

/-- `m` run in `env` stops with the fault `x`, having got to `env'`. -/
def Fails (m : Prog A V E ε α) (f : Frame A) (env : Env V E) (x : Fault ε) (env' : Env V E) :
    Prop :=
  m f env = (.error x, env')

/-- Every run either returns or stops. -/
theorem returns_or_fails (m : Prog A V E ε α) (f : Frame A) (env : Env V E) :
    (∃ a env', m.Returns f env a env') ∨ ∃ x env', m.Fails f env x env' := by
  rcases h : m f env with ⟨x | a, env'⟩
  · exact .inr ⟨x, env', h⟩
  · exact .inl ⟨a, env', h⟩

/-- A program goes on from where its first part returned. -/
theorem Returns.bind_apply {m : Prog A V E ε α} {f : Frame A} {env mid : Env V E} {a : α}
    (h : m.Returns f env a mid) (k : α → Prog A V E ε β) : (m >>= k) f env = k a f mid := by
  simp only [Bind.bind, Prog.bind, show m f env = _ from h]

/-- A program stops where its first part stopped. -/
theorem Fails.bind {m : Prog A V E ε α} {f : Frame A} {env mid : Env V E} {x : Fault ε}
    (h : m.Fails f env x mid) (k : α → Prog A V E ε β) : (m >>= k).Fails f env x mid := by
  simp only [Fails, Bind.bind, Prog.bind, show m f env = _ from h]

/-! ## Errors that a program never raises -/

/-- `m` does not stop with the error `e`. -/
def Never (e : ε) (m : Prog A V E ε α) : Prop := ∀ f env env', ¬ m.Fails f env (.err e) env'

namespace Never

theorem reads {g : Store V → Except ε α} {e : ε} (h : ∀ s, g s ≠ .error e) :
    Never e (Prog.reads g : Prog A V E ε α) := by
  intro f env env' hfails
  simp only [Fails, Prog.reads] at hfails
  cases hg : g env.storage with
  | ok a => simp [hg] at hfails
  | error e' =>
    simp only [hg, Prod.mk.injEq, Except.error.injEq, Fault.err.injEq] at hfails
    exact h env.storage (by rw [hg, hfails.1])

theorem requireAuth [DecidableEq A] (a : A) (e : ε) :
    Never e (Prog.requireAuth a : Prog A V E ε Unit) := by
  intro f env env' hfails
  simp only [Fails, Prog.requireAuth] at hfails
  split at hfails <;> simp at hfails

theorem getOr (k : K) {e e' : ε} (h : e' ≠ e) : Never e (Prog.getOr k e' : Prog A V E ε _) := by
  intro f env env' hfails
  simp only [Fails, Prog.getOr] at hfails
  split at hfails <;> simp [h] at hfails

theorem failIf (c : Prop) [Decidable c] {e e' : ε} (h : e' ≠ e) :
    Never e (Prog.failIf c e' : Prog A V E ε Unit) := by
  intro f env env' hfails
  simp only [Fails, Prog.failIf] at hfails
  split at hfails <;> simp [h] at hfails

/-- An error that the first part never raises comes from the rest. -/
theorem of_bind {m : Prog A V E ε α} {k : α → Prog A V E ε β} {f : Frame A} {env env' : Env V E}
    {e : ε} (hm : Never e m) (h : (m >>= k).Fails f env (.err e) env') :
    ∃ a mid, m.Returns f env a mid ∧ (k a).Fails f mid (.err e) env' := by
  rcases returns_or_fails m f env with ⟨a, mid, ha⟩ | ⟨x, mid, hx⟩
  · refine ⟨a, mid, ha, ?_⟩
    rwa [Fails, ha.bind_apply] at h
  · have hsame := (hx.bind k).symm.trans h
    simp only [Prod.mk.injEq, Except.error.injEq] at hsame
    exact absurd (hsame.1 ▸ hx) (hm f env mid)

theorem bind {m : Prog A V E ε α} {k : α → Prog A V E ε β} {e : ε} (hm : Never e m)
    (hk : ∀ a, Never e (k a)) : Never e (m >>= k) := by
  intro f env env' hfails
  obtain ⟨a, mid, -, hrest⟩ := of_bind hm hfails
  exact hk a f mid env' hrest

end Never

/-! ## Programs that write some keys only -/

/-- `m` leaves the keys outside `W` as they are. -/
def Writes (W : Set K) (m : Prog A V E ε α) : Prop :=
  ∀ f env a env', m.Returns f env a env' → ∀ k, k ∉ W → env'.storage k = env.storage k

namespace Writes

variable {W : Set K}

theorem pure (a : α) : Writes W (Pure.pure a : Prog A V E ε α) := by
  intro f env b env' h k _
  rw [((returns_pure ..).mp h).2]

theorem bind {m : Prog A V E ε α} {k : α → Prog A V E ε β} (hm : Writes W m)
    (hk : ∀ a, Writes W (k a)) : Writes W (m >>= k) := by
  intro f env b env' h j hj
  obtain ⟨a, mid, ha, hb⟩ := (returns_bind ..).mp h
  rw [hk a f mid b env' hb j hj, hm f env a mid ha j hj]

theorem get (k : K) : Writes W (Prog.get k : Prog A V E ε _) := by
  intro f env b env' h j _
  rw [((returns_get ..).mp h).2]

theorem set [DecidableEq K] {k : K} (hk : k ∈ W) (v : V k) :
    Writes W (Prog.set k v : Prog A V E ε _) := by
  intro f env b env' h j hj
  have hne : j ≠ k := by
    rintro rfl
    exact hj hk
  rw [(returns_set ..).mp h, Env.set_storage]
  exact Store.set_other _ _ hne

theorem remove [DecidableEq K] {k : K} (hk : k ∈ W) :
    Writes W (Prog.remove k : Prog A V E ε _) := by
  intro f env b env' h j hj
  have hne : j ≠ k := by
    rintro rfl
    exact hj hk
  rw [(returns_remove ..).mp h, Env.remove_storage]
  exact Store.remove_other _ hne

theorem whenSome {γ : Type} (o : Option γ) {m : γ → Prog A V E ε Unit}
    (hm : ∀ a, Writes W (m a)) : Writes W (Prog.whenSome o m) := by
  cases o with
  | none => exact Writes.pure ()
  | some a => exact hm a

theorem foldlM {γ : Type} {body : α → γ → Prog A V E ε α} (hb : ∀ a c, Writes W (body a c))
    (a : α) (l : List γ) : Writes W (l.foldlM body a) := by
  induction l generalizing a with
  | nil => exact Writes.pure a
  | cons c l ih => exact Writes.bind (hb a c) fun a' => ih a'

end Writes

/-! ## Programs that always return -/

/-- `m` returns from every environment. -/
def Total (m : Prog A V E ε α) : Prop := ∀ f env, ∃ a env', m.Returns f env a env'

/-- A program that always returns raises no error. -/
theorem Total.never {m : Prog A V E ε α} (h : Total m) (e : ε) : Never e m := by
  intro f env env' hfails
  obtain ⟨a, mid, ha⟩ := h f env
  have hsame := ha.symm.trans hfails
  simp at hsame

namespace Total

theorem pure (a : α) : Total (Pure.pure a : Prog A V E ε α) :=
  fun _ env => ⟨a, env, rfl⟩

theorem bind {m : Prog A V E ε α} {k : α → Prog A V E ε β} (hm : Total m)
    (hk : ∀ a, Total (k a)) : Total (m >>= k) := by
  intro f env
  obtain ⟨a, mid, ha⟩ := hm f env
  obtain ⟨b, env', hb⟩ := hk a f mid
  exact ⟨b, env', (returns_bind ..).mpr ⟨a, mid, ha, hb⟩⟩

theorem get (k : K) : Total (Prog.get k : Prog A V E ε _) := fun _ env => ⟨_, env, rfl⟩

theorem has (k : K) : Total (Prog.has k : Prog A V E ε _) := fun _ env => ⟨_, env, rfl⟩

theorem getD (k : K) (d : V k) : Total (Prog.getD k d : Prog A V E ε _) :=
  fun _ env => ⟨_, env, rfl⟩

theorem set [DecidableEq K] (k : K) (v : V k) : Total (Prog.set k v : Prog A V E ε _) :=
  fun _ _ => ⟨_, _, rfl⟩

theorem remove [DecidableEq K] (k : K) : Total (Prog.remove k : Prog A V E ε _) :=
  fun _ _ => ⟨_, _, rfl⟩

theorem publish (e : E) : Total (Prog.publish e : Prog A V E ε _) :=
  fun _ _ => ⟨_, _, rfl⟩

theorem timestamp : Total (Prog.timestamp : Prog A V E ε _) :=
  fun _ env => ⟨_, env, rfl⟩

theorem sequence : Total (Prog.sequence : Prog A V E ε _) :=
  fun _ env => ⟨_, env, rfl⟩

theorem ask (g : Store V → α) : Total (Prog.ask g : Prog A V E ε α) :=
  fun _ env => ⟨_, env, rfl⟩

theorem whenSome {γ : Type} (o : Option γ) {m : γ → Prog A V E ε Unit}
    (hm : ∀ a, Total (m a)) : Total (Prog.whenSome o m) := by
  cases o with
  | none => exact Total.pure ()
  | some a => exact hm a

theorem ite (c : Prop) [Decidable c] {m n : Prog A V E ε α} (hm : Total m)
    (hn : Total n) : Total (if c then m else n) := by
  by_cases h : c <;> simpa [h]

theorem foldlM {γ : Type} {body : α → γ → Prog A V E ε α} (hb : ∀ a c, Total (body a c))
    (a : α) (l : List γ) : Total (l.foldlM body a) := by
  induction l generalizing a with
  | nil => exact Total.pure a
  | cons c l ih => exact Total.bind (hb a c) fun a' => ih a'

theorem forM {γ : Type} {body : γ → Prog A V E ε PUnit} (hb : ∀ c, Total (body c))
    (l : List γ) : Total (l.forM body) := by
  induction l with
  | nil => exact Total.pure _
  | cons c l ih => exact Total.bind (hb c) fun _ => ih

end Total

end Prog

end Host
