import Mathlib.Data.List.Induction
import ApexChainx.Host.Prog

/-!
# Transactions and runs

The host runs one call at a time. When the call returns, its storage writes and its events are
committed; when it stops, by an error of the contract or by a trap, both are discarded. A run
is a sequence of such calls, by any callers and at any ledger times; `trace` lists its steps,
each with the storage it started from.
-/

namespace Host

variable {K A C E ε R : Type} {V : K → Type}

/-- One call submitted to the host. -/
structure Tx (A C : Type) where
  call : C
  frame : Frame A
  deriving DecidableEq, Repr

/-- What the host commits for one call, and the reply the caller sees. -/
structure Outcome {K : Type} (V : K → Type) (E ε R : Type) where
  storage : Store V
  events : List E
  reply : Except (Fault ε) R

/-- Run one call and commit or discard its effects. -/
def invoke (exec : C → Prog A V E ε R) (tx : Tx A C) (s : Store V) : Outcome V E ε R :=
  match exec tx.call tx.frame ⟨s, [], []⟩ with
  | (.ok r, env) => ⟨env.storage, env.events, .ok r⟩
  | (.error x, _) => ⟨s, [], .error x⟩

/-- One step of a run: the storage before it and the call. -/
structure Step {K : Type} (V : K → Type) (A C : Type) where
  pre : Store V
  tx : Tx A C

section Runs

variable (exec : C → Prog A V E ε R)

/-- The storage after a run. -/
def final (s : Store V) (txs : List (Tx A C)) : Store V :=
  txs.foldl (fun s tx => (invoke exec tx s).storage) s

/-- The steps of a run. -/
def trace (s : Store V) : List (Tx A C) → List (Step V A C)
  | [] => []
  | tx :: txs => ⟨s, tx⟩ :: trace (invoke exec tx s).storage txs

namespace Step

/-- The outcome of a step. -/
def outcome (st : Step V A C) : Outcome V E ε R := invoke exec st.tx st.pre

/-- The storage after a step. -/
def post (st : Step V A C) : Store V := (st.outcome exec).storage

/-- The events a step committed. -/
def events (st : Step V A C) : List E := (st.outcome exec).events

end Step

/-- The events a run committed, in order. -/
def committed (s : Store V) (txs : List (Tx A C)) : List E :=
  (trace exec s txs).flatMap (Step.events exec)

end Runs

variable {exec : C → Prog A V E ε R}

/-- A call commits exactly what its program leaves, when the program returns. -/
theorem invoke_of_returns {tx : Tx A C} {s : Store V} {r : R} {env : Env V E}
    (h : (exec tx.call).Returns tx.frame ⟨s, [], []⟩ r env) :
    invoke exec tx s = ⟨env.storage, env.events, .ok r⟩ := by
  simp only [invoke, show exec tx.call tx.frame ⟨s, [], []⟩ = _ from h]

/-- A call that stops commits nothing. -/
theorem invoke_of_fails {tx : Tx A C} {s : Store V} {x : Fault ε} {env : Env V E}
    (h : (exec tx.call).Fails tx.frame ⟨s, [], []⟩ x env) :
    invoke exec tx s = ⟨s, [], .error x⟩ := by
  simp only [invoke, show exec tx.call tx.frame ⟨s, [], []⟩ = _ from h]

/-- What the host commits for a program that is a call of its own. -/
def Prog.commits (m : Prog A V E ε R) (f : Frame A) (s : Store V) : Outcome V E ε R :=
  invoke (fun m : Prog A V E ε R => m) ⟨m, f⟩ s

theorem Prog.commits_of_returns {m : Prog A V E ε R} {f : Frame A} {s s' : Store V}
    {evs : List E} {r : R}
    (h : ∃ env, m.Returns f ⟨s, [], []⟩ r env ∧ env.storage = s' ∧ env.events = evs) :
    m.commits f s = ⟨s', evs, .ok r⟩ := by
  obtain ⟨env, hr, rfl, rfl⟩ := h
  exact invoke_of_returns hr

/-- A first part that returns and changes nothing can be left out. -/
theorem Prog.Returns.commits_bind {B : Type} {m : Prog A V E ε B} {f : Frame A} {s : Store V}
    {b : B} (h : m.Returns f ⟨s, [], []⟩ b ⟨s, [], []⟩) (k : B → Prog A V E ε R) :
    (m >>= k).commits f s = (k b).commits f s := by
  simp only [Prog.commits, invoke, h.bind_apply]

/-- A first part that stops decides the outcome. -/
theorem Prog.Fails.commits_bind {B : Type} {m : Prog A V E ε B} {f : Frame A} {s : Store V}
    {x : Fault ε} {env : Env V E} (h : m.Fails f ⟨s, [], []⟩ x env) (k : B → Prog A V E ε R) :
    (m >>= k).commits f s = ⟨s, [], .error x⟩ :=
  invoke_of_fails (h.bind k)

section Checks

variable {B : Type} {f : Frame A} {s : Store V}

theorem Prog.commits_reads_ok {q : Store V → Except ε B} {b : B} (h : q s = .ok b)
    (k : B → Prog A V E ε R) : (Prog.reads q >>= k).commits f s = (k b).commits f s :=
  Prog.Returns.commits_bind ((Prog.returns_reads ..).mpr ⟨h, rfl⟩) k

theorem Prog.commits_reads_error {q : Store V → Except ε B} {e : ε} (h : q s = .error e)
    (k : B → Prog A V E ε R) : (Prog.reads q >>= k).commits f s = ⟨s, [], .error (.err e)⟩ := by
  have hfails : (Prog.reads q : Prog A V E ε B).Fails f ⟨s, [], []⟩ (.err e) ⟨s, [], []⟩ := by
    simp [Prog.Fails, Prog.reads, h]
  exact hfails.commits_bind k

/-- Two programs that start with one check commit the same exactly when what is behind it does,
where it passes. -/
theorem Prog.commits_check_iff (q : Store V → Except ε Unit) (k k' : Unit → Prog A V E ε R) :
    (Prog.reads q >>= k).commits f s = (Prog.reads q >>= k').commits f s ↔
      (q s = .ok () → (k ()).commits f s = (k' ()).commits f s) := by
  cases hq : q s with
  | error e => simp [Prog.commits_reads_error hq]
  | ok _ => simp [Prog.commits_reads_ok hq]

theorem Prog.commits_failIf_iff (c : Prop) [Decidable c] (e : ε) (k k' : Unit → Prog A V E ε R) :
    (Prog.failIf c e >>= k).commits f s = (Prog.failIf c e >>= k').commits f s ↔
      (¬ c → (k ()).commits f s = (k' ()).commits f s) := by
  by_cases h : c
  · have hfails : (Prog.failIf c e : Prog A V E ε Unit).Fails f ⟨s, [], []⟩ (.err e)
        ⟨s, [], []⟩ := by simp [Prog.Fails, Prog.failIf, h]
    simp [hfails.commits_bind, h]
  · have hreturns : (Prog.failIf c e : Prog A V E ε Unit).Returns f ⟨s, [], []⟩ ()
        ⟨s, [], []⟩ := by simp [h]
    simp [hreturns.commits_bind, h]

end Checks

/-- Every call either returns, and commits, or stops, and commits nothing. -/
theorem invoke_cases (exec : C → Prog A V E ε R) (tx : Tx A C) (s : Store V) :
    (∃ r env, (exec tx.call).Returns tx.frame ⟨s, [], []⟩ r env ∧
      invoke exec tx s = ⟨env.storage, env.events, .ok r⟩) ∨
    ∃ x, invoke exec tx s = ⟨s, [], .error x⟩ := by
  rcases Prog.returns_or_fails (exec tx.call) tx.frame ⟨s, [], []⟩ with ⟨r, env, h⟩ | ⟨x, env, h⟩
  · exact .inl ⟨r, env, h, invoke_of_returns h⟩
  · exact .inr ⟨x, invoke_of_fails h⟩

/-- A successful reply comes from a program that returned it. -/
theorem returns_of_reply {tx : Tx A C} {s : Store V} {r : R}
    (h : (invoke exec tx s).reply = .ok r) :
    ∃ env, (exec tx.call).Returns tx.frame ⟨s, [], []⟩ r env ∧
      invoke exec tx s = ⟨env.storage, env.events, .ok r⟩ := by
  rcases invoke_cases exec tx s with ⟨r', env, hr, hi⟩ | ⟨x, hi⟩
  · rw [hi] at h
    cases h
    exact ⟨env, hr, hi⟩
  · rw [hi] at h
    cases h

@[simp] theorem final_nil (s : Store V) : final exec s [] = s := rfl

@[simp] theorem final_cons (s : Store V) (tx : Tx A C) (txs : List (Tx A C)) :
    final exec s (tx :: txs) = final exec (invoke exec tx s).storage txs := rfl

theorem final_append (s : Store V) (xs ys : List (Tx A C)) :
    final exec s (xs ++ ys) = final exec (final exec s xs) ys := by
  simp [final, List.foldl_append]

theorem trace_append (s : Store V) (xs ys : List (Tx A C)) :
    trace exec s (xs ++ ys) = trace exec s xs ++ trace exec (final exec s xs) ys := by
  induction xs generalizing s with
  | nil => rfl
  | cons tx xs ih => simp [trace, ih]

/-- The calls of the steps of a run are the run. -/
theorem map_tx_trace (s : Store V) (txs : List (Tx A C)) :
    (trace exec s txs).map Step.tx = txs := by
  induction txs generalizing s with
  | nil => rfl
  | cons tx txs ih => simp [trace, ih]

/-- A step of a run splits the run at its call. -/
theorem trace_split {s : Store V} {txs : List (Tx A C)} {past rest : List (Step V A C)}
    {st : Step V A C} (h : trace exec s txs = past ++ st :: rest) :
    ∃ before tx later, txs = before ++ tx :: later ∧ past = trace exec s before ∧
      st = ⟨final exec s before, tx⟩ := by
  induction past generalizing s txs with
  | nil =>
    cases txs with
    | nil => cases h
    | cons tx later =>
      simp only [trace, List.nil_append, List.cons.injEq] at h
      exact ⟨[], tx, later, rfl, rfl, h.1.symm⟩
  | cons first past ih =>
    cases txs with
    | nil => cases h
    | cons tx txs =>
      simp only [trace, List.cons_append, List.cons.injEq] at h
      obtain ⟨rfl, h⟩ := h
      obtain ⟨before, tx', later, rfl, rfl, rfl⟩ := ih h
      exact ⟨tx :: before, tx', later, rfl, rfl, rfl⟩

/-- A step of a run is a call on the storage its prefix leaves. -/
theorem mem_trace {s : Store V} {txs : List (Tx A C)} {st : Step V A C} :
    st ∈ trace exec s txs ↔
      ∃ before tx, before ++ [tx] <+: txs ∧ st = ⟨final exec s before, tx⟩ := by
  constructor
  · intro h
    obtain ⟨past, rest, hsplit⟩ := List.append_of_mem h
    obtain ⟨before, tx, later, rfl, -, rfl⟩ := trace_split hsplit
    exact ⟨before, tx, ⟨later, by simp⟩, rfl⟩
  · rintro ⟨before, tx, ⟨later, rfl⟩, rfl⟩
    rw [List.append_assoc, trace_append]
    exact List.mem_append_right _ (List.mem_cons_self ..)

theorem committed_append (s : Store V) (xs ys : List (Tx A C)) :
    committed exec s (xs ++ ys) =
      committed exec s xs ++ committed exec (final exec s xs) ys := by
  simp [committed, trace_append]

theorem committed_cons (s : Store V) (tx : Tx A C) (txs : List (Tx A C)) :
    committed exec s (tx :: txs) =
      (invoke exec tx s).events ++ committed exec (invoke exec tx s).storage txs := rfl

@[simp] theorem committed_singleton (s : Store V) (tx : Tx A C) :
    committed exec s [tx] = (invoke exec tx s).events := by
  simp [committed, trace, Step.events, Step.outcome]

/-- What holds of the empty run, and is kept by one more call, holds of every run. The first
argument of `P` is the run so far, as its list of steps. -/
theorem run_induction {P : List (Step V A C) → Store V → Prop} {s : Store V} (h₀ : P [] s)
    (hstep : ∀ past cur tx, P past cur →
      P (past ++ [⟨cur, tx⟩]) (invoke exec tx cur).storage) (txs : List (Tx A C)) :
    P (trace exec s txs) (final exec s txs) := by
  induction txs using List.reverseRecOn with
  | nil => exact h₀
  | append_singleton txs tx ih =>
    rw [trace_append, final_append]
    exact hstep _ _ tx ih

/-- An invariant of the storage that every call keeps holds after every run. -/
theorem invariant_run {I : Store V → Prop} {s : Store V} (h₀ : I s)
    (hstep : ∀ cur tx, I cur → I (invoke exec tx cur).storage) (txs : List (Tx A C)) :
    I (final exec s txs) :=
  run_induction (P := fun _ cur => I cur) h₀ (fun _ cur tx h => hstep cur tx h) txs

/-- What every call keeps that does not break it, and a call that breaks it ends, holds all along
a run exactly when no call of the run breaks it. The steps may use an invariant `I` that the calls
keep as long as it holds. -/
theorem holds_along_iff {I P : List (Tx A C) → Prop} {B : Step V A C → Prop} {s : Store V}
    (h₀ : I [] ∧ P [])
    (hkeep : ∀ txs tx, I txs → P txs → ¬ B ⟨final exec s txs, tx⟩ →
      I (txs ++ [tx]) ∧ P (txs ++ [tx]))
    (hbreak : ∀ txs tx, I txs → P txs → B ⟨final exec s txs, tx⟩ → ¬ P (txs ++ [tx]))
    (txs : List (Tx A C)) :
    (∀ before, before <+: txs → P before) ↔ ∀ st ∈ trace exec s txs, ¬ B st := by
  constructor
  · intro h
    have hI : ∀ before, before <+: txs → I before := by
      intro before
      induction before using List.reverseRecOn with
      | nil => exact fun _ => h₀.1
      | append_singleton before tx ih =>
        intro hpre
        have hfront := (List.prefix_append before [tx]).trans hpre
        refine (hkeep before tx (ih hfront) (h before hfront) ?_).1
        exact fun hbreaks => hbreak before tx (ih hfront) (h before hfront) hbreaks (h _ hpre)
    intro st hst hbreaks
    obtain ⟨before, tx, hpre, rfl⟩ := mem_trace.mp hst
    have hfront := (List.prefix_append before [tx]).trans hpre
    exact hbreak before tx (hI before hfront) (h before hfront) hbreaks (h _ hpre)
  · intro h before hpre
    refine And.right (a := I before) ?_
    induction before using List.reverseRecOn with
    | nil => exact h₀
    | append_singleton before tx ih =>
      obtain ⟨hI, hP⟩ := ih ((List.prefix_append before [tx]).trans hpre)
      exact hkeep before tx hI hP (h _ (mem_trace.mpr ⟨before, tx, hpre, rfl⟩))

end Host
