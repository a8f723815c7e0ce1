import ApexChainx.Host.Run
import ApexChainx.Misc.ByteReader

/-!
# Test drivers

A test driver holds one deployed contract: it submits calls, reads, and makes assertions. A failed
assertion, or a read that the contract answers with an error, is a panic. `Passes m s Q` says that
the driver started on `s` gets to its end, and ends in `Q`; there is one rule for each way a driver
is built, and one for the loop that performs the operations it decodes from its input (`drive`).
Drivers that only look have rules of their own (`Yields`).
-/

namespace Host

/-- A driver over the storage of one deployed contract; `none` is a panic. -/
abbrev Driver {K : Type} (V : K → Type) := StateT (Store V) Option

variable {K A C E ε R α β σ Op : Type} {V : K → Type}

/-- Reads one operation off the front of an input, unless the input ends inside of it. -/
structure Decoder (Op : Type) where
  next : List UInt8 → Option (Op × List UInt8)
  shrinks : ∀ {data op rest}, next data = some (op, rest) → rest.length < data.length

/-- Operations that start with the byte of their opcode. -/
def Decoder.ofOpcode (operands : UInt8 → Misc.ByteReader Op) : Decoder Op where
  next
    | [] => none
    | opcode :: data => (operands opcode).run data
  shrinks {data _ _} h := by
    cases data with
    | nil => cases h
    | cons opcode data => exact Nat.lt_succ_of_le ((operands opcode).consumes h)

namespace Driver

/-- `client.try_f(..)`: the host runs the call, and the driver sees its reply. -/
def submit (exec : C → Prog A V E ε R) (tx : Tx A C) : Driver V (Except (Fault ε) R) := fun s =>
  let outcome := invoke exec tx s
  some (outcome.reply, outcome.storage)

/-- `client.f(..)`, where the entry point only reads. -/
def read (q : Store V → Except ε α) : Driver V α := fun s =>
  match q s with
  | .ok a => some (a, s)
  | .error _ => none

/-- `assert!(c)`. -/
def assert (c : Prop) [Decidable c] : Driver V Unit := fun s => if c then some ((), s) else none

/-- `o.unwrap()`. -/
def unwrap (o : Option α) : Driver V α := fun s => o.map fun a => (a, s)

/-- Perform the operations of an input until it ends, or until `maxOps` of them counted. An
operation is performed with the number of those that counted before it. -/
def drive (decoder : Decoder Op) (perform : Nat → σ → Op → Driver V (σ × Bool)) (maxOps : Nat)
    (data : List UInt8) (ops : Nat) (st : σ) : Driver V σ :=
  if ops < maxOps then
    match _h : decoder.next data with
    | none => pure st
    | some (op, rest) => do
      let (st, counted) ← perform ops st op
      drive decoder perform maxOps rest (if counted then ops + 1 else ops) st
  else pure st
termination_by data.length
decreasing_by exact decoder.shrinks ‹_›

/-- Started on the storage `s` the driver gets to its end, with a value and in a storage that
satisfy `Q`. -/
def Passes (m : Driver V α) (s : Store V) (Q : α → Store V → Prop) : Prop :=
  ∃ a s', m s = some (a, s') ∧ Q a s'

/-- The driver gets to its end with the value `a` and leaves the storage as it is. -/
def Yields (m : Driver V α) (s : Store V) (a : α) : Prop := m s = some (a, s)

/-- The driver gets to its end and leaves the storage as it is. -/
abbrev Checks (m : Driver V Unit) (s : Store V) : Prop := Yields m s ()

namespace Passes

variable {m : Driver V α} {k : α → Driver V β} {s : Store V} {Q Q' : α → Store V → Prop}
  {T : β → Store V → Prop}

theorem pure {a : α} (h : Q a s) : Passes (Pure.pure a) s Q := ⟨a, s, rfl, h⟩

theorem bind (hm : Passes m s Q) (hk : ∀ a s', Q a s' → Passes (k a) s' T) :
    Passes (m >>= k) s T := by
  obtain ⟨a, mid, ha, hmid⟩ := hm
  obtain ⟨b, s', hb, hs'⟩ := hk a mid hmid
  refine ⟨b, s', ?_, hs'⟩
  simp only [Bind.bind, StateT.bind, ha, Option.bind]
  exact hb

theorem ite {c : Prop} [Decidable c] {n : Driver V α} (hm : c → Passes m s Q)
    (hn : ¬ c → Passes n s Q) : Passes (if c then m else n) s Q := by
  by_cases h : c
  · simpa [h] using hm h
  · simpa [h] using hn h

/-- A call is followed by what holds of its reply in the storage it leaves. -/
theorem submit {exec : C → Prog A V E ε R} {tx : Tx A C}
    {Q : Except (Fault ε) R → Store V → Prop}
    (h : Q (invoke exec tx s).reply (invoke exec tx s).storage) :
    Passes (Driver.submit exec tx) s Q :=
  ⟨_, _, rfl, h⟩

/-- What every operation keeps holds where the loop ends. -/
theorem drive {decoder : Decoder Op} {perform : Nat → σ → Op → Driver V (σ × Bool)}
    {maxOps : Nat} {I : σ → Store V → Prop}
    (h : ∀ ops st op s, I st s → Passes (perform ops st op) s fun out => I out.1)
    (data : List UInt8) (ops : Nat) {st : σ} (hst : I st s) :
    Passes (Driver.drive decoder perform maxOps data ops st) s I := by
  induction hn : data.length using Nat.strong_induction_on generalizing data ops st s with
  | _ n ih =>
    rw [Driver.drive]
    refine Passes.ite (fun _ => ?_) fun _ => .pure hst
    split
    · exact .pure hst
    · next op rest hnext =>
      refine (h ops st op s hst).bind fun out s' hout => ?_
      exact ih _ (hn ▸ decoder.shrinks hnext) _ _ hout rfl

end Passes

namespace Yields

variable {m : Driver V α} {k : α → Driver V β} {s : Store V} {a : α} {b : β}

theorem passes (hm : Yields m s a) {Q : α → Store V → Prop} (h : Q a s) : Passes m s Q :=
  ⟨a, s, hm, h⟩

theorem pure : Yields (Pure.pure a) s a := rfl

theorem bind (hm : Yields m s a) (hk : Yields (k a) s b) : Yields (m >>= k) s b := by
  unfold Yields at hm hk ⊢
  simp only [Bind.bind, StateT.bind, hm, Option.bind]
  exact hk

theorem bind_passes (hm : Yields m s a) {T : β → Store V → Prop} (hk : Passes (k a) s T) :
    Passes (m >>= k) s T := by
  obtain ⟨b, s', hb, hs'⟩ := hk
  refine ⟨b, s', ?_, hs'⟩
  unfold Yields at hm
  simp only [Bind.bind, StateT.bind, hm, Option.bind]
  exact hb

theorem ite {c : Prop} [Decidable c] {n : Driver V α} (hm : c → Yields m s a)
    (hn : ¬ c → Yields n s a) : Yields (if c then m else n) s a := by
  by_cases h : c
  · simpa [h] using hm h
  · simpa [h] using hn h

theorem assert {c : Prop} [Decidable c] (h : c) : Yields (Driver.assert c) s () := by
  simp only [Yields, Driver.assert, h, if_true]

theorem read {q : Store V → Except ε α} (ha : q s = .ok a) : Yields (Driver.read q) s a := by
  simp only [Yields, Driver.read, ha]

theorem unwrap {o : Option α} (ha : o = some a) : Yields (Driver.unwrap o) s a := by
  simp only [Yields, Driver.unwrap, ha, Option.map_some]

/-- The same check of every element of a list. -/
theorem forM {l : List α} {k : α → Driver V Unit} (h : ∀ a ∈ l, Checks (k a) s) :
    Checks (l.forM k) s := by
  induction l with
  | nil => exact pure
  | cons a l ih =>
    exact (h a (List.mem_cons_self ..)).bind (ih fun b hb => h b (List.mem_cons_of_mem a hb))

end Yields

end Driver

end Host
