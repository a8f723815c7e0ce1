import Mathlib.Data.List.Basic

/-!
# Byte readers

A reader takes a value off the front of a byte string, and fails where the bytes run out. It never
gives back more bytes than it was given, so a loop that reads makes progress.
-/

namespace Misc

variable {α β : Type}

/-- Reads an `α` off the front of its input. -/
structure ByteReader (α : Type) where
  run : List UInt8 → Option (α × List UInt8)
  consumes : ∀ {data a rest}, run data = some (a, rest) → rest.length ≤ data.length

/-- The value of little-endian bytes. -/
def fromLeBytes : List UInt8 → Nat
  | [] => 0
  | b :: bytes => b.toNat + 256 * fromLeBytes bytes

namespace ByteReader

/-- Read nothing. -/
protected def pure (a : α) : ByteReader α where
  run data := some (a, data)
  consumes h := by
    simp only [Option.some.injEq, Prod.mk.injEq] at h
    exact Nat.le_of_eq (congrArg List.length h.2.symm)

/-- Read with `m`, then with what `m` gives. -/
protected def bind (m : ByteReader α) (k : α → ByteReader β) : ByteReader β where
  run data := (m.run data).bind fun out => (k out.1).run out.2
  consumes h := by
    obtain ⟨⟨a, mid⟩, ha, hb⟩ := Option.bind_eq_some_iff.mp h
    exact Nat.le_trans ((k a).consumes hb) (m.consumes ha)

instance : Monad ByteReader where
  pure := ByteReader.pure
  bind := ByteReader.bind

/-- Read `n` little-endian bytes. -/
def word (n : Nat) : ByteReader Nat where
  run data := if n ≤ data.length then some (fromLeBytes (data.take n), data.drop n) else none
  consumes h := by
    split at h
    · simp only [Option.some.injEq, Prod.mk.injEq] at h
      rw [← h.2, List.length_drop]
      exact Nat.sub_le ..
    · cases h

end ByteReader

end Misc
