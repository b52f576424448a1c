import Mathlib.Data.Int.ModEq

/-!
# A wrapping 64-bit counter

An atomic `i64` from which numbers are drawn one after another.  It wraps: after
the largest `i64` comes the smallest.

`ticket first n` is what the draw numbered `n` returns, counting from zero, from
a counter that stood at `first`.  Two draws return the same number only if they
are a multiple of `2 ^ 64` draws apart (`ticket_eq_iff`), and a later draw
returns the larger number as long as the counter has not wrapped in between
(`ticket_lt`).
-/

namespace Counter

def ticket (first : Int64) (n : ℕ) : Int64 := first + Int64.ofNat n

/-- How often the counter has wrapped when draw `n` is made. -/
def wraps (first : Int64) (n : ℕ) : ℤ := (first.toInt + n).bdiv (2 ^ 64)

variable {first : Int64} {m n : ℕ}

@[simp] theorem ticket_zero : ticket first 0 = first := by
  simp [ticket]

theorem ticket_succ : ticket first (n + 1) = ticket first n + 1 := by
  rw [ticket, ticket, Int64.ofNat_add, ← Int64.add_assoc]
  rfl

theorem toInt_ticket : (ticket first n).toInt = (first.toInt + n).bmod (2 ^ 64) := by
  rw [ticket, Int64.toInt_add, Int64.toInt_ofNat']
  exact Int.add_bmod_bmod

/-- The value of a ticket, with the wraps of the counter taken off. -/
theorem toInt_ticket_eq : (ticket first n).toInt = first.toInt + n - 2 ^ 64 * wraps first n := by
  rw [toInt_ticket, Int.bmod_eq_self_sub_mul_bdiv]
  rfl

/-- **Tickets repeat exactly every `2 ^ 64` draws.** -/
theorem ticket_eq_iff : ticket first m = ticket first n ↔ m ≡ n [MOD 2 ^ 64] := by
  rw [← Int64.toInt_inj, toInt_ticket, toInt_ticket, Int.bmod_add_cancel_left,
    Int.bmod_eq_bmod_iff_bmod_sub_eq_zero, ← Int.dvd_iff_bmod_eq_zero, ← Int.modEq_iff_dvd,
    Int.natCast_modEq_iff]
  exact ⟨Nat.ModEq.symm, Nat.ModEq.symm⟩

theorem ticket_inj (h : ticket first m = ticket first n) (hm : m < 2 ^ 64) (hn : n < 2 ^ 64) :
    m = n :=
  Nat.ModEq.eq_of_lt_of_lt (ticket_eq_iff.mp h) hm hn

/-- **A later draw returns the larger number**, if the counter has not wrapped. -/
theorem ticket_lt (h : m < n) (hw : wraps first m = wraps first n) :
    ticket first m < ticket first n := by
  rw [Int64.lt_iff_toInt_lt, toInt_ticket_eq, toInt_ticket_eq, hw]
  omega

/-- A counter does not wrap before it reaches the largest `i64`. -/
theorem toInt_ticket_of_lt (h : first.toInt + n < 2 ^ 63) :
    (ticket first n).toInt = first.toInt + n := by
  have hlow : -2 ^ 63 ≤ first.toInt := Int64.le_toInt first
  rw [toInt_ticket, Int.bmod_eq_of_le] <;> omega

end Counter
