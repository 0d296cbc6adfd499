/-!
# Bounds of whole numbers

The ends of the ranges that numbers of a fixed width have.
-/

namespace DocTable.Bounds
set_option autoImplicit false

def minInt64 : Int := -0x8000000000000000
def maxInt64 : Int := 0x7fffffffffffffff
def maxUInt64 : Nat := 0xffffffffffffffff
def maxUInt32 : Nat := 0xffffffff

/-- A number in the signed range of 64 bits. -/
def fitsInt64 (i : Int) : Bool := decide (minInt64 ≤ i ∧ i ≤ maxInt64)

theorem fitsInt64_iff {i : Int} : fitsInt64 i = true ↔ minInt64 ≤ i ∧ i ≤ maxInt64 :=
  decide_eq_true_iff

/-- What is signed and of 64 bits fits 64 bits, signed or not. -/
theorem stored_of_fits {i : Int} (fits : fitsInt64 i = true) :
    minInt64 ≤ i ∧ i ≤ maxUInt64 := by
  obtain ⟨low, high⟩ := fitsInt64_iff.mp fits
  rw [maxInt64] at high
  refine ⟨low, ?_⟩
  rw [maxUInt64]
  omega

end DocTable.Bounds
