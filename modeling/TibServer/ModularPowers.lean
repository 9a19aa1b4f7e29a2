import Mathlib.FieldTheory.Finite.Basic
import Mathlib.NumberTheory.LucasPrimality
import Mathlib.Tactic

/-!
Powers modulo a number, computed by squaring, and two things they are used for: exponents
that undo each other modulo a product of two primes, and a test for primes.
-/

namespace ModularPowers

/-- The power by squaring, over the `bits` lowest bits of the exponent. -/
def powMod (m a : Nat) : Nat → Nat → Nat
  | 0, _ => 1 % m
  | bits + 1, n =>
      let square := powMod m a bits (n / 2) ^ 2 % m
      if n % 2 = 1 then square * a % m else square

/-- Squaring gives the power of every exponent that has these bits. -/
theorem powMod_eq (m a : Nat) {bits n : Nat} (h : n < 2 ^ bits) :
    powMod m a bits n = a ^ n % m := by
  induction bits generalizing n with
  | zero =>
      obtain rfl : n = 0 := by simpa using h
      rfl
  | succ bits ih =>
      have half : n / 2 < 2 ^ bits := by
        rw [pow_succ] at h
        omega
      have square : (a ^ (n / 2) % m) ^ 2 % m = a ^ (2 * (n / 2)) % m := by
        rw [← Nat.pow_mod, ← pow_mul, Nat.mul_comm]
      rw [powMod, ih half, square]
      rcases Nat.mod_two_eq_zero_or_one n with even | odd
      · have split : 2 * (n / 2) = n := by omega
        rw [if_neg (by omega), split]
      · have split : 2 * (n / 2) + 1 = n := by omega
        rw [if_pos odd, Nat.mod_mul_mod, ← pow_succ, split]

/-! ### Exponents that undo each other -/

/-- One more than a multiple of `p - 1` as an exponent changes nothing modulo a prime. -/
theorem pow_modEq_self {p k e : Nat} (hp : p.Prime) (he : e = k * (p - 1) + 1) (m : Nat) :
    m ^ e ≡ m [MOD p] := by
  have fact := Fact.mk hp
  rw [← ZMod.natCast_eq_natCast_iff, Nat.cast_pow, he, pow_succ, Nat.mul_comm, pow_mul]
  by_cases zero : (m : ZMod p) = 0
  · rw [zero, mul_zero]
  · rw [ZMod.pow_card_sub_one_eq_one zero, one_pow, one_mul]

/-- Two exponents whose product is one modulo `(p - 1) * (q - 1)` undo each other. -/
theorem pow_pow_modEq {p q d e : Nat} (hp : p.Prime) (hq : q.Prime) (ne : p ≠ q)
    (inverse : e * d % ((p - 1) * (q - 1)) = 1) (m : Nat) :
    (m ^ e) ^ d ≡ m [MOD p * q] := by
  obtain ⟨k, product⟩ : ∃ k, e * d = (p - 1) * (q - 1) * k + 1 := by
    have split := Nat.div_add_mod (e * d) ((p - 1) * (q - 1))
    rw [inverse] at split
    exact ⟨_, split.symm⟩
  rw [← pow_mul, ← Nat.modEq_and_modEq_iff_modEq_mul ((Nat.coprime_primes hp hq).mpr ne)]
  constructor
  · apply pow_modEq_self hp (k := (q - 1) * k)
    rw [product]
    ring
  · apply pow_modEq_self hq (k := (p - 1) * k)
    rw [product]
    ring

/-- The remainder of the inverse that Bézout's coefficients give. -/
def inverseMod (e m : Nat) : Nat := (Nat.gcdA e m % m).toNat

theorem mul_inverseMod {e m : Nat} (coprime : Nat.Coprime e m) (large : 1 < m) :
    e * inverseMod e m % m = 1 := by
  have bezout := Nat.gcd_eq_gcd_ab e m
  rw [coprime.gcd_eq_one] at bezout
  have pos : (0 : Int) < m := by omega
  have nonneg : 0 ≤ Nat.gcdA e m % m := Int.emod_nonneg _ (by omega)
  have cast : ((e * inverseMod e m % m : Nat) : Int) = 1 := by
    rw [Int.natCast_emod, Int.natCast_mul, inverseMod, Int.toNat_of_nonneg nonneg, Int.mul_emod,
      Int.emod_emod_of_dvd _ (Int.dvd_refl _), ← Int.mul_emod]
    have eq : (e : Int) * Nat.gcdA e m = 1 - m * Nat.gcdB e m := by
      have := bezout
      push_cast at this
      omega
    rw [eq, Int.sub_mul_emod_self_left]
    exact Int.emod_eq_of_lt (by omega) (by omega)
  exact_mod_cast cast

/-! ### A test for primes -/

theorem natCast_pow_eq_one {p a : Nat} {bits n : Nat} (h : n < 2 ^ bits) (large : 1 < p) :
    (a : ZMod p) ^ n = 1 ↔ powMod p a bits n = 1 := by
  rw [powMod_eq p a h, ← Nat.cast_pow, ← Nat.cast_one, ZMod.natCast_eq_natCast_iff, Nat.ModEq,
    Nat.mod_eq_of_lt large]

/-- A number is prime when some `a` has the order of the number before it. -/
theorem prime_of_powMod {p a k : Nat} (fits : p < 2 ^ k) (large : 1 < p)
    (one : powMod p a k (p - 1) = 1)
    (other : ∀ q, q.Prime → q ∣ p - 1 → powMod p a k ((p - 1) / q) ≠ 1) : p.Prime := by
  refine lucas_primality p (a : ZMod p) ?_ ?_
  · exact (natCast_pow_eq_one (by omega) large).mpr one
  · intro q hq dvd
    have lt : (p - 1) / q < 2 ^ k := (Nat.div_le_self _ _).trans_lt (by omega)
    exact fun h => other q hq dvd ((natCast_pow_eq_one lt large).mp h)

end ModularPowers
