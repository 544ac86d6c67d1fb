/-! # One decimal place

The text of a non-negative binary64 number with one digit after the point. The number is taken at
its exact binary value `m / d` and rounded in exact arithmetic, a tie going to the even neighbour,
so 1.25 is written 1.2 and 1.75 is written 1.8.
-/
namespace RecordIndex.Text

def roundTiesToEven (m d : Nat) : Nat :=
  let q := m / d
  if 2 * (m % d) < d ∨ 2 * (m % d) = d ∧ q % 2 = 0 then q else q + 1

/-- The rounded quotient is off by half a unit at most. -/
theorem roundTiesToEven_near (m : Nat) {d : Nat} (hd : 0 < d) :
    2 * m ≤ (2 * roundTiesToEven m d + 1) * d ∧ (2 * roundTiesToEven m d) * d ≤ 2 * m + d := by
  have hm := Nat.div_add_mod' m d
  have hr := Nat.mod_lt m hd
  simp only [roundTiesToEven]
  split
  · constructor <;> grind
  · constructor <;> grind

/-- Halfway between two integers the even one is taken. -/
theorem roundTiesToEven_half (q : Nat) {d : Nat} (hd : 0 < d) :
    roundTiesToEven (q * (2 * d) + d) (2 * d) = if q % 2 = 0 then q else q + 1 := by
  have h2 : 0 < 2 * d := by omega
  have hq : (q * (2 * d) + d) / (2 * d) = q := by
    rw [Nat.mul_comm, Nat.mul_add_div h2, Nat.div_eq_of_lt (by omega), Nat.add_zero]
  have hr : (q * (2 * d) + d) % (2 * d) = d := by
    rw [Nat.mul_comm, Nat.mul_add_mod, Nat.mod_eq_of_lt (by omega)]
  simp [roundTiesToEven, hq, hr]

/-- The exact value of a non-negative finite binary64 number, as a numerator and a denominator that
is a power of two. -/
def exactQuotient (x : Float) : Nat × Nat :=
  let bits := x.toBits.toNat
  let fraction := bits % 0x10000000000000
  let exponent := (bits >>> 52) % 0x800
  let (m, e) := if exponent = 0 then (fraction, 1) else (fraction + 0x10000000000000, exponent)
  if 1075 ≤ e then (m <<< (e - 1075), 1) else (m, 1 <<< (1075 - e))

def tenths (x : Float) : String :=
  let (m, d) := exactQuotient x
  let t := roundTiesToEven (10 * m) d
  toString (t / 10) ++ "." ++ toString (t % 10)

end RecordIndex.Text
