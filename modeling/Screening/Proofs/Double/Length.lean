import Screening.Double.Shortest

/-!
# The length of the shortest decimal

The shortest decimal of a double is looked for on grids that put the double between two numbers of
at most 17 digits each. So its digits are at most `10 ^ 17`, whichever of the two is picked and on
whichever grid (`digits_shortest_le`).
-/

namespace Screening.Double

/-! ## Lengths -/

theorem length_pos (n : Nat) : 0 < decimalLength n := by
  rw [decimalLength, List.length_pos_iff]
  exact Nat.toDigits_ne_nil

theorem lt_tenTo_decimalLength (n : Nat) : n < tenTo (decimalLength n) :=
  (Nat.length_toDigits_le_iff (by decide) (length_pos n)).1 (Nat.le_refl (decimalLength n))

theorem tenTo_le_of_ne_zero {n : Nat} (h : n ≠ 0) : tenTo (decimalLength n - 1) ≤ n := by
  rcases Nat.eq_zero_or_pos (decimalLength n - 1) with hzero | hpos
  · rw [hzero, tenTo_zero]
    omega
  · have hlength : ¬ (Nat.toDigits 10 n).length ≤ decimalLength n - 1 := by
      change ¬ decimalLength n ≤ decimalLength n - 1
      omega
    rw [Nat.length_toDigits_le_iff (by decide) hpos] at hlength
    exact Nat.le_of_not_lt hlength

/-- A number below a power of ten has no more digits than that. -/
theorem length_le_of_lt {n places : Nat} (h : n < tenTo places) (hpos : 0 < places) :
    decimalLength n ≤ places :=
  (Nat.length_toDigits_le_iff (by decide) hpos).2 h

/-! ## The decade of a quotient -/

open Screening.Double.Interval (up unit)

/-- A quotient is below the power of ten after its decade. -/
theorem lt_of_decade (n : Nat) {d : Nat} (hd : 0 < d) :
    n * up (-(decade n d + 1)) < d * up (decade n d + 1) := by
  rw [decade]
  split
  · -- From one on, the power is the number of digits before the point.
    have hup : up (decimalLength (n / d) - 1 + 1) = tenTo (decimalLength (n / d)) := by
      rw [up]
      congr 1
      omega
    have hone : up (-((decimalLength (n / d) : Int) - 1 + 1)) = 1 := by
      rw [up, Int.toNat_eq_zero.2 (by omega), tenTo_zero]
    rw [hup, hone, Nat.mul_one, Nat.mul_comm]
    exact Nat.lt_mul_of_div_lt (lt_tenTo_decimalLength _) hd
  · next h =>
    -- Below one the places behind the point are counted on the inverse. An exact power of ten
    -- belongs to its own decade, hence `d - 1`.
    have hup : up (-(decimalLength ((d - 1) / n) : Int) + 1) = 1 := by
      have := length_pos ((d - 1) / n)
      rw [up, Int.toNat_eq_zero.2 (by omega), tenTo_zero]
    have hdown : up (-(-(decimalLength ((d - 1) / n) : Int) + 1))
        = tenTo (decimalLength ((d - 1) / n) - 1) := by
      rw [up]
      congr 1
      omega
    rw [hup, hdown, Nat.mul_one]
    rcases Nat.eq_zero_or_pos n with rfl | hn
    · omega
    have hne : (d - 1) / n ≠ 0 := by
      have := Nat.div_pos (show n ≤ d - 1 by omega) hn
      omega
    have hle : n * tenTo (decimalLength ((d - 1) / n) - 1) ≤ d - 1 :=
      Nat.le_trans (Nat.mul_le_mul_left n (tenTo_le_of_ne_zero hne)) (Nat.mul_div_le _ _)
    omega

/-- Moving up the powers of ten is to multiply. -/
theorem up_add (power : Int) (more : Nat) :
    up power * tenTo more * up (-(power + more)) = up (-power) * up (power + more) := by
  rw [up, up, up, up, ← tenTo_add, ← tenTo_add, ← tenTo_add]
  congr 1
  omega

namespace Interval

theorem unit_pos : 0 < unit := twoTo_pos 1076

theorem up_pos (power : Int) : 0 < up power := tenTo_pos _

/-- A bound in one unit is a bound in a unit that is `t` times smaller. -/
theorem mul_lt_of_scaled {v u a b x y t : Nat} (h : v * a < u * b) (ha : 0 < a) (hy : 0 < y)
    (hscale : x * t * a = y * b) : v * y < t * (u * x) := by
  refine (Nat.mul_lt_mul_right ha).1 ?_
  calc v * y * a = v * a * y := by ac_rfl
    _ < u * b * y := Nat.mul_lt_mul_of_pos_right h hy
    _ = u * (y * b) := by ac_rfl
    _ = u * (x * t * a) := by rw [hscale]
    _ = t * (u * x) * a := by ac_rfl

/-- On the grid that has `more` digits after the first one, the number below the value has no more
digits than that. -/
theorem below_lt (i : Interval) (more : Nat) :
    i.below (decade i.value unit - more) < tenTo (more + 1) := by
  have hpower : decade i.value unit + 1
      = decade i.value unit - more + ((more + 1 : Nat) : Int) := by
    omega
  have hdecade := lt_of_decade i.value unit_pos
  rw [hpower] at hdecade
  rw [below, Nat.div_lt_iff_lt_mul (Nat.mul_pos unit_pos (up_pos _))]
  exact mul_lt_of_scaled hdecade (up_pos _) (up_pos _) (up_add _ _)

theorem roundToEven_le (n d : Nat) : roundToEven n d ≤ n / d + 1 := by
  rw [roundToEven]
  split
  · exact Nat.le_succ _
  · exact Nat.le_refl _
  · have := Nat.mod_lt (n / d) (show 0 < 2 by decide)
    omega

/-- Of the two multiples around the value, the nearest one is the upper one at most. -/
theorem nearest_le (i : Interval) (power : Int) : i.nearest power ≤ i.below power + 1 :=
  roundToEven_le _ _

/-- What is picked is the number below the value or the one after it. -/
theorem pick?_le {i : Interval} {power : Int} {digits : Nat} (h : i.pick? power = some digits) :
    digits ≤ i.below power + 1 := by
  have hnearest := i.nearest_le power
  rw [pick?] at h
  cases hbelow : i.holds power (i.below power) <;>
    cases habove : i.holds power (i.below power + 1) <;>
    simp only [hbelow, habove, Option.some.injEq, reduceCtorEq] at h <;> omega

theorem digits_normalize_le (digits : Nat) (power : Int) :
    (Digits.normalize digits power).digits ≤ digits := by
  fun_induction Digits.normalize digits power with
  | case1 digits power h ih => exact Nat.le_trans ih (Nat.div_le_self digits 10)
  | case2 digits power h => exact Nat.le_refl digits

/-- The shortest decimal of a double has at most 17 digits, or is the next power of ten. -/
theorem digits_shortest_le (i : Interval) : i.shortest.digits ≤ tenTo 17 := by
  have hgrid {more : Nat} (hmore : more < 17) :
      i.below (decade i.value unit - more) + 1 ≤ tenTo 17 :=
    Nat.le_trans (i.below_lt more) (tenTo_le_tenTo hmore)
  rw [shortest]
  generalize hfound : (List.range 17).findSome? _ = found
  cases found with
  | none =>
    refine Nat.le_trans (digits_normalize_le _ _) (Nat.le_trans (nearest_le _ _) ?_)
    exact hgrid (by decide)
  | some digits =>
    obtain ⟨more, hmore, hpicked⟩ := List.exists_of_findSome?_eq_some hfound
    obtain ⟨picked, hpick, rfl⟩ := Option.map_eq_some_iff.1 hpicked
    refine Nat.le_trans (digits_normalize_le _ _) (Nat.le_trans (pick?_le hpick) ?_)
    exact hgrid (List.mem_range.1 hmore)

end Interval

/-- The digits of the shortest decimal are at most `10 ^ 17`. -/
theorem digits_shortest_le (d : Double) : d.shortest.digits ≤ tenTo 17 := by
  rw [shortest]
  split
  · exact Nat.zero_le _
  · exact d.interval.digits_shortest_le

end Screening.Double
