import RoadFlow.Decimal.Shortest
import RoadFlow.Proofs.Decimal.Nearest

/-!
# Shortest decimals

A ruler that lies along an interval marks the multiples of a power of ten there, and a mark that is
found in the interval is a number of it (`Along.within`). Each ruler is finer than the one before,
and the last is fine enough to have a mark between a number and the upper end of its interval, so
the decimal that is found rounds to the number (`reads_shortest`).
-/

namespace RoadFlow.Decimal

/-- The number that a numeral stands for. -/
def Numeral.value (d : Numeral) : ℚ := d.digits * 10 ^ d.power

namespace Interval

variable {i : Interval} {r : Ruler} {tie : Tie} {digits : ℕ}

/-- A number between the ends of an interval, or at one of them if it is closed. -/
structure Within (i : Interval) (v : ℚ) : Prop where
  low : (i.low : ℚ) / i.unit ≤ v
  high : v ≤ i.high / i.unit
  inside : i.closed = false → (i.low : ℚ) / i.unit < v ∧ v < i.high / i.unit

/-- A ruler that marks the multiples of its power of ten. -/
structure Along (i : Interval) (r : Ruler) : Prop where
  unit : 0 < i.unit
  along : 0 < r.along
  across : (r.across : ℚ) = i.unit * r.along * 10 ^ r.power

theorem Along.ruler (unit : 0 < i.unit) (power : ℤ) : i.Along (i.ruler power) where
  unit := unit
  along := tenTo_pos _
  across := by
    have some : (10 : ℚ) ^ (-power).toNat ≠ 0 := by positivity
    rw [Interval.ruler, zpow_eq_div]
    push_cast [cast_tenTo]
    field_simp

theorem Along.finer (lies : i.Along r) : i.Along r.finer where
  unit := lies.unit
  along := Nat.mul_pos (by decide) lies.along
  across := by
    show (r.across : ℚ) = i.unit * (10 * r.along : ℕ) * 10 ^ (r.power - 1)
    rw [lies.across, zpow_sub₀ (by norm_num)]
    push_cast
    field_simp

theorem Along.positive (lies : i.Along r) : 0 < r.across := by
  have unit : (0 : ℚ) < i.unit := by exact_mod_cast lies.unit
  have along : (0 : ℚ) < r.along := by exact_mod_cast lies.along
  have across : (0 : ℚ) < r.across := by
    rw [lies.across]
    positivity
  exact_mod_cast across

/-- A mark in an interval is a number of it. -/
theorem Along.within (lies : i.Along r) (holds : i.holds r digits = true) :
    i.Within (digits * 10 ^ r.power) := by
  have unit : (i.unit : ℚ) ≠ 0 := by exact_mod_cast lies.unit.ne'
  have along : (r.along : ℚ) ≠ 0 := by exact_mod_cast lies.along.ne'
  have scale : (0 : ℚ) < (i.unit * r.along : ℕ) := by
    exact_mod_cast Nat.mul_pos lies.unit lies.along
  have place (x : ℕ) : (x : ℚ) / i.unit = (x * r.along : ℕ) / (i.unit * r.along : ℕ) := by
    push_cast
    field_simp
  have mark : (digits * 10 ^ r.power : ℚ) = (digits * r.across : ℕ) / (i.unit * r.along : ℕ) := by
    push_cast
    rw [lies.across]
    field_simp
  unfold Interval.holds at holds
  dsimp only at holds
  split at holds
  · rename_i closed
    simp only [Bool.and_eq_true, decide_eq_true_eq] at holds
    refine ⟨?_, ?_, fun opened => absurd closed (by simp [opened])⟩
    · rw [place, mark, div_le_div_iff_of_pos_right scale]
      exact_mod_cast holds.1
    · rw [place, mark, div_le_div_iff_of_pos_right scale]
      exact_mod_cast holds.2
  · simp only [Bool.and_eq_true, decide_eq_true_eq] at holds
    have low : (i.low : ℚ) / i.unit < digits * 10 ^ r.power := by
      rw [place, mark, div_lt_div_iff_of_pos_right scale]
      exact_mod_cast holds.1
    have high : (digits * 10 ^ r.power : ℚ) < i.high / i.unit := by
      rw [place, mark, div_lt_div_iff_of_pos_right scale]
      exact_mod_cast holds.2
    exact ⟨low.le, high.le, fun _ => ⟨low, high⟩⟩

/-- What is found on a ruler is a mark in the interval. -/
theorem holds_of_onRuler? (found : i.onRuler? tie r = some digits) :
    i.holds r digits = true := by
  unfold onRuler? at found
  dsimp only at found
  generalize i.value * r.along / r.across = floor at found
  have parity : floor + floor % 2 = floor ∨ floor + floor % 2 = floor + 1 := by omega
  cases low : i.holds r floor <;> cases high : i.holds r (floor + 1) <;> rw [low, high] at found
  · cases found
  · cases found
    exact high
  · cases found
    exact low
  · have beside : digits = floor ∨ digits = floor + 1 := by
      cases tie <;> simp only at found <;> split at found <;> (try split at found) <;> cases found <;> omega
    rcases beside with rfl | rfl
    · exact low
    · exact high

/-- A last digit of zero can be left out. -/
theorem value_of_tens {power : ℤ} (round : digits % 10 = 0) :
    Numeral.value ⟨digits / 10, power + 1⟩ = digits * 10 ^ power := by
  obtain ⟨tens, rfl⟩ := Nat.dvd_of_mod_eq_zero round
  rw [Nat.mul_div_cancel_left tens (by decide), Numeral.value, zpow_add₀ (by norm_num)]
  push_cast
  ring

/-- A search that finds a mark on its first ruler ends there. -/
theorem Along.found {n : ℕ} (lies : i.Along r) (found : i.onRuler? tie r = some digits) :
    i.Within (i.search tie (n + 1) r).value := by
  have within := lies.within (holds_of_onRuler? found)
  rw [Interval.search, found]
  dsimp only
  split
  · rename_i round
    rw [value_of_tens round]
    exact within
  · exact within

/-- A ruler with a mark for every place above the number has one below the upper end. -/
theorem Along.onRuler? (lies : i.Along r) (ordered : i.low ≤ i.value)
    (fine : i.value * r.along + r.across < i.high * r.along) : i.onRuler? tie r ≠ none := by
  have place := Nat.div_add_mod (i.value * r.along) r.across
  have rest := Nat.mod_lt (i.value * r.along) lies.positive
  have mark : i.holds r (i.value * r.along / r.across + 1) = true := by
    have low : i.low * r.along ≤ i.value * r.along := Nat.mul_le_mul_right _ ordered
    have next : (i.value * r.along / r.across + 1) * r.across =
        r.across * (i.value * r.along / r.across) + r.across := by ring
    unfold Interval.holds
    dsimp only
    rw [next]
    split <;> simp only [Bool.and_eq_true, decide_eq_true_eq] <;> omega
  unfold Interval.onRuler?
  dsimp only
  rw [mark]
  split
  · simp_all
  · simp_all
  · simp_all
  · split
    · simp
    · split
      · simp
      · cases tie <;> simp

/-- A search finds a number of the interval if its last ruler is fine enough. -/
theorem Along.search {n : ℕ} (lies : i.Along r) (ordered : i.low ≤ i.value)
    (fine : i.value * (10 ^ n * r.along) + r.across < i.high * (10 ^ n * r.along)) :
    i.Within (i.search tie (n + 1) r).value := by
  induction n generalizing r with
  | zero =>
    rw [pow_zero, one_mul] at fine
    have marked : i.onRuler? tie r ≠ none := lies.onRuler? ordered fine
    obtain ⟨digits, found⟩ := Option.ne_none_iff_exists'.mp marked
    exact lies.found found
  | succ n ih =>
    cases found : i.onRuler? tie r with
    | some digits => exact lies.found found
    | none =>
      have scaled : 10 ^ n * r.finer.along = 10 ^ (n + 1) * r.along := by
        show 10 ^ n * (10 * r.along) = _
        ring
      rw [Interval.search, found]
      apply ih lies.finer
      rw [scaled]
      exact fine

end Interval

/-! ## Numbers of a format -/

/-- The exponent of the first ruler is not too large. -/
theorem Interval.across_floorLog10 {i : Interval} (positive : 0 < i.value) (unit : 0 < i.unit) :
    (i.ruler i.floorLog10).across ≤ i.value * (i.ruler i.floorLog10).along := by
  have reaches (p : ℤ) : (i.ruler p).across ≤ i.value * (i.ruler p).along ↔
      ((10 : ℕ) : ℚ) ^ p ≤ i.value / i.unit :=
    (zpow_le_div_iff (by decide) unit p).symm
  have filled (n : ℕ) : 0 < (Nat.toDigits 10 n).length := Nat.length_toDigits_pos
  have low : 10 ^ ((Nat.toDigits 10 i.value).length - 1) ≤ i.value := by
    have bound := (digits_bounds positive).1
    rw [← Nat.cast_pred (filled _), zpow_natCast] at bound
    exact_mod_cast bound
  have high : i.unit < 10 ^ ((Nat.toDigits 10 i.unit).length - 1 + 1) := by
    have bound := (digits_bounds unit).2
    rw [Nat.sub_add_cancel (filled _)]
    rw [zpow_natCast] at bound
    exact_mod_cast bound
  have least := zpow_lt_div (by decide) unit low high
  unfold floorLog10
  dsimp only
  split
  · assumption
  · rw [reaches]
    refine le_trans (le_of_eq ?_) least.le
    have := filled i.value
    have := filled i.unit
    congr 1
    omega

namespace Format

variable {f : Format} {mantissa : ℕ} {power : ℤ} {v : ℚ}

/-- A place in the interval of a number. -/
theorem place_eq (x : ℕ) (power : ℤ) :
    ((x * twoTo (power - 2).toNat : ℕ) : ℚ) / (twoTo (-(power - 2)).toNat : ℕ) =
      x / 4 * 2 ^ power := by
  have quarter : (2 : ℚ) ^ (power - 2) = 2 ^ power / 4 := by
    rw [zpow_sub₀ two_ne_zero]
    norm_num
  push_cast [cast_twoTo]
  rw [mul_div_assoc, ← zpow_eq_div, quarter]
  ring

/-- What is in the interval of a number rounds to it. -/
theorem reads_of_within (some : 0 < mantissa)
    (within : (f.interval mantissa power).Within v) : f.Reads mantissa power v := by
  have unit : (0 : ℚ) < 2 ^ power := by positivity
  have low : ((f.interval mantissa power).low : ℚ) / (f.interval mantissa power).unit =
      (mantissa - f.reach mantissa power) * 2 ^ power := by
    refine (place_eq _ power).trans ?_
    congr 1
    unfold reach
    split
    · rw [Nat.cast_sub (by omega)]
      push_cast
      ring
    · rw [Nat.cast_sub (by omega)]
      push_cast
      ring
  have high : ((f.interval mantissa power).high : ℚ) / (f.interval mantissa power).unit =
      (mantissa + 1 / 2) * 2 ^ power := by
    refine (place_eq _ power).trans ?_
    push_cast
    ring
  obtain ⟨least, most, inside⟩ := within
  rw [low] at least inside
  rw [high] at most inside
  refine ⟨(le_div_iff₀ unit).mpr least, (div_le_iff₀ unit).mpr most, fun odd => ?_⟩
  have opened : (f.interval mantissa power).closed = false := by
    simp [interval, odd]
  obtain ⟨least, most⟩ := inside opened
  exact ⟨(lt_div_iff₀ unit).mpr least, (div_lt_iff₀ unit).mpr most⟩

/-- The shortest decimal of a number rounds to it. -/
theorem reads_shortest (some : 0 < mantissa) (short : 2 * mantissa < 10 ^ 16) (tie : Tie) :
    f.Reads mantissa power (f.shortest tie mantissa power).value := by
  apply reads_of_within some
  have scale : 0 < twoTo (power - 2).toNat := twoTo_pos _
  have unit : 0 < (f.interval mantissa power).unit := twoTo_pos _
  have value : 0 < (f.interval mantissa power).value :=
    Nat.mul_pos (Nat.mul_pos (by decide) some) scale
  have first := Interval.across_floorLog10 value unit
  have lies := Interval.Along.ruler unit (f.interval mantissa power).floorLog10
  rw [shortest]
  refine lies.search (n := 16) ?_ ?_
  · exact Nat.mul_le_mul_right _ (Nat.sub_le _ _)
  · generalize (f.interval mantissa power).ruler _ = r at lies first ⊢
    let step := 2 * (twoTo (power - 2).toNat * r.along)
    have step_pos : 0 < step := Nat.mul_pos (by decide) (Nat.mul_pos scale lies.along)
    have here : (f.interval mantissa power).value * r.along = 2 * mantissa * step := by
      simp only [interval, step]
      ring
    have last : (f.interval mantissa power).high * (10 ^ 16 * r.along) =
        (f.interval mantissa power).value * (10 ^ 16 * r.along) + 10 ^ 16 * step := by
      simp only [interval, step]
      ring
    rw [last]
    exact Nat.add_lt_add_left
      ((first.trans_eq here).trans_lt (Nat.mul_lt_mul_of_pos_right short step_pos)) _

end Format

end RoadFlow.Decimal
