/-
  Casework.Proofs.Time.Calendar

  Counting days. The days of the calendar are numbered from the first day of year 1 to the last one
  of year 9999: a valid day has a number of its year, and every number in between is that of a valid
  day. So adding days to a day is adding to its number, as long as the calendar lasts.
-/
import Casework.Time.Moment
import Mathlib.Order.Monotone.Basic

namespace Casework.Date

-- ============================================================================
-- Years
-- ============================================================================

/-- The days before the next year are those before this one and its own. -/
theorem daysBeforeYear_succ {year : Nat} (h : 1 ≤ year) :
    daysBeforeYear (year + 1) = daysBeforeYear year + daysInYear year := by
  obtain ⟨y, rfl⟩ := Nat.exists_eq_add_of_le' h
  have hsparse : y / 100 ≤ y / 4 := Nat.div_le_div_left (by decide) (by decide)
  -- Every 400th year is a 100th one, and every 100th year is a fourth one.
  have hhundred : (y + 1) % 400 = 0 → (y + 1) % 100 = 0 := by omega
  have hfour : (y + 1) % 100 = 0 → (y + 1) % 4 = 0 := by omega
  simp only [daysBeforeYear, daysInYear, isLeap, Nat.add_sub_cancel, Nat.succ_div,
    Nat.dvd_iff_mod_eq_zero, Bool.and_eq_true, Bool.or_eq_true, beq_iff_eq, bne_iff_ne]
  generalize y / 4 = fours at *
  generalize y / 100 = hundreds at *
  generalize (y + 1) % 4 = a at *
  generalize (y + 1) % 100 = b at *
  generalize (y + 1) % 400 = c at *
  split_ifs <;> omega

theorem daysBeforeYear_mono : Monotone daysBeforeYear := by
  refine monotone_nat_of_le_succ fun year => ?_
  cases year with
  | zero => exact Nat.le_refl 0
  | succ year =>
    rw [daysBeforeYear_succ (Nat.le_add_left 1 year)]
    exact Nat.le_add_right _ _

/-- The years are gone through until the day is reached, or the last one. -/
theorem climb_spec (days left year : Nat) (h : daysBeforeYear year ≤ days) :
    year ≤ yearOf.climb days left year ∧ daysBeforeYear (yearOf.climb days left year) ≤ days ∧
      (days < daysBeforeYear (yearOf.climb days left year + 1) ∨
        yearOf.climb days left year = year + left) := by
  induction left generalizing year with
  | zero => exact ⟨Nat.le_refl _, h, .inr rfl⟩
  | succ left ih =>
    rw [yearOf.climb]
    split
    case isTrue hnext =>
      obtain ⟨hfrom, hbegun, hend⟩ := ih (year + 1) hnext
      exact ⟨Nat.le_of_succ_le hfrom, hbegun, hend.imp_right fun hlast => by omega⟩
    case isFalse hnext => exact ⟨Nat.le_refl _, h, .inl (Nat.lt_of_not_le hnext)⟩

/-- The year of a day has begun, and is not over. -/
theorem yearOf_spec (days : Nat) :
    1 ≤ yearOf days ∧ daysBeforeYear (yearOf days) ≤ days ∧
      days < daysBeforeYear (yearOf days + 1) := by
  have hguess : daysBeforeYear (days / 366 + 1) ≤ days := by
    simp only [daysBeforeYear]
    omega
  obtain ⟨hfrom, hbegun, hend⟩ :=
    climb_spec days (days / 365 + 1 - (days / 366 + 1)) (days / 366 + 1) hguess
  refine ⟨Nat.le_trans (Nat.le_add_left 1 _) hfrom, hbegun, hend.elim id fun hlast => ?_⟩
  -- Years have 365 days at least, so the last year that is tried is late enough.
  have hlate : days < daysBeforeYear (days / 365 + 1 + 1) := by
    simp only [daysBeforeYear]
    omega
  have hyear : yearOf days = days / 365 + 1 := by
    rw [yearOf, hlast]
    omega
  rwa [← hyear] at hlate

-- ============================================================================
-- Months
-- ============================================================================

/-- The days before the next month are those before this one and its own. -/
theorem daysBeforeMonth_succ (year month : Nat) (h : 1 ≤ month) :
    daysBeforeMonth year (month + 1) = daysBeforeMonth year month + daysInMonth year month := by
  obtain ⟨month, rfl⟩ := Nat.exists_eq_add_of_le' h
  rfl

/-- The months make up the year. -/
theorem daysBeforeMonth_end (year : Nat) : daysBeforeMonth year 13 = daysInYear year := by
  simp only [daysBeforeMonth, daysInMonth, daysInYear]
  split <;> rfl

theorem daysBeforeMonth_mono (year : Nat) : Monotone (daysBeforeMonth year) := by
  refine monotone_nat_of_le_succ fun month => ?_
  cases month with
  | zero => exact Nat.le_refl 0
  | succ month => exact Nat.le_add_right _ _

/-- From a month on, a day of the year lies in one of the months, at the distance that is left. -/
theorem splitMonths_spec (year left month days : Nat) (hfrom : 1 ≤ month)
    (hleft : month + left = 12)
    (hdays : daysBeforeMonth year month + days < daysInYear year) :
    ∃ m day, splitMonths year left month days = (m, day) ∧ 1 ≤ m ∧ m ≤ 12 ∧ 1 ≤ day ∧
      day ≤ daysInMonth year m ∧
      daysBeforeMonth year m + day = daysBeforeMonth year month + days + 1 := by
  induction left generalizing month days with
  | zero =>
    obtain rfl : month = 12 := hleft
    -- December is the last month, so the days left lie within it.
    rw [← daysBeforeMonth_end, daysBeforeMonth_succ year 12 (by decide)] at hdays
    exact ⟨12, days + 1, rfl, by decide, by decide, Nat.le_add_left 1 _, by omega, rfl⟩
  | succ left ih =>
    rw [splitMonths]
    split
    case isTrue hhere =>
      exact ⟨month, days + 1, rfl, hfrom, by omega, Nat.le_add_left 1 _, hhere, rfl⟩
    case isFalse hlater =>
      -- The day lies in a later month: the days of this one are taken off.
      have hnext := daysBeforeMonth_succ year month hfrom
      obtain ⟨m, day, hsplit, hm, hm', hday, hday', hsum⟩ :=
        ih (month + 1) (days - daysInMonth year month) (Nat.le_add_left 1 _) (by omega) (by omega)
      exact ⟨m, day, hsplit, hm, hm', hday, hday', by omega⟩

-- ============================================================================
-- Days
-- ============================================================================

/-- A valid date has a year, a month and a day within their bounds. -/
theorem valid_iff {d : Date} : d.valid ↔
    1 ≤ d.year ∧ d.year ≤ lastYear ∧ 1 ≤ d.month ∧ d.month ≤ 12 ∧ 1 ≤ d.day ∧
      d.day ≤ daysInMonth d.year d.month := by
  simp [valid, and_assoc]

/-- A day comes behind the years before its own, and not behind its own. -/
theorem ordinal_bounds {d : Date} (h : d.valid) :
    daysBeforeYear d.year < d.ordinal ∧ d.ordinal ≤ daysBeforeYear (d.year + 1) := by
  obtain ⟨hyear, -, hmonth, hmonth', hday, hday'⟩ := valid_iff.1 h
  have hyears := daysBeforeYear_succ hyear
  have hmonths := daysBeforeMonth_succ d.year d.month hmonth
  have hend := daysBeforeMonth_mono d.year (Nat.add_le_add_right hmonth' 1)
  rw [daysBeforeMonth_end] at hend
  rw [ordinal]
  omega

theorem one_le_ordinal {d : Date} (h : d.valid) : 1 ≤ d.ordinal :=
  Nat.succ_le_of_lt (Nat.zero_lt_of_lt (ordinal_bounds h).1)

/-- The day of a number is a valid one, and has this number. -/
theorem ofOrdinal_spec {n : Nat} (hfrom : 1 ≤ n) (hlast : n ≤ lastOrdinal) :
    (ofOrdinal n).valid ∧ (ofOrdinal n).ordinal = n := by
  obtain ⟨hyear, hbegun, hend⟩ := yearOf_spec (n - 1)
  have hyears := daysBeforeYear_succ hyear
  obtain ⟨month, day, hsplit, hmonth, hmonth', hday, hday', hsum⟩ :=
    splitMonths_spec (yearOf (n - 1)) 11 1 (n - 1 - daysBeforeYear (yearOf (n - 1))) (by decide)
      (by decide) (by show 0 + _ < _; omega)
  have hdate : ofOrdinal n = ⟨yearOf (n - 1), month, day⟩ := by
    rw [ofOrdinal, hsplit]
  -- The year is within the calendar, as the first day behind it has too large a number.
  have hwithin : yearOf (n - 1) ≤ lastYear := by
    by_contra hbeyond
    have hlate := daysBeforeYear_mono (Nat.succ_le_of_lt (Nat.lt_of_not_le hbeyond))
    have hten : daysBeforeYear (lastYear + 1) = lastOrdinal := by decide
    rw [Nat.succ_eq_add_one, hten] at hlate
    omega
  have hstart : daysBeforeMonth (yearOf (n - 1)) 1 = 0 := rfl
  rw [hdate]
  refine ⟨valid_iff.2 ⟨hyear, hwithin, hmonth, hmonth', hday, hday'⟩, ?_⟩
  rw [ordinal]
  dsimp only
  omega

/-- The day so many days later is known exactly if the calendar lasts so long; it is a valid day, so
many days later. -/
theorem addDays?_cases {d : Date} (h : d.valid) (n : Nat) :
    (d.ordinal + n ≤ lastOrdinal ∧ ∃ later, d.addDays? n = some later ∧ later.valid ∧
        later.ordinal = d.ordinal + n) ∨
      lastOrdinal < d.ordinal + n ∧ d.addDays? n = none := by
  have hfrom := one_le_ordinal h
  by_cases hlast : d.ordinal + n ≤ lastOrdinal
  · refine .inl ⟨hlast, ofOrdinal (d.ordinal + n), ?_, ofOrdinal_spec (by omega) hlast⟩
    rw [addDays?, if_pos]
    · rfl
    · simp only [Bool.and_eq_true, decide_eq_true_eq]
      omega
  · refine .inr ⟨Nat.lt_of_not_le hlast, ?_⟩
    rw [addDays?, if_neg]
    simp only [Bool.and_eq_true, decide_eq_true_eq]
    omega

/-- A year that can be divided by 100 is no leap year, but every 400th year is one. -/
example : addDays? ⟨1900, 2, 28⟩ 1 = some ⟨1900, 3, 1⟩ ∧
  addDays? ⟨2000, 2, 28⟩ 1 = some ⟨2000, 2, 29⟩ ∧
    addDays? ⟨9999, 12, 31⟩ 1 = none := by
  decide

end Casework.Date
