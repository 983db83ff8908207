/-
  Casework.Proofs.Time.Spelling

  How days are spelled. A day is read from one of six spellings, and where the spelling ends the
  reader tells from what stands behind the year, from what follows a week, and from how many digits
  there are. Behind a day and a sign it is right about that.
-/
import Casework.Time.Reader
import Mathlib.Data.List.Basic
import Mathlib.Data.List.TakeWhile

namespace Casework.Moment

-- ============================================================================
-- Digits
-- ============================================================================

/-- So many digits. -/
structure Digits (n : Nat) (ds : List Char) : Prop where
  length : ds.length = n
  isDigit : ∀ c ∈ ds, c.isDigit

theorem digits?_eq_some {n v x : Nat} {cs rest : List Char} (h : digits? n v cs = some (x, rest)) :
    ∃ ds, Digits n ds ∧ cs = ds ++ rest := by
  induction n generalizing v cs with
  | zero =>
    cases h
    exact ⟨[], ⟨rfl, by simp⟩, rfl⟩
  | succ n ih =>
    cases cs with
    | nil => cases h
    | cons c cs =>
      rw [digits?] at h
      split at h
      case isTrue hc =>
        obtain ⟨ds, hds, rfl⟩ := ih h
        exact ⟨c :: ds, ⟨congrArg (· + 1) hds.length, List.forall_mem_cons.2 ⟨hc, hds.isDigit⟩⟩,
          rfl⟩
      case isFalse => cases h

/-- Digits are read alike whatever follows. -/
theorem Digits.digits?_append {n : Nat} {ds : List Char} (h : Digits n ds) (v : Nat) :
    ∃ x, ∀ rest, digits? n v (ds ++ rest) = some (x, rest) := by
  induction n generalizing v ds with
  | zero =>
    obtain rfl := List.eq_nil_of_length_eq_zero h.length
    exact ⟨v, fun rest => rfl⟩
  | succ n ih =>
    cases ds with
    | nil => cases h.length
    | cons c ds =>
      obtain ⟨hc, hds⟩ := List.forall_mem_cons.1 h.isDigit
      obtain ⟨x, hx⟩ := ih ⟨Nat.succ.inj h.length, hds⟩ (10 * v + (c.toNat - '0'.toNat))
      exact ⟨x, fun rest => (if_pos hc).trans (hx rest)⟩

/-- Four digits are four characters. -/
theorem Digits.four {ds : List Char} (h : Digits 4 ds) : ∃ a b c d, ds = [a, b, c, d] := by
  obtain ⟨hl, -⟩ := h
  match ds, hl with
  | [a, b, c, d], _ => exact ⟨a, b, c, d, rfl⟩

/-- Two digits are two characters. -/
theorem Digits.two {ds : List Char} (h : Digits 2 ds) : ∃ a b, ds = [a, b] :=
  List.length_eq_two.1 h.length

/-- One digit is one character. -/
theorem Digits.one {ds : List Char} (h : Digits 1 ds) : ∃ a, ds = [a] :=
  List.length_eq_one_iff.1 h.length

theorem ne_of_isDigit {c e : Char} (hc : c.isDigit) (he : e.isDigit = false) : c ≠ e := by
  rintro rfl
  rw [he] at hc
  cases hc

theorem Digits.not_mem {n : Nat} {ds : List Char} (h : Digits n ds) : '+' ∉ ds :=
  fun hmem => ne_of_isDigit (h.isDigit _ hmem) (by decide) rfl

/-- Two digits begin with two characters, of which the first is a digit. -/
theorem Digits.begins {ds : List Char} (h : Digits 2 ds) (rest : List Char) :
    ∃ c d rest', ds ++ rest = c :: d :: rest' ∧ c.isDigit := by
  obtain ⟨c, d, rfl⟩ := h.two
  exact ⟨c, d, rest, rfl, h.isDigit c List.mem_cons_self⟩

-- ============================================================================
-- Days
-- ============================================================================

/-- The offset of universal time, as it is put in the place of a `Z`. -/
def zulu : List Char := ['+', '0', '0', ':', '0', '0']

/-- The beginning of a text without a sign lies before the sign. -/
theorem cut_before_sign {cs ds rest after : List Char} (h : cs ++ '+' :: after = ds ++ rest)
    (hds : '+' ∉ ds) :
    ∃ more, cs = ds ++ more ∧ rest = more ++ '+' :: after := by
  rcases List.append_eq_append_iff.1 h with ⟨more, rfl, hmore⟩ | ⟨more, hcs, hrest⟩
  · cases more with
    | nil => exact ⟨[], by simp, hmore.symm⟩
    | cons c more =>
      obtain ⟨rfl, -⟩ := List.cons.inj hmore
      simp at hds
  · exact ⟨more, hcs, hrest⟩

/-- A day, spelled with or without hyphens, by month and day or by week. -/
inductive IsDay : List Char → Prop where
  | date {y m d : List Char} (hy : Digits 4 y) (hm : Digits 2 m) (hd : Digits 2 d) :
    IsDay (y ++ '-' :: m ++ '-' :: d)
  | plainDate {y m d : List Char} (hy : Digits 4 y) (hm : Digits 2 m) (hd : Digits 2 d) :
    IsDay (y ++ m ++ d)
  | week {y w : List Char} (hy : Digits 4 y) (hw : Digits 2 w) : IsDay (y ++ '-' :: 'W' :: w)
  | plainWeek {y w : List Char} (hy : Digits 4 y) (hw : Digits 2 w) : IsDay (y ++ 'W' :: w)
  | weekday {y w d : List Char} (hy : Digits 4 y) (hw : Digits 2 w) (hd : Digits 1 d) :
    IsDay (y ++ '-' :: 'W' :: w ++ '-' :: d)
  | plainWeekday {y w d : List Char} (hy : Digits 4 y) (hw : Digits 2 w) (hd : Digits 1 d) :
    IsDay (y ++ 'W' :: w ++ d)

-- ============================================================================
-- Where days end
-- ============================================================================

/-- A date with hyphens takes ten characters. -/
theorem dayLength_date {y m : List Char} (hy : Digits 4 y) (hm : Digits 2 m) (rest : List Char) :
    dayLength (y ++ '-' :: m ++ '-' :: rest) = 10 := by
  obtain ⟨a, b, c, d, rfl⟩ := hy.four
  obtain ⟨i, j, rfl⟩ := hm.two
  have hmonth := ne_of_isDigit (e := 'W') (hm.isDigit i List.mem_cons_self) (by decide)
  simp [dayLength, hmonth]

/-- A date without hyphens takes eight characters. -/
theorem dayLength_plainDate {y m d : List Char} (hy : Digits 4 y) (hm : Digits 2 m)
    (hd : Digits 2 d)
    (rest : List Char) : dayLength (y ++ m ++ d ++ rest) = 8 := by
  obtain ⟨a, b, c, d, rfl⟩ := hy.four
  obtain ⟨i, j, rfl⟩ := hm.two
  obtain ⟨k, l, rfl⟩ := hd.two
  have hmonth := ne_of_isDigit (e := 'W') (hm.isDigit i List.mem_cons_self) (by decide)
  have hplain := ne_of_isDigit (e := '-') (hm.isDigit i List.mem_cons_self) (by decide)
  simp [dayLength, hmonth, hplain]

/-- A week is followed by the day of the week, or it is not. -/
theorem dayLength_week {y w : List Char} (hy : Digits 4 y) (hw : Digits 2 w) (rest : List Char) :
    dayLength (y ++ '-' :: 'W' :: (w ++ rest)) = 8 ∨
      dayLength (y ++ '-' :: 'W' :: (w ++ rest)) = 10 := by
  obtain ⟨a, b, c, d, rfl⟩ := hy.four
  obtain ⟨i, j, rfl⟩ := hw.two
  have hlength : dayLength ([a, b, c, d] ++ '-' :: 'W' :: ([i, j] ++ rest)) =
      if rest.getD 0 endMark =
        '-' then (if (rest.getD 2 endMark).isDigit then 8 else 10) else 8 := by
    simp [dayLength]
  rw [hlength]
  split_ifs <;> simp

/-- A week without hyphens takes seven or eight characters, with or without a weekday. -/
theorem dayLength_plainWeek {y w : List Char} (hy : Digits 4 y) (hw : Digits 2 w)
    (rest : List Char) :
    dayLength (y ++ 'W' :: (w ++ rest)) = 7 ∨ dayLength (y ++ 'W' :: (w ++ rest)) = 8 := by
  obtain ⟨a, b, c, d, rfl⟩ := hy.four
  obtain ⟨i, j, rfl⟩ := hw.two
  have hlength : dayLength ([a, b, c, d] ++ 'W' :: ([i, j] ++ rest)) =
      if rest.length = 0 then 7
      else if 7 + (rest.takeWhile Char.isDigit).length <
        9 then 7 + (rest.takeWhile Char.isDigit).length
      else if (7 + (rest.takeWhile Char.isDigit).length) % 2 = 0 then 7 else 8 := by
    simp [dayLength]
  rw [hlength]
  split_ifs <;> omega

/-- A day ends before a sign and a digit. -/
theorem IsDay.dayLength_append {day : List Char} (h : IsDay day) (rest : List Char) :
    dayLength (day ++ '+' :: '0' :: rest) = day.length := by
  have hplus : Char.isDigit '+' = false := by decide
  -- The length is found by looking at the characters behind the year, so each spelling is a case.
  cases h with
  | @date y m d hy hm hd =>
    have hends := dayLength_date hy hm (d ++ '+' :: '0' :: rest)
    simpa [hy.length, hm.length, hd.length] using hends
  | plainDate hy hm hd =>
    have hends := dayLength_plainDate hy hm hd ('+' :: '0' :: rest)
    simpa [hy.length, hm.length, hd.length] using hends
  | week hy hw =>
    obtain ⟨a, b, c, d, rfl⟩ := hy.four
    obtain ⟨i, j, rfl⟩ := hw.two
    simp [dayLength]
  | plainWeek hy hw =>
    obtain ⟨a, b, c, d, rfl⟩ := hy.four
    obtain ⟨i, j, rfl⟩ := hw.two
    simp [dayLength, hplus]
  | weekday hy hw hd =>
    obtain ⟨a, b, c, d, rfl⟩ := hy.four
    obtain ⟨i, j, rfl⟩ := hw.two
    obtain ⟨k, rfl⟩ := hd.one
    simp [dayLength, hplus]
  | plainWeekday hy hw hd =>
    obtain ⟨a, b, c, d, rfl⟩ := hy.four
    obtain ⟨i, j, rfl⟩ := hw.two
    obtain ⟨k, rfl⟩ := hd.one
    have hdigit := hd.isDigit k List.mem_cons_self
    simp [dayLength, hplus, hdigit]

-- ============================================================================
-- Reading days
-- ============================================================================

/-- How a week is spelled that a day is read from, and the day of the week if the text reaches so
far. -/
theorem week_of_weekDay? {year before length : Nat} {hyphens : Bool} {cs : List Char} {d : Date}
    (h : weekDay? year hyphens before length cs = some d) :
    ∃ w rest, Digits 2 w ∧ cs = w ++ rest ∧ (before + 2 < length → ∃ e rest', Digits 1 e ∧
      rest = (if hyphens then '-' :: e else e) ++ rest') := by
  rw [weekDay?] at h
  simp only [Option.bind_eq_bind, Option.bind_eq_some_iff] at h
  obtain ⟨⟨week, rest⟩, hweek, h⟩ := h
  obtain ⟨w, hw, rfl⟩ := digits?_eq_some hweek
  refine ⟨w, rest, hw, rfl, fun hbefore => ?_⟩
  -- A weekday is read exactly where the length leaves room for it.
  rw [if_pos hbefore] at h
  cases hyphens with
  | false =>
    simp only [Bool.false_eq_true, if_false, Option.bind_some, Option.bind_eq_some_iff] at h
    obtain ⟨⟨day, rest'⟩, hday, -⟩ := h
    obtain ⟨e, he, rfl⟩ := digits?_eq_some hday
    exact ⟨e, rest', he, rfl⟩
  | true =>
    simp only [if_true] at h
    split at h
    · simp only [Option.bind_some, Option.bind_eq_some_iff] at h
      obtain ⟨⟨day, rest'⟩, hday, -⟩ := h
      obtain ⟨e, he, rfl⟩ := digits?_eq_some hday
      exact ⟨e, rest', he, rfl⟩
    · cases h

/-- How a day is spelled that is read from a text. -/
theorem spelled_of_date? {length : Nat} {cs : List Char} {date : Date}
    (h : date? length cs = some date) :
    ∃ y rest, Digits 4 y ∧ cs = y ++ rest ∧
      ((∃ year week, rest = '-' :: 'W' :: week ∧ weekDay? year true 6 length week = some date) ∨
        (∃ year week, rest = 'W' :: week ∧ weekDay? year false 5 length week = some date) ∨
        ∃ m d after, Digits 2 m ∧ Digits 2 d ∧
          (rest = '-' :: m ++ '-' :: d ++ after ∨ rest = m ++ d ++ after)) := by
  rw [date?] at h
  simp only [Option.bind_eq_bind, Option.bind_eq_some_iff] at h
  obtain ⟨⟨year, rest⟩, hyear, h⟩ := h
  obtain ⟨y, hy, rfl⟩ := digits?_eq_some hyear
  refine ⟨y, rest, hy, rfl, ?_⟩
  dsimp only at h
  -- The character behind the year tells the two spellings apart.
  cases hhyphens : rest.head? == some '-' with
  | true =>
    obtain ⟨rest, rfl⟩ := List.head?_eq_some_iff.1 (beq_iff_eq.1 hhyphens)
    simp only [hhyphens, if_true, List.drop_succ_cons, List.drop_zero] at h
    split at h
    case h_1 week => exact .inl ⟨year, week, rfl, h⟩
    case h_2 =>
      simp only [Option.bind_eq_some_iff] at h
      obtain ⟨⟨month, rest⟩, hmonth, h⟩ := h
      obtain ⟨m, hm, rfl⟩ := digits?_eq_some hmonth
      dsimp only at h
      split at h
      case h_1 rest =>
        simp only [Option.bind_some, Option.bind_eq_some_iff] at h
        obtain ⟨⟨day, after⟩, hday, -⟩ := h
        obtain ⟨d, hd, rfl⟩ := digits?_eq_some hday
        exact .inr (.inr ⟨m, d, after, hm, hd, .inl (by simp)⟩)
      case h_2 => cases h
  | false =>
    simp only [hhyphens, Bool.false_eq_true, if_false] at h
    split at h
    case h_1 week => exact .inr (.inl ⟨year, week, rfl, h⟩)
    case h_2 =>
      simp only [Option.bind_some, Option.bind_eq_some_iff] at h
      obtain ⟨⟨month, rest⟩, hmonth, ⟨day, after⟩, hday, -⟩ := h
      obtain ⟨m, hm, rfl⟩ := digits?_eq_some hmonth
      obtain ⟨d, hd, rfl⟩ := digits?_eq_some hday
      exact .inr (.inr ⟨m, d, after, hm, hd, .inr (by simp)⟩)

/-- What a day is read from is the spelling of one. -/
theorem isDay_of_date? {cs : List Char} {date : Date} (h : date? (dayLength cs) cs = some date) :
    ∃ day rest, cs = day ++ rest ∧ day.length = dayLength cs ∧ IsDay day := by
  obtain ⟨y, rest, hy, rfl, hrest⟩ := spelled_of_date? h
  obtain ⟨year, week, rfl, hweek⟩ | ⟨year, week, rfl, hweek⟩ | ⟨m, d, after, hm, hd, rfl | rfl⟩ :=
    hrest
  · obtain ⟨w, rest, hw, rfl, hday⟩ := week_of_weekDay? hweek
    -- The length says whether a weekday follows, and then one was read.
    rcases dayLength_week hy hw rest with hlength | hlength
    · exact ⟨_, rest, by simp, by simp [hlength, hy.length, hw.length], .week hy hw⟩
    · obtain ⟨d, after, hd, rfl⟩ := hday (by rw [hlength]; decide)
      exact ⟨_, after, by simp, by rw [hlength]; simp [hy.length, hw.length, hd.length],
        .weekday hy hw hd⟩
  · obtain ⟨w, rest, hw, rfl, hday⟩ := week_of_weekDay? hweek
    rcases dayLength_plainWeek hy hw rest with hlength | hlength
    · exact ⟨_, rest, by simp, by simp [hlength, hy.length, hw.length], .plainWeek hy hw⟩
    · obtain ⟨d, after, hd, rfl⟩ := hday (by rw [hlength]; decide)
      exact ⟨_, after, by simp, by rw [hlength]; simp [hy.length, hw.length, hd.length],
        .plainWeekday hy hw hd⟩
  · have hends := dayLength_date hy hm (d ++ after)
    refine ⟨y ++ '-' :: m ++ '-' :: d, after, by simp, ?_, .date hy hm hd⟩
    simpa [hy.length, hm.length, hd.length] using hends.symm
  · have hends := dayLength_plainDate hy hm hd after
    refine ⟨y ++ m ++ d, after, by simp, ?_, .plainDate hy hm hd⟩
    simpa [hy.length, hm.length, hd.length] using hends.symm

end Casework.Moment
