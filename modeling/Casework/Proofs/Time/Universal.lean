/-
  Casework.Proofs.Time.Universal

  What becomes of a `Z` at the end of a text. The offset of universal time is put in its place
  before the text is read. That gives this offset, with two exceptions. Behind a day alone the sign
  of the offset is taken for the character between the day and the time, and the rest of it for the
  time, so that no offset is left. And if there is an offset before it, spelled to the millionths
  and ended by a null character, then all that comes behind the null character is passed over.

  That there are no more exceptions is a matter of how clocks are read: between a sign and the end
  of the text the reader leaves nothing over but what is behind a null character.
-/
import Casework.Proofs.Time.Spelling
import Casework.Task.Changes

namespace Casework.Moment

-- ============================================================================
-- Clocks
-- ============================================================================

/-- A fraction that is spelled to the millionths at least. -/
structure Millionths (ds : List Char) : Prop where
  length : 6 ≤ ds.length
  isDigit : ∀ c ∈ ds, c.isDigit

theorem Millionths.fraction?_append {ds : List Char} (h : Millionths ds) (clock : Clock)
    (rest : List Char) :
    fraction? clock endMark (ds ++ endMark :: rest) = fraction? clock endMark ds := by
  -- Six digits are read for the value, and all further ones are skipped.
  have hhead : Digits 6 (ds.take 6) :=
    ⟨List.length_take_of_le h.length, fun c hc => h.isDigit c (List.mem_of_mem_take hc)⟩
  have htail : ∀ c ∈ ds.drop 6, c.isDigit := fun c hc => h.isDigit c (List.mem_of_mem_drop hc)
  obtain ⟨x, hx⟩ := hhead.digits?_append 0
  have hread : ∀ more, digits? 6 0 (ds ++ more) = some (x, ds.drop 6 ++ more) := fun more => by
    rw [← hx (ds.drop 6 ++ more), ← List.append_assoc, List.take_append_drop]
  have halone := hread []
  rw [List.append_nil, List.append_nil] at halone
  have hcount : min ds.length 6 = 6 := Nat.min_eq_right h.length
  have hlong : min (ds ++ endMark :: rest).length 6 = 6 := by
    rw [List.length_append]
    exact Nat.min_eq_right (Nat.le_trans h.length (Nat.le_add_right _ _))
  have hrest : (ds.drop 6 ++ endMark :: rest).dropWhile Char.isDigit = endMark :: rest := by
    rw [List.dropWhile_append_of_pos htail]
    rfl
  have hnil : (ds.drop 6).dropWhile Char.isDigit = [] := List.dropWhile_eq_nil_iff.2 htail
  simp only [fraction?, hlong, hcount, hread, halone, hrest, hnil, Option.bind_eq_bind,
    Option.bind_some]
  rfl

/-- A fraction is over before the offset of universal time only if a null character ends it. -/
theorem exists_millionths {clock clock' : Clock} {cs : List Char}
    (h : fraction? clock endMark (cs ++ zulu) = some (clock', false)) :
    ∃ ds rest, cs = ds ++ endMark :: rest ∧ Millionths ds := by
  have hcount : min (cs ++ zulu).length 6 = 6 := by
    rw [List.length_append]
    exact Nat.min_eq_right (Nat.le_add_left 6 _)
  simp only [fraction?, hcount, Option.bind_eq_bind, Option.bind_eq_some_iff] at h
  obtain ⟨⟨value, rest⟩, hread, hend⟩ := h
  obtain ⟨ds, hds, hcs⟩ := digits?_eq_some hread
  -- The digits read hold no sign, so they lie before the offset appended.
  obtain ⟨more, rfl, rfl⟩ := cut_before_sign hcs hds.not_mem
  have hstop : (((more ++ zulu).dropWhile Char.isDigit).headD endMark != endMark) = false :=
    congrArg Prod.snd (Option.some.inj hend)
  have hsplit := List.takeWhile_append_dropWhile (p := Char.isDigit) (l := more)
  -- Without an end mark behind the digits, the sign appended would be what stops them.
  cases hmore : more.dropWhile Char.isDigit with
  | nil =>
    have hdigits := List.dropWhile_eq_nil_iff.1 hmore
    rw [List.dropWhile_append_of_pos hdigits] at hstop
    cases hstop
  | cons c after =>
    have hcut : (more ++ zulu).dropWhile Char.isDigit = c :: after ++ zulu := by
      rw [List.dropWhile_append, hmore]
      rfl
    rw [hcut] at hstop
    obtain rfl : c = endMark := by simpa using hstop
    refine ⟨ds ++ more.takeWhile Char.isDigit, after, ?_, ?_, ?_⟩
    · rw [List.append_assoc, ← hmore, hsplit]
    · rw [List.length_append]
      exact Nat.le_add_right_of_le (Nat.le_of_eq hds.length.symm)
    · intro c hc
      rcases List.mem_append.1 hc with hc | hc
      · exact hds.isDigit c hc
      · exact List.mem_takeWhile_imp hc

/-- A clock that is spelled to the millionths, from a part on: `left` parts may come yet, and
`colons` tells whether there was a colon behind the first one. -/
inductive Exact : (left : Nat) → (colons : Bool) → List Char → Prop where
  | fraction {colons : Bool} {ds : List Char} (hds : Millionths ds) : Exact 0 colons ds
  | point {left : Nat} {colons : Bool} {part ds : List Char} {mark : Char} (hpart : Digits 2 part)
    (hmark : mark = '.' ∨ mark = ',') (hds : Millionths ds) : Exact (left + 1) colons
      (part ++ mark :: ds)
  | colon {left : Nat} {colons : Bool} {part rest : List Char} (hpart : Digits 2 part)
    (hcolons : left = 2 ∨ colons = true) (hrest : Exact left true rest) :
    Exact (left + 1) colons (part ++ ':' :: rest)
  | plain {left : Nat} {colons : Bool} {part rest : List Char} (hpart : Digits 2 part)
    (hcolons : left = 2 ∨ colons = false) (hrest : Exact left false rest) :
    Exact (left + 1) colons (part ++ rest)

/-- The digits behind the point begin with two characters, of which the first is a digit. -/
theorem Millionths.begins {ds : List Char} (h : Millionths ds) :
    ∃ c d rest, ds = c :: d :: rest ∧ c.isDigit := by
  obtain ⟨hlength, hdigits⟩ := h
  match ds, hlength with
  | c :: d :: rest, _ => exact ⟨c, d, rest, rfl, hdigits c List.mem_cons_self⟩

/-- An exact clock begins with a digit, and does not end with it. -/
theorem Exact.begins {left : Nat} {colons : Bool} {cs : List Char} (h : Exact left colons cs) :
    ∃ c d rest, cs = c :: d :: rest ∧ c.isDigit := by
  cases h with
  | fraction hds => exact hds.begins
  | point hpart => exact hpart.begins _
  | colon hpart => exact hpart.begins _
  | plain hpart => exact hpart.begins _

/-- How the reader goes on behind a part. -/
theorem exists_clockFrom_eq {part : List Char} (h : Digits 2 part) (left : Nat) (colons : Bool)
    (clock : Clock) :
    ∃ value, ∀ c d more, clockFrom endMark (left + 1) colons clock (part ++ c :: d :: more) =
      if (if left = 2 then c == ':' else colons) && c == ':' then
        clockFrom endMark left true (clock.set (2 - left) value) (d :: more)
      else if c == '.' || c == ',' then fraction? (clock.set (2 - left) value) endMark (d :: more)
      else if (if left = 2 then c == ':' else colons) then none
      else clockFrom endMark left false (clock.set (2 - left) value) (c :: d :: more) := by
  obtain ⟨value, hvalue⟩ := h.digits?_append 0
  refine ⟨value, fun c d more => ?_⟩
  rw [clockFrom, hvalue]
  simp only [Option.bind_eq_bind, Option.bind_some, beq_iff_eq]
  generalize (if left = 2 then c == ':' else colons) = colons'
  cases colons' <;> rfl

/-- Behind an exact clock a null character is the end of it. -/
theorem Exact.clockFrom_append {left : Nat} {colons : Bool} {cs : List Char}
    (h : Exact left colons cs)
    (clock : Clock) (rest : List Char) :
    clockFrom endMark left colons clock (cs ++ endMark :: rest) =
      clockFrom endMark left colons clock cs := by
  -- The induction follows the clock from its hours on, one part at a time.
  induction h generalizing clock with
  | fraction hds => exact hds.fraction?_append clock rest
  | @point left colons part ds mark hpart hmark hds =>
    obtain ⟨value, hvalue⟩ := exists_clockFrom_eq hpart left colons clock
    obtain ⟨c, d, more, rfl, -⟩ := hds.begins
    have hread := hds.fraction?_append (clock.set (2 - left) value) rest
    have hcolon : (mark == ':') = false := by rcases hmark with rfl | rfl <;> rfl
    have hpoint : (mark == '.' || mark == ',') = true := by rcases hmark with rfl | rfl <;> rfl
    simp only [List.append_assoc, List.cons_append] at hread ⊢
    rw [hvalue, hvalue, hcolon, hpoint, Bool.and_false, if_neg Bool.false_ne_true,
      if_neg Bool.false_ne_true, if_pos rfl, if_pos rfl, hread]
  | @colon left colons part cs hpart hcolons hrest ih =>
    obtain ⟨value, hvalue⟩ := exists_clockFrom_eq hpart left colons clock
    obtain ⟨c, d, more, rfl, -⟩ := hrest.begins
    have hread := ih (clock.set (2 - left) value)
    have hgoes : ((if left = 2 then (':' == ':') else colons) && (':' == ':')) = true := by
      rcases hcolons with rfl | rfl
      · rfl
      · split <;> rfl
    simp only [List.append_assoc, List.cons_append] at hread ⊢
    rw [hvalue, hvalue, hgoes, if_pos rfl, if_pos rfl, hread]
  | @plain left colons part cs hpart hcolons hrest ih =>
    obtain ⟨value, hvalue⟩ := exists_clockFrom_eq hpart left colons clock
    obtain ⟨c, d, more, rfl, hdigit⟩ := hrest.begins
    have hread := ih (clock.set (2 - left) value)
    have hne : ∀ e : Char, e.isDigit = false → (c == e) = false := fun e he =>
      beq_eq_false_iff_ne.2 (ne_of_isDigit hdigit he)
    have hcolon : (if left = 2 then (c == ':') else colons) = false := by
      rcases hcolons with rfl | rfl
      · exact hne ':' rfl
      · rw [hne ':' rfl, ite_self]
    simp only [List.append_assoc, List.cons_append] at hread ⊢
    rw [hvalue, hvalue, hcolon, hne '.' rfl, hne ',' rfl, Bool.false_and, Bool.false_or,
      if_neg Bool.false_ne_true, if_neg Bool.false_ne_true, if_neg Bool.false_ne_true,
      if_neg Bool.false_ne_true, if_neg Bool.false_ne_true, if_neg Bool.false_ne_true, hread]

/-- The offset of universal time is no part of a clock. -/
theorem clockFrom_zulu (left : Nat) (colons : Bool) (clock : Clock) :
    clockFrom endMark left colons clock zulu = none := by
  cases left <;> rfl

/-- A part is read before the offset of universal time begins. -/
theorem exists_part {left : Nat} {colons : Bool} {clock clock' : Clock} {cs : List Char}
    (h : clockFrom endMark (left + 1) colons clock (cs ++ zulu) = some (clock', false)) :
    ∃ part rest, Digits 2 part ∧ cs = part ++ rest := by
  rw [clockFrom] at h
  simp only [Option.bind_eq_bind, Option.bind_eq_some_iff] at h
  obtain ⟨⟨value, after⟩, hread, -⟩ := h
  obtain ⟨part, hpart, hcs⟩ := digits?_eq_some hread
  obtain ⟨rest, rfl, -⟩ := cut_before_sign hcs hpart.not_mem
  exact ⟨part, rest, hpart, rfl⟩

/-- A clock goes on behind a part. -/
theorem ne_nil_of_clockFrom {left : Nat} {colons : Bool} {clock clock' : Clock}
    {part rest : List Char}
    (hpart : Digits 2 part)
    (h : clockFrom endMark (left + 1) colons clock (part ++ rest ++ zulu) = some (clock', false)) :
    rest ≠ [] := by
  rintro rfl
  obtain ⟨value, hvalue⟩ := exists_clockFrom_eq hpart left colons clock
  rw [List.append_nil, zulu, hvalue, show ('+' == ':') = false from rfl, Bool.and_false,
    if_neg Bool.false_ne_true, if_neg (by decide), ← zulu, clockFrom_zulu, ite_self] at h
  cases h

/-- A clock is over before the offset of universal time only if it is exact and a null character
ends it. -/
theorem exists_exact {left : Nat} {colons : Bool} {clock clock' : Clock} {cs : List Char}
    (h : clockFrom endMark left colons clock (cs ++ zulu) = some (clock', false)) :
    ∃ own rest, cs = own ++ endMark :: rest ∧ Exact left colons own := by
  induction left generalizing colons clock cs with
  | zero =>
    obtain ⟨ds, rest, hcs, hds⟩ := exists_millionths h
    exact ⟨ds, rest, hcs, .fraction hds⟩
  | succ left ih =>
    obtain ⟨part, cs, hpart, rfl⟩ := exists_part h
    obtain ⟨c, cs, rfl⟩ := List.exists_cons_of_ne_nil (ne_nil_of_clockFrom hpart h)
    obtain ⟨d, more, hmore⟩ : ∃ d more, cs ++ zulu = d :: more :=
      List.exists_cons_of_ne_nil (List.append_ne_nil_of_right_ne_nil cs (List.cons_ne_nil _ _))
    have hcolons : ∀ b, (if left = 2 then c == ':' else colons) = b → left = 2 ∨ colons = b := by
      intro b hb
      split at hb
      case isTrue hleft => exact .inl hleft
      case isFalse => exact .inr hb
    obtain ⟨value, hvalue⟩ := exists_clockFrom_eq hpart left colons clock
    rw [List.append_assoc, List.cons_append, hmore, hvalue] at h
    -- Whether colons stand between the parts is settled by the character behind the hours.
    generalize (if left = 2 then c == ':' else colons) = colons' at h hcolons
    -- The next part follows a colon, a point starts the fraction, or the part comes without either.
    split at h
    case isTrue hcolon =>
      obtain ⟨hkind, hc⟩ := (Bool.and_eq_true_iff ..).1 hcolon
      obtain rfl := beq_iff_eq.1 hc
      rw [← hmore] at h
      obtain ⟨own, rest, rfl, hown⟩ := ih h
      exact ⟨part ++ ':' :: own, rest, by simp, .colon hpart (hcolons true hkind) hown⟩
    case isFalse =>
      split at h
      case isTrue hpoint =>
        rw [← hmore] at h
        obtain ⟨ds, rest, rfl, hds⟩ := exists_millionths h
        refine ⟨part ++ c :: ds, rest, by simp, .point hpart ?_ hds⟩
        simpa using hpoint
      case isFalse =>
        cases colons' with
        | true => cases h
        | false =>
          rw [if_neg Bool.false_ne_true, ← hmore, ← List.cons_append] at h
          obtain ⟨own, rest, hcs, hown⟩ := ih h
          exact ⟨part ++ own, rest, by rw [hcs, List.append_assoc],
            .plain hpart (hcolons false rfl) hown⟩

-- ============================================================================
-- Offsets
-- ============================================================================

/-- Without a `Z` only the clock counts. -/
theorem offset?_congr {sign : Char} {cs ds : List Char} (hsign : sign ≠ 'Z')
    (h : clock? endMark cs = clock? endMark ds) : offset? (sign :: cs) = offset? (sign :: ds) := by
  rw [offset?.eq_2 _ _ (by simpa using hsign), offset?.eq_2 _ _ (by simpa using hsign), h]

/-- An offset that is read is a clock, spelled without a sign. -/
theorem clock?_of_offset? {sign : Char} {cs : List Char} {x : Int} (hsign : sign ≠ 'Z')
    (h : offset? (sign :: cs) = some x) : ∃ clock, clock? endMark cs = some (clock, false) := by
  rw [offset?.eq_2 _ _ (by simpa using hsign)] at h
  simp only [Option.bind_eq_bind, Option.bind_eq_some_iff] at h
  obtain ⟨⟨clock, left⟩, hclock, hrest⟩ := h
  cases left with
  | true => cases hrest
  | false => exact ⟨clock, hclock⟩

/-- The characters give an offset of their own: behind the first sign, spelled to the millionths,
and ended by a null character. -/
def GivesOffset (cs : List Char) (x : Int) : Prop :=
  ∃ clock sign own rest, cs = clock ++ sign :: (own ++ endMark :: rest) ∧
    (∀ c ∈ clock, isOffsetStart c = false) ∧ isOffsetStart sign ∧ Exact 3 true own ∧
    offset? (sign :: own) = some x

/-- The offset is read from the first sign on. -/
theorem offset_of_time? {before after : List Char} {sign : Char} {clock : Clock}
    {offset : Option Int}
    (hbefore : ∀ c ∈ before, isOffsetStart c = false) (hsign : isOffsetStart sign)
    (h : time? (before ++ sign :: after) = some (clock, offset)) :
    ∃ x, offset = some x ∧ offset? (sign :: after) = some x := by
  have htake : (before ++ sign :: after).takeWhile (!isOffsetStart ·) = before := by
    rw [List.takeWhile_append_of_pos fun c hc => by rw [hbefore c hc]; rfl,
      List.takeWhile_cons_of_neg (by simp [hsign]), List.append_nil]
  rw [time?, htake, List.drop_left] at h
  simp only [Option.bind_eq_bind, Option.bind_eq_some_iff] at h
  obtain ⟨⟨_, _⟩, -, h⟩ := h
  rw [if_neg (by simp)] at h
  obtain ⟨x, hx, h⟩ := Option.bind_eq_some_iff.1 h
  cases h
  exact ⟨x, rfl, hx⟩

/-- Before the offset of universal time there is no sign, or a first one. -/
theorem exists_first_sign (cs : List Char) :
    (∀ c ∈ cs, isOffsetStart c = false) ∨ ∃ before sign after, cs = before ++ sign :: after ∧
      (∀ c ∈ before, isOffsetStart c = false) ∧ isOffsetStart sign := by
  have hsplit := List.takeWhile_append_dropWhile (p := fun c => !isOffsetStart c) (l := cs)
  have hbefore : ∀ c ∈ cs.takeWhile (!isOffsetStart ·), isOffsetStart c = false := fun c hc => by
    simpa using List.mem_takeWhile_imp hc
  cases hafter : cs.dropWhile (!isOffsetStart ·) with
  | nil =>
    rw [hafter, List.append_nil] at hsplit
    rw [hsplit] at hbefore
    exact .inl hbefore
  | cons sign after =>
    rw [hafter] at hsplit
    have hsign := List.head?_dropWhile_not (fun c => !isOffsetStart c) cs
    rw [hafter] at hsign
    exact .inr ⟨_, sign, after, hsplit.symm, hbefore, by simpa using hsign⟩

/-- A time of day before the offset of universal time has this offset, unless it gives one of its
own. -/
theorem offset_of_time?_zulu {cs : List Char} {clock : Clock} {offset : Option Int} (hz : 'Z' ∉ cs)
    (h : time? (cs ++ zulu) = some (clock, offset)) :
    ∃ x, offset = some x ∧ (x = 0 ∨ GivesOffset (cs ++ zulu) x) ∧
      ∀ y, GivesOffset (cs ++ zulu) y → y = x := by
  -- There is a sign of its own before the one appended, or there is none.
  obtain ⟨x, rfl, hx⟩ : ∃ x, offset = some x ∧ (x = 0 ∨ GivesOffset (cs ++ zulu) x) := by
    rcases exists_first_sign cs with hnone | ⟨before, sign, after, rfl, hbefore, hsign⟩
    · obtain ⟨x, rfl, hx⟩ := offset_of_time? hnone (by decide) h
      have hzero : offset? zulu = some 0 := by decide
      exact ⟨x, rfl, .inl (Option.some.inj (hx.symm.trans hzero))⟩
    · rw [List.append_assoc, List.cons_append] at h ⊢
      obtain ⟨x, rfl, hx⟩ := offset_of_time? hbefore hsign h
      have hne : sign ≠ 'Z' := by
        rintro rfl
        simp at hz
      obtain ⟨clock', hclock⟩ := clock?_of_offset? hne hx
      obtain ⟨own, rest, rfl, hown⟩ := exists_exact hclock
      refine ⟨x, rfl, .inr ⟨before, sign, own, rest ++ zulu, by simp, hbefore, hsign, hown, ?_⟩⟩
      rw [← hx, List.append_assoc, List.cons_append]
      exact offset?_congr hne (hown.clockFrom_append _ _).symm
  refine ⟨x, rfl, hx, ?_⟩
  rintro y ⟨before, sign, own, rest, hcs, hbefore, hsign, hown, hy⟩
  -- The sign of an offset of its own is not the `Z`, which the text has only at its end.
  have hne : sign ≠ 'Z' := by
    rintro rfl
    have hmem : 'Z' ∈ cs ++ zulu := by
      rw [hcs]
      simp
    rcases List.mem_append.1 hmem with hmem | hmem
    · exact hz hmem
    · revert hmem
      decide
  rw [hcs] at h
  obtain ⟨_, hsame, hx⟩ := offset_of_time? hbefore hsign h
  cases hsame
  rw [offset?_congr hne (hown.clockFrom_append _ rest), hy] at hx
  exact Option.some.inj hx

-- ============================================================================
-- Texts
-- ============================================================================

/-- A day is spelled with digits, hyphens and the letter for weeks. -/
theorem IsDay.plain {day : List Char} (h : IsDay day) :
    ∀ c ∈ day, c.isDigit ∨ c = '-' ∨ c = 'W' := by
  intro c hc
  cases h <;> simp only [List.mem_append, List.mem_cons] at hc <;> grind [Digits.isDigit]

/-- A day is spelled in plain characters. -/
theorem IsDay.toNat_lt {day : List Char} (h : IsDay day) : ∀ c ∈ day, c.toNat < 128 := by
  intro c hc
  rcases h.plain c hc with hdigit | rfl | rfl
  · have hbounds := Char.isDigit_iff_toNat.1 hdigit
    exact Nat.lt_of_le_of_lt hbounds.2 (by decide)
  · decide
  · decide

/-- A day has neither a plus sign nor a `Z`. -/
theorem IsDay.not_mem {day : List Char} (h : IsDay day) {c : Char} (hc : c = '+' ∨ c = 'Z') :
    c ∉ day := by
  intro hmem
  rcases hc with rfl | rfl
  · rcases h.plain _ hmem with h | h | h <;> revert h <;> decide
  · rcases h.plain _ hmem with h | h | h <;> revert h <;> decide

theorem places_append (cs ds : List Char) : places (cs ++ ds) = places cs ++ places ds :=
  List.flatMap_append

/-- A plain character takes one place. -/
theorem places_eq_self {cs : List Char} (h : ∀ c ∈ cs, c.toNat < 128) : places cs = cs := by
  induction cs with
  | nil => rfl
  | cons c cs ih =>
    obtain ⟨hc, hcs⟩ := List.forall_mem_cons.1 h
    rw [places, List.flatMap_cons, if_pos hc]
    exact congrArg (c :: ·) (ih hcs)

/-- A text that begins with plain characters, place by place, begins with them. -/
theorem cut_places {cs ds rest : List Char} (hds : ∀ c ∈ ds, c.toNat < 128)
    (h : places cs = ds ++ rest) :
    ∃ more, cs = ds ++ more := by
  induction ds generalizing cs with
  | nil => exact ⟨cs, rfl⟩
  | cons d ds ih =>
    obtain ⟨hd, htail⟩ := List.forall_mem_cons.1 hds
    cases cs with
    | nil => cases h
    | cons c cs =>
      rw [places, List.flatMap_cons] at h
      split at h
      case isTrue =>
        obtain ⟨rfl, hrest⟩ := List.cons.inj h
        obtain ⟨more, rfl⟩ := ih htail hrest
        exact ⟨more, rfl⟩
      case isFalse =>
        -- The places of any other character are filled with a mark that is no plain one.
        obtain ⟨n, hn⟩ := Nat.exists_eq_succ_of_ne_zero (Nat.pos_iff_ne_zero.1 c.utf8Size_pos)
        rw [hn, List.replicate_succ] at h
        obtain ⟨rfl, -⟩ := List.cons.inj h
        exact absurd hd (by decide)

/-- Normalising the digits brings in no `Z`. -/
theorem not_mem_places {cs : List Char} (h : 'Z' ∉ cs) : 'Z' ∉ places cs := by
  intro hmem
  obtain ⟨c, hc, hplace⟩ := List.mem_flatMap.1 hmem
  split at hplace
  case isTrue =>
    obtain rfl := List.mem_singleton.1 hplace
    exact h hc
  case isFalse =>
    have hmark := List.eq_of_mem_replicate hplace
    revert hmark
    decide

/-- A moment keeps the offset it is made with. -/
theorem offset_of_ofClock? {date : Date} {clock : Clock} {offset : Option Int} {m : Moment}
    (h : ofClock? date clock offset = some m) : m.offset = offset := by
  rw [ofClock?] at h
  split at h
  case isTrue =>
    cases h
    rfl
  case isFalse => cases h

/-- What stands behind the day of a text and the character that follows it, place by place. -/
def behindDay (cs : List Char) : List Char := places (cs.drop (dayLength (places cs) + 1))

/-- A day before the offset of universal time is read without it: the sign is taken for the
character that follows the day, and the rest for the time. All other texts have an offset. -/
theorem offset_of_read? {s : String} {cs : List Char} {m : Moment} (hs : s.toList = cs ++ zulu)
    (hz : 'Z' ∉ cs) (h : read? s = some m) :
    IsDay cs ∧ m.offset = none ∨ ¬ IsDay cs ∧ ∃ x, m.offset = some x ∧
      (x = 0 ∨ GivesOffset (behindDay (cs ++ zulu)) x) ∧
      ∀ y, GivesOffset (behindDay (cs ++ zulu)) y → y = x := by
  have hplaces : places (cs ++ zulu) = places cs ++ zulu := by
    rw [places_append]
    rfl
  rw [read?, hs] at h
  simp only [Option.bind_eq_bind] at h
  split at h
  case isTrue => cases h
  obtain ⟨date, hdate, h⟩ := Option.bind_eq_some_iff.1 h
  obtain ⟨day, rest, hday, hlength, hisDay⟩ := isDay_of_date? hdate
  -- A day holds no plus sign, so it lies before the offset appended.
  obtain ⟨more, hmore, -⟩ := cut_before_sign (hplaces.symm.trans hday) (hisDay.not_mem (.inl rfl))
  obtain ⟨after, rfl⟩ := cut_places hisDay.toNat_lt hmore
  rw [← hlength, List.append_assoc, List.drop_left] at h
  -- Nothing stands between the day and the offset: the text is a day, at midnight.
  cases after with
  | nil =>
    have htime : time? (places ['0', '0', ':', '0', '0']) = some (⟨0, 0, 0, 0⟩, none) := rfl
    obtain ⟨⟨clock, offset⟩, hread, hmoment⟩ := Option.bind_eq_some_iff.1 h
    cases htime.symm.trans hread
    rw [List.append_nil]
    exact .inl ⟨hisDay, offset_of_ofClock? hmoment⟩
  | cons separator after =>
    obtain ⟨⟨clock, offset⟩, hread, hmoment⟩ := Option.bind_eq_some_iff.1 h
    have hbehind : behindDay (day ++ separator :: after ++ zulu) = places after ++ zulu := by
      have hsplit : day ++ separator :: after ++ zulu = (day ++ [separator]) ++
        (after ++ zulu) := by simp
      have hdrop : day.length + 1 = (day ++ [separator]).length := by simp
      rw [behindDay, ← hlength, hdrop, hsplit, List.drop_left, places_append]
      rfl
    -- Were the whole a day, the length read would be its own, which leaves no room for a separator.
    have hnoDay : ¬ IsDay (day ++ separator :: after) := by
      intro hlonger
      have hends : dayLength (day ++ separator :: after ++ zulu) =
          (day ++ separator :: after).length :=
        hlonger.dayLength_append ['0', ':', '0', '0']
      rw [hplaces, places_eq_self hlonger.toNat_lt, hends] at hlength
      simp at hlength
    rw [offset_of_ofClock? hmoment, hbehind]
    have hread : time? (places after ++ zulu) = some (clock, offset) := by
      rw [← hread]
      exact congrArg time? (places_append after zulu).symm
    exact .inr ⟨hnoDay, offset_of_time?_zulu (not_mem_places fun hmem => hz (by simp [hmem])) hread⟩

/-- An offset of five hours and less than a second, up to the null character. -/
example : read? (universal "2026-03-01T10:00:00+05:00:00.123456\x00Z") =
    some ⟨⟨2026, 3, 1⟩, 10, 0, 0, 0, some 18000123456⟩ := by
  decide +kernel

theorem toList_universal (s : String) :
    (universal s).toList = s.toList.flatMap fun c => if c == 'Z' then zulu else [c] :=
  String.toList_ofList

/-- No `Z` is left in the text. -/
theorem not_mem_universal (s : String) : 'Z' ∉ (universal s).toList := by
  intro hmem
  rw [toList_universal] at hmem
  obtain ⟨c, -, hc⟩ := List.mem_flatMap.1 hmem
  split at hc
  case isTrue => exact absurd hc (by decide)
  case isFalse hne => exact hne (beq_iff_eq.2 (List.mem_singleton.1 hc).symm)

/-- A final `Z` becomes the offset zero. -/
theorem toList_universal_append (body : String) :
    (universal (body ++ "Z")).toList = (universal body).toList ++ zulu := by
  rw [toList_universal, toList_universal, String.toList_append, List.flatMap_append]
  rfl

/-- Text without a `Z` stays as it is. -/
theorem universal_eq_self {s : String} (h : 'Z' ∉ s.toList) : (universal s).toList = s.toList := by
  rw [toList_universal]
  refine (List.flatMap_congr fun c hc => if_neg ?_).trans (List.flatMap_singleton' s.toList)
  rintro heq
  obtain rfl := beq_iff_eq.1 heq
  exact h hc

/-- With the offset of universal time in the place of every `Z`, a text is a day exactly if it was
one. -/
theorem isDay_universal_iff (s : String) : IsDay (universal s).toList ↔ IsDay s.toList := by
  constructor
  · intro h
    have hz : 'Z' ∉ s.toList := by
      intro hmem
      refine h.not_mem (.inl rfl) ?_
      rw [toList_universal]
      exact List.mem_flatMap.2 ⟨'Z', hmem, by decide⟩
    rwa [universal_eq_self hz] at h
  · intro h
    rwa [universal_eq_self (h.not_mem (.inr rfl))]

end Casework.Moment

namespace Casework.Task

open Moment

-- ============================================================================
-- Due dates
-- ============================================================================

theorem exists_read?_of_dueDateOf {j : Json} {due : Option Moment} {body : String}
    (h : dueDateOf j = .ok due) (htext : Text.trim j.plain = body ++ "Z") :
    ∃ m, due = some m ∧ read? (universal (body ++ "Z")) = some m := by
  unfold dueDateOf at h
  split at h
  case h_1 =>
    -- The absent due date is spelled without a `Z`.
    have hlast : (Text.trim Json.null.plain).toList.getLast? = some 'Z' := by
      rw [htext, String.toList_append, List.getLast?_append]
      rfl
    exact absurd hlast (by decide +kernel)
  case h_2 =>
    dsimp only at h
    rw [htext, if_neg (by simp)] at h
    split at h
    case h_1 m hread =>
      cases h
      exact ⟨m, rfl, hread⟩
    case h_2 => cases h

/-- A due date that ends in `Z` is in universal time exactly if there is more to it than a day, and
if it does not give another offset besides. -/
theorem universal_due_iff {j : Json} {due : Option Moment} {body : String}
    (h : dueDateOf j = .ok due)
    (htext : Text.trim j.plain = body ++ "Z") :
    ∃ m, due = some m ∧ (m.offset = some 0 ↔ ¬ IsDay body.toList ∧
      ∀ x, GivesOffset (behindDay (universal (body ++ "Z")).toList) x → x = 0) := by
  obtain ⟨m, rfl, hread⟩ := exists_read?_of_dueDateOf h htext
  refine ⟨m, rfl, ?_⟩
  rw [← isDay_universal_iff, toList_universal_append]
  rcases offset_of_read? (toList_universal_append body) (not_mem_universal body) hread with
    ⟨hday, hnone⟩ | ⟨hday, x, hx, hgives, hunique⟩
  · rw [hnone]
    exact iff_of_false (by simp) fun h => h.1 hday
  · rw [hx]
    refine ⟨fun hzero => ⟨hday, fun y hy => ?_⟩, fun hall => congrArg some ?_⟩
    · exact (hunique y hy).trans (Option.some.inj hzero)
    · rcases hgives with hzero | hown
      · exact hzero
      · exact hall.2 x hown

/-- The nine o'clock of a day is in universal time. -/
theorem universal_due_nine :
    ∃ m, dueDateOf (.text " 2026-03-01T09:00:00Z ") = .ok (some m) ∧
      Text.trim (Json.text " 2026-03-01T09:00:00Z ").plain = "2026-03-01T09:00:00" ++ "Z" ∧
      m.offset = some 0 ∧ ¬ IsDay "2026-03-01T09:00:00".toList ∧
      ∀ x, GivesOffset (behindDay (universal ("2026-03-01T09:00:00" ++ "Z")).toList) x → x = 0 := by
  have hmoment : read? (universal (Text.trim " 2026-03-01T09:00:00Z ")) =
      some ⟨⟨2026, 3, 1⟩, 9, 0, 0, 0, some 0⟩ := by decide +kernel
  have hread : dueDateOf (.text " 2026-03-01T09:00:00Z ") =
      .ok (some ⟨⟨2026, 3, 1⟩, 9, 0, 0, 0, some 0⟩) := by
    have hsome : (Text.trim " 2026-03-01T09:00:00Z " == "") = false := by decide +kernel
    simp only [dueDateOf, Json.plain, hsome, hmoment, Bool.false_eq_true, if_false]
  have htext : Text.trim (Json.text " 2026-03-01T09:00:00Z ").plain =
      "2026-03-01T09:00:00" ++ "Z" := by
    decide +kernel
  obtain ⟨m, hm, hiff⟩ := universal_due_iff hread htext
  cases hm
  exact ⟨_, hread, htext, rfl, hiff.1 rfl⟩

/-- A day with a `Z` behind it is taken for midnight of an unknown place. -/
theorem not_all_universal :
    ¬ ∀ (s body : String) (m : Moment), dueDateOf (.text s) = .ok (some m) →
      Text.trim s = body ++ "Z" → m.offset = some 0 := by
  intro h
  have hread : dueDateOf (.text "2026-03-01Z") =
    .ok (some ⟨⟨2026, 3, 1⟩, 0, 0, 0, 0, none⟩) := by rfl
  cases h "2026-03-01Z" "2026-03-01" _ hread (by decide +kernel)

end Casework.Task
