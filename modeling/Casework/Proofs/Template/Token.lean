/-
  Casework.Proofs.Template.Token

  What a token is, said of its characters, and that the pattern of tokens finds at each place the
  token that starts there. Behind its two opening braces a token has no other one, so where a token
  follows, no token reaches into it from the text in front.
-/
import Casework.Proofs.Template.Cutting
import Casework.Proofs.Text.Blank
import Casework.Template.Reference
import Casework.Template.Token

namespace Casework.Template

-- ============================================================================
-- Characters
-- ============================================================================

/-- The characters of a path lie between the hyphen and the small letters' end. -/
theorem toNat_of_isPathChar {c : Char} (h : isPathChar c) : 45 ≤ c.toNat ∧ c.toNat ≤ 122 := by
  simp only [isPathChar, Bool.or_eq_true, beq_iff_eq] at h
  obtain ((halphanum | rfl) | rfl) | rfl := h
  · have := Text.toNat_of_isAlphanum halphanum
    omega
  all_goals decide

/-- No character of a path is blank. -/
theorem isBlank_of_isPathChar {c : Char} (h : isPathChar c) : Text.isBlank c = false := by
  obtain ⟨hlow, hhigh⟩ := toNat_of_isPathChar h
  simp only [Text.isBlank, Text.CharRanges.contains, Text.blankRanges, List.any_cons, List.any_nil,
    Bool.or_false, Bool.or_eq_false_iff, Bool.and_eq_false_iff, decide_eq_false_iff_not]
  omega

/-- No blank is a character of a path. -/
theorem isPathChar_of_isBlank {c : Char} (h : Text.isBlank c) : isPathChar c = false := by
  by_contra hpath
  rw [Bool.not_eq_false] at hpath
  rw [isBlank_of_isPathChar hpath] at h
  cases h

-- ============================================================================
-- Spellings
-- ============================================================================

/-- Characters of paths, at least one. -/
structure IsTokenPath (cs : List Char) : Prop where
  ne_nil : cs ≠ []
  all : ∀ c ∈ cs, isPathChar c

/-- Characters of a path, and at least one, are a path of a token. -/
theorem IsTokenPath.of_all {cs : List Char} (hne : cs ≠ []) (h : cs.all isPathChar) :
    IsTokenPath cs :=
  ⟨hne, List.all_eq_true.1 h⟩

/-- What stands in front of the path of a token: two braces and blanks. -/
inductive Opens : List Char → Prop where
  | intro {blanks : List Char} (h : ∀ c ∈ blanks, Text.isBlank c) : Opens
    ('\x7b' :: '\x7b' :: blanks)

/-- What stands behind the path of a token: blanks and two braces. -/
inductive Closes : List Char → Prop where
  | intro {blanks : List Char} (h : ∀ c ∈ blanks, Text.isBlank c) : Closes
    (blanks ++ ['\x7d', '\x7d'])

/-- The characters `spelling` are a token with the path `path`. -/
inductive IsToken : List Char → List Char → Prop where
  | intro {front path back : List Char} (hfront : Opens front) (hpath : IsTokenPath path)
    (hback : Closes back) : IsToken path (front ++ path ++ back)

theorem IsToken.ne_nil {path spelling : List Char} (h : IsToken path spelling) : spelling ≠ [] := by
  obtain ⟨⟨-⟩, -, -⟩ := h
  exact List.cons_ne_nil _ _

/-- A path in double braces is a token. -/
theorem isToken_token {path : String} (h : IsTokenPath path.toList) :
    IsToken path.toList (token path).toList := by
  have hspelled : (token path).toList = ['\x7b', '\x7b'] ++ path.toList ++ ['\x7d', '\x7d'] := by
    rw [token, String.toList_append, String.toList_append]
    rfl
  have hfront : Opens ['\x7b', '\x7b'] := @Opens.intro [] (List.forall_mem_nil _)
  have hback : Closes ['\x7d', '\x7d'] := @Closes.intro [] (List.forall_mem_nil _)
  rw [hspelled]
  exact .intro hfront h hback

/-- Behind the opening braces no character is an opening brace. -/
theorem IsToken.inner {path spelling : List Char} (h : IsToken path spelling) :
    ∃ inner, spelling = '\x7b' :: '\x7b' :: inner ∧ inner ≠ [] ∧ '\x7b' ∉ inner := by
  obtain ⟨@⟨front, hfront⟩, hpath, @⟨back, hback⟩⟩ := h
  refine ⟨front ++ path ++ (back ++ ['\x7d', '\x7d']), rfl, by simp, ?_⟩
  rw [List.mem_append, List.mem_append, List.mem_append]
  rintro ((hmem | hmem) | hmem | hmem)
  · exact absurd (hfront _ hmem) (by decide)
  · exact absurd (hpath.all _ hmem) (by decide)
  · exact absurd (hback _ hmem) (by decide)
  · exact absurd hmem (by decide)

-- ============================================================================
-- The pattern
-- ============================================================================

/-- Reading a path takes all of it and nothing behind. -/
theorem takeWhile_isPathChar {path rest : List Char} (hpath : ∀ c ∈ path, isPathChar c)
    (hrest : ∀ c ∈ rest.head?, isPathChar c = false) :
    (path ++ rest).takeWhile isPathChar = path := by
  rw [List.takeWhile_append_of_pos hpath]
  cases rest with
  | nil => exact List.append_nil path
  | cons c rest =>
    rw [List.takeWhile_cons_of_neg (by rw [hrest c rfl]; decide), List.append_nil]

/-- Skipping blanks skips all of them and nothing behind. -/
theorem dropWhile_isBlank {blanks rest : List Char} (hblanks : ∀ c ∈ blanks, Text.isBlank c)
    (hrest : ∀ c ∈ rest.head?, Text.isBlank c = false) :
    (blanks ++ rest).dropWhile Text.isBlank = rest := by
  rw [List.dropWhile_append_of_pos hblanks, Text.dropWhile_isBlank_eq_self hrest]

theorem tokenPattern_of_isToken {path spelling : List Char} (h : IsToken path spelling)
    (before : Option Char) (after : List Char) :
    tokenPattern before (spelling ++ after) = some ⟨String.ofList path, spelling.length - 1⟩ := by
  obtain ⟨@⟨front, hfront⟩, hpath, @⟨back, hback⟩⟩ := h
  obtain ⟨c, rest, rfl⟩ := List.exists_cons_of_ne_nil hpath.ne_nil
  -- Behind the path comes a blank or the closing brace, so the path ends there.
  have hclosing : ∀ d ∈ (back ++ '\x7d' :: '\x7d' :: after).head?, isPathChar d = false := by
    cases back with
    | nil =>
      rintro _ ⟨⟩
      decide
    | cons d back =>
      rintro _ ⟨⟩
      exact isPathChar_of_isBlank (hback d List.mem_cons_self)
  -- The blanks before the path and those behind it are skipped, and nothing else.
  have hinner : (front ++ ((c :: rest) ++ (back ++ '\x7d' :: '\x7d' :: after))).dropWhile
    Text.isBlank =
      (c :: rest) ++ (back ++ '\x7d' :: '\x7d' :: after) := by
    refine dropWhile_isBlank hfront ?_
    rintro _ ⟨⟩
    exact isBlank_of_isPathChar (hpath.all c List.mem_cons_self)
  have hafter : (back ++ '\x7d' :: '\x7d' :: after).dropWhile Text.isBlank = '\x7d' ::
      '\x7d' :: after := by
    refine dropWhile_isBlank hback ?_
    rintro _ ⟨⟩
    decide
  have hcs : '\x7b' :: '\x7b' :: front ++ (c :: rest) ++ (back ++ ['\x7d', '\x7d']) ++ after =
      '\x7b' :: '\x7b' :: (front ++ ((c :: rest) ++ (back ++ '\x7d' :: '\x7d' :: after))) := by simp
  rw [hcs, tokenPattern]
  simp only [hinner, takeWhile_isPathChar hpath.all hclosing, List.drop_left, hafter,
    List.isEmpty_cons, Bool.false_eq_true, if_false]
  rw [← hcs, List.length_append, Nat.add_sub_cancel]

/-- What the pattern finds is a token, with its path and its length. -/
theorem tokenPattern_eq_some {before : Option Char} {cs : List Char} {value : String} {more : Nat}
    (h : tokenPattern before cs = some ⟨value, more⟩) :
    ∃ path spelling after, cs = spelling ++ after ∧ IsToken path spelling ∧
      value = String.ofList path ∧ more = spelling.length - 1 := by
  unfold tokenPattern at h
  split at h
  case h_2 => cases h
  case h_1 rest =>
    dsimp only at h
    split at h
    case h_2 => cases h
    case h_1 after hafter =>
      split at h
      case isTrue => cases h
      case isFalse hne =>
        cases h
        -- The parts read one after the other are put together again: blanks, path, blanks, braces.
        have hrest := List.takeWhile_append_dropWhile (p := Text.isBlank) (l := rest)
        have hfront : ∀ c ∈ rest.takeWhile Text.isBlank, Text.isBlank c := fun c hc =>
          List.mem_takeWhile_imp hc
        generalize rest.takeWhile Text.isBlank = front at hrest hfront
        generalize rest.dropWhile Text.isBlank = inner at hrest hafter hne ⊢
        have hinner : inner.takeWhile isPathChar ++
            inner.drop (inner.takeWhile isPathChar).length = inner :=
          List.prefix_iff_eq_append.1 (List.takeWhile_prefix _)
        have hpath : ∀ c ∈ inner.takeWhile isPathChar, isPathChar c := fun c hc =>
          List.mem_takeWhile_imp hc
        generalize inner.takeWhile isPathChar = path at hinner hpath hafter hne ⊢
        generalize inner.drop path.length = tail at hinner hafter
        have htail := List.takeWhile_append_dropWhile (p := Text.isBlank) (l := tail)
        have hback : ∀ c ∈ tail.takeWhile Text.isBlank, Text.isBlank c := fun c hc =>
          List.mem_takeWhile_imp hc
        rw [hafter] at htail
        generalize tail.takeWhile Text.isBlank = back at htail hback
        subst htail hinner hrest
        have hcs : '\x7b' :: '\x7b' :: (front ++ (path ++ (back ++ '\x7d' :: '\x7d' :: after))) =
            '\x7b' :: '\x7b' :: front ++ path ++ (back ++ ['\x7d', '\x7d']) ++ after := by simp
        refine ⟨path, _, after, hcs, .intro (.intro hfront) ⟨?_, hpath⟩ (.intro hback), rfl, ?_⟩
        · rintro rfl
          exact hne rfl
        · rw [hcs, List.length_append, Nat.add_sub_cancel]

/-- A token starts with a brace. -/
theorem tokenPattern_of_ne {before : Option Char} {c : Char} {rest : List Char} (h : c ≠ '\x7b') :
    tokenPattern before (c :: rest) = none := by
  unfold tokenPattern
  split
  case h_1 hcs => exact absurd (List.cons.inj hcs).1 h
  case h_2 => rfl

/-- A token found lies within the text. -/
theorem tokenPattern_fits : tokenPattern.Fits := by
  intro before cs value more h
  obtain ⟨path, spelling, after, rfl, htoken, -, rfl⟩ := tokenPattern_eq_some h
  have hpos : 0 < spelling.length := List.length_pos_iff.2 htoken.ne_nil
  rw [List.length_append]
  omega

/-- No token reaches behind two opening braces from the text in front of them. -/
theorem IsToken.apart {path spelling rest cs after : List Char} (h : IsToken path spelling)
    (hne : cs ≠ [])
    (hcs : spelling ++ rest = cs ++ '\x7b' :: '\x7b' :: after) :
    ∃ between, cs = spelling ++ between := by
  obtain ⟨between, hbetween, -⟩ | ⟨more, hmore, hafter⟩ := List.append_eq_append_iff.1 hcs
  · exact ⟨between, hbetween⟩
  obtain ⟨inner, rfl, hinner, hbrace⟩ := h.inner
  obtain ⟨c, front, rfl⟩ := List.exists_cons_of_ne_nil hne
  have hfront : '\x7b' :: inner = front ++ more := (List.cons.inj hmore).2
  cases more with
  | nil => exact ⟨[], by rw [hmore, List.append_nil, List.append_nil]⟩
  | cons d more =>
    have hd : '\x7b' = d := (List.cons.inj hafter).1
    -- One of the two braces is behind the first two characters of the token.
    have hmem : '\x7b' ∈ inner := by
      cases front with
      | cons e front =>
        rw [(List.cons.inj hfront).2, hd]
        exact List.mem_append_right front List.mem_cons_self
      | nil =>
        obtain ⟨e, more', rfl⟩ := List.exists_cons_of_ne_nil hinner
        rw [← (List.cons.inj hfront).2] at hafter
        rw [(List.cons.inj (List.cons.inj hafter).2).1]
        exact List.mem_cons_self
    exact absurd hmem hbrace

/-- No token reaches over the opening of another. -/
theorem tokenPattern_apart (cs after : List Char) :
    tokenPattern.Apart cs ('\x7b' :: '\x7b' :: after) := by
  intro before suffix hne _
  cases hsuffix : tokenPattern before suffix with
  | some occurrence =>
    obtain ⟨path, spelling, rest, rfl, htoken, hvalue, hmore⟩ := tokenPattern_eq_some hsuffix
    rw [List.append_assoc, tokenPattern_of_isToken htoken, ← hvalue, ← hmore]
  | none =>
    cases hwhole : tokenPattern before (suffix ++ '\x7b' :: '\x7b' :: after) with
    | none => rfl
    | some occurrence =>
      obtain ⟨path, spelling, rest, hcs, htoken, -, -⟩ := tokenPattern_eq_some hwhole
      obtain ⟨between, rfl⟩ := htoken.apart hne hcs.symm
      rw [tokenPattern_of_isToken htoken] at hsuffix
      cases hsuffix

/-- What stands in front of a token does not matter. -/
theorem cutFrom_tokenPattern (before : Option Char) (cs : List Char) :
    cutFrom tokenPattern 0 before cs = cutFrom tokenPattern 0 none cs :=
  cutFrom_congr rfl

/-- A token is cut out at its start. -/
theorem cutFrom_token {path spelling : List Char} (h : IsToken path spelling) (before : Option Char)
    (after : List Char) :
    cutFrom tokenPattern 0 before (spelling ++ after) =
      .found (String.ofList path) spelling :: cutFrom tokenPattern 0 none after := by
  rw [cutFrom_found h.ne_nil (tokenPattern_of_isToken h before after), cutFrom_tokenPattern]

/-- A token is found between any texts. -/
theorem cutFrom_around_token {path spelling : List Char} (h : IsToken path spelling)
    (before : Option Char)
    (front back : List Char) :
    cutFrom tokenPattern 0 before (front ++ (spelling ++ back)) =
      cutFrom tokenPattern 0 before front ++
        .found (String.ofList path) spelling :: cutFrom tokenPattern 0 none back := by
  obtain ⟨inner, hinner, -, -⟩ := h.inner
  have hapart : tokenPattern.Apart front (spelling ++ back) := by
    rw [hinner]
    exact tokenPattern_apart front _
  rw [cutFrom_append tokenPattern_fits hapart (Nat.zero_le _), cutFrom_token h]

theorem isToken_of_found_mem {skip : Nat} {before : Option Char} {cs : List Char} {value : String}
    {spelling : List Char} (h : .found value spelling ∈ cutFrom tokenPattern skip before cs) :
    IsToken value.toList spelling := by
  obtain ⟨before, rest, more, hpattern, rfl⟩ := exists_of_found_mem h
  obtain ⟨path, spelling, after, rfl, htoken, rfl, rfl⟩ := tokenPattern_eq_some hpattern
  have hpos : 0 < spelling.length := List.length_pos_iff.2 htoken.ne_nil
  rwa [Nat.sub_add_cancel hpos, List.take_left, String.toList_ofList]

-- ============================================================================
-- Rendering
-- ============================================================================

/-- Characters with the values of their tokens filled in. -/
def rendered (values : Fields) (cs : List Char) : List Char :=
  (cutFrom tokenPattern 0 none cs).flatMap (Segment.filled fun path _ => shown values path)

theorem toList_render (template : String) (values : Fields) :
    (render template values).toList = rendered values template.toList :=
  toList_fill _ _

theorem rendered_cons {c : Char} (h : c ≠ '\x7b') (values : Fields) (rest : List Char) :
    rendered values (c :: rest) = c :: rendered values rest := by
  rw [rendered, cutFrom_char (tokenPattern_of_ne h), cutFrom_tokenPattern]
  rfl

theorem rendered_token {path spelling : List Char} (h : IsToken path spelling) (values : Fields)
    (rest : List Char) :
    rendered values (spelling ++ rest) = (shown values (String.ofList path)).toList ++
      rendered values rest := by
  rw [rendered, cutFrom_token h]
  rfl

/-- A token alone is rendered as the text of its value. -/
theorem render_of_isToken {template : String} {path : List Char} (h : IsToken path template.toList)
    (values : Fields) : render template values = shown values (String.ofList path) := by
  have hrendered := rendered_token h values []
  have hnothing : rendered values [] = [] := rfl
  rw [List.append_nil, ← toList_render, hnothing, List.append_nil] at hrendered
  exact String.toList_inj.1 hrendered

theorem render_token {path : String} (h : IsTokenPath path.toList) (values : Fields) :
    render (token path) values = shown values path := by
  rw [render_of_isToken (isToken_token h), String.ofList_toList]

end Casework.Template
