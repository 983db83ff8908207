/-
  Casework.Proofs.Template.Passage

  How tokens that are written in a text come through resolving. No reference reaches across a brace
  or a blank, so what is in front of a token, the token's path and what is behind it are resolved
  apart. A token stays what it is exactly if its path holds no reference that stands for something;
  but a path can, for a variable can have an id that begins like references do.
-/
import Casework.Proofs.Template.Substitution

namespace Casework.Template

-- ============================================================================
-- Separators
-- ============================================================================

/-- A character that is in no reference and ends the word in front of it. -/
structure Separates (c : Char) : Prop where
  word : Text.isWord c = false
  hyphen : c ≠ '-'
  point : c ≠ '.'

/-- A separating character is none of a name. -/
theorem Separates.not_isNameChar {c : Char} (h : Separates c) : ¬ isNameChar c := by
  simp only [isNameChar, Bool.or_eq_true, beq_iff_eq]
  rintro ((halphanum | rfl) | rfl)
  · exact absurd (Text.isWord_of_isAlphanum halphanum) (by rw [h.word]; decide)
  · exact absurd h.word (by decide)
  · exact h.hyphen rfl

/-- A separating character is none of a path. -/
theorem IsPath.not_mem {cs : List Char} (hpath : IsPath cs) {c : Char} (h : Separates c) :
    c ∉ cs := by
  intro hmem
  cases hpath with
  | plain hname => exact h.not_isNameChar (hname.all c hmem)
  | dotted hname hfield =>
    obtain hmem | hmem := List.mem_append.1 hmem
    · exact h.not_isNameChar (hname.all c hmem)
    · obtain hmem | hmem := List.mem_cons.1 hmem
      · exact h.point hmem
      · exact h.not_isNameChar (hfield.all c hmem)

/-- A separating character is none of a reference. -/
theorem IsReference.not_mem {before : Option Char} {spelling after : List Char}
    (href : IsReference before spelling after) {c : Char} (h : Separates c) : c ∉ spelling := by
  obtain ⟨path, hpath, rfl⟩ := href.spelled
  have hlead : lead.all isNameChar := by decide
  rw [List.mem_append, not_or]
  exact ⟨fun hmem => h.not_isNameChar (List.all_eq_true.1 hlead c hmem), hpath.not_mem h⟩

/-- A separator behind a text ends it as the end of the text does. -/
theorem ends_separated {c : Char} (h : Separates c) (front after rest : List Char) :
    Ends front (after ++ c :: rest) ↔ Ends front after := by
  cases after with
  | nil => rw [Ends, Ends, List.nil_append, Text.isBoundary, Text.isBoundary, List.head?_cons,
      Option.any_some, h.word, List.head?_nil, Option.any_none]
  | cons d after => rfl

/-- What lies behind a separating character does not decide on a reference before it. -/
theorem isReference_separated {c : Char} (h : Separates c) {before : Option Char}
    {spelling after : List Char} (rest : List Char) :
    IsReference before spelling (after ++ c :: rest) ↔ IsReference before spelling after :=
  ⟨fun ⟨hspelled, hopens, hcloses⟩ => ⟨hspelled, hopens, (ends_separated h ..).1 hcloses⟩,
    fun ⟨hspelled, hopens, hcloses⟩ => ⟨hspelled, hopens, (ends_separated h ..).2 hcloses⟩⟩

/-- The pattern finds the same where the same references start. -/
theorem referencePattern_congr {before before' : Option Char} {cs cs' : List Char}
    (h : ∀ spelling, (∃ after, cs = spelling ++ after ∧ IsReference before spelling after) ↔
      ∃ after, cs' = spelling ++ after ∧ IsReference before' spelling after) :
    referencePattern before cs = referencePattern before' cs' := by
  obtain ⟨hnone, hstarts⟩ | ⟨spelling, after, rfl, hfound, hsome⟩ :=
    referencePattern_cases before cs
  · rw [hnone, referencePattern_of_noneStarts]
    rintro spelling after hcs' href
    obtain ⟨after', hcs, href'⟩ := (h spelling).2 ⟨after, hcs', href⟩
    exact hstarts spelling after' hcs href'
  · obtain ⟨after', rfl, href⟩ := (h spelling).1 ⟨after, rfl, hfound.reference⟩
    have hfound' : Found before' spelling after' := by
      refine ⟨href, fun longer rest hcs' href' => ?_⟩
      obtain ⟨rest', hcs, href''⟩ := (h longer).2 ⟨rest, hcs', href'⟩
      exact hfound.longest longer rest' hcs href''
    rw [hsome, referencePattern_of_found hfound']

/-- A reference found lies within the text. -/
theorem referencePattern_fits : referencePattern.Fits := by
  intro before cs value more h
  obtain ⟨hnone, -⟩ | ⟨spelling, after, rfl, hfound, hsome⟩ := referencePattern_cases before cs
  · rw [hnone] at h
    cases h
  · rw [hsome] at h
    cases h
    have hpos : 0 < spelling.length := List.length_pos_iff.2 hfound.reference.ne_nil
    rw [List.length_append]
    omega

/-- No reference reaches behind a separator from the text in front of it. -/
theorem referencePattern_apart {c : Char} (h : Separates c) (cs rest : List Char) :
    referencePattern.Apart cs (c :: rest) := by
  refine fun before suffix _ _ => referencePattern_congr fun spelling => ?_
  constructor
  · rintro ⟨after, hcs, href⟩
    -- Either the reference ends before the separator, or it would reach over it.
    obtain ⟨between, hbetween, rfl⟩ | ⟨more, rfl, hmore⟩ := List.append_eq_append_iff.1 hcs.symm
    · exact ⟨between, hbetween, (isReference_separated h rest).1 href⟩
    · cases more with
      | nil =>
        obtain rfl : c :: rest = after := hmore
        refine ⟨[], by simp, ?_⟩
        exact (isReference_separated h rest).1 href
      | cons d more =>
        obtain ⟨rfl, -⟩ := List.cons.inj hmore
        exact absurd (List.mem_append_right suffix List.mem_cons_self) (href.not_mem h)
  · rintro ⟨after, rfl, href⟩
    exact ⟨after ++ c :: rest, List.append_assoc .., (isReference_separated h rest).2 href⟩

/-- No reference starts at a separating character. -/
theorem referencePattern_separator {c : Char} (h : Separates c) (before : Option Char)
    (rest : List Char) :
    referencePattern before (c :: rest) = none := by
  refine referencePattern_of_noneStarts fun spelling after hcs href => ?_
  obtain ⟨d, spelling, rfl⟩ := List.exists_cons_of_ne_nil href.ne_nil
  obtain ⟨rfl, -⟩ := List.cons.inj hcs
  exact href.not_mem h List.mem_cons_self

/-- A text behind a separator is cut as if nothing were in front of it. -/
theorem cutFrom_behind_separator {c : Char} (h : Separates c) (cs : List Char) :
    cutFrom referencePattern 0 (some c) cs = cutFrom referencePattern 0 none cs := by
  have hopens : ∀ after, Text.isBoundary (some c) after = Text.isBoundary none after :=
      fun after => by
    rw [Text.isBoundary, Text.isBoundary, Option.any_some, h.word, Option.any_none]
  refine cutFrom_congr (referencePattern_congr fun spelling => exists_congr fun after => ?_)
  refine and_congr_right fun _ => ⟨fun href => ?_, fun href => ?_⟩
  · exact ⟨href.spelled, hopens _ ▸ href.opens, href.closes⟩
  · exact ⟨href.spelled, (hopens _).symm ▸ href.opens, href.closes⟩

section Separated

variable {separators : List Char} (hne : separators ≠ []) (h : ∀ c ∈ separators, Separates c)

include hne h

theorem cutFrom_separators (before : Option Char) (rest : List Char) :
    cutFrom referencePattern 0 before (separators ++ rest) =
      separators.map Segment.char ++ cutFrom referencePattern 0 none rest := by
  induction separators generalizing before with
  | nil => exact absurd rfl hne
  | cons c more ih =>
    obtain ⟨hc, hmore⟩ := List.forall_mem_cons.1 h
    rw [List.cons_append, cutFrom_char (referencePattern_separator hc _ _), List.map_cons,
      List.cons_append]
    rcases eq_or_ne more [] with rfl | hne'
    · rw [List.nil_append, cutFrom_behind_separator hc, List.map_nil, List.nil_append]
    · rw [ih hne' hmore]

/-- A text and what is separated from it are cut apart. -/
theorem cutFrom_separated (before : Option Char) (front rest : List Char) :
    cutFrom referencePattern 0 before (front ++ (separators ++ rest)) =
      cutFrom referencePattern 0 before front ++
        (separators.map Segment.char ++ cutFrom referencePattern 0 none rest) := by
  obtain ⟨c, more, rfl⟩ := List.exists_cons_of_ne_nil hne
  have hc := h c List.mem_cons_self
  rw [← cutFrom_separators hne h (front.getLast?.or before), List.cons_append]
  exact cutFrom_append referencePattern_fits (referencePattern_apart hc front _)
    (Nat.zero_le _) before

end Separated

-- ============================================================================
-- Around a token
-- ============================================================================

/-- Blanks separate. -/
theorem separates_of_isBlank {c : Char} (h : Text.isBlank c) : Separates c where
  word := Text.isWord_of_isBlank h
  hyphen := by rintro rfl; exact absurd h (by decide)
  point := by rintro rfl; exact absurd h (by decide)

theorem separates_opening : Separates '\x7b' := ⟨by decide, by decide, by decide⟩

theorem separates_closing : Separates '\x7d' := ⟨by decide, by decide, by decide⟩

/-- An opening of a token separates. -/
theorem Opens.separates {front : List Char} (h : Opens front) : ∀ c ∈ front, Separates c := by
  obtain ⟨hblanks⟩ := h
  intro c hc
  obtain rfl | hc := List.mem_cons.1 hc
  · exact separates_opening
  obtain rfl | hc := List.mem_cons.1 hc
  · exact separates_opening
  · exact separates_of_isBlank (hblanks c hc)

/-- A closing of a token separates. -/
theorem Closes.separates {back : List Char} (h : Closes back) : ∀ c ∈ back, Separates c := by
  obtain ⟨hblanks⟩ := h
  intro c hc
  obtain hc | hc := List.mem_append.1 hc
  · exact separates_of_isBlank (hblanks c hc)
  · obtain rfl : c = '\x7d' := by simpa using hc
    exact separates_closing

/-- The references in front of a token, in it and behind it are cut apart, and those in it are those
in its path. -/
theorem IsToken.cutFrom_eq {path spelling : List Char} (h : IsToken path spelling) :
    (∃ opening closing : List Char, cutFrom referencePattern 0 none spelling =
      opening.map Segment.char ++
      (cutFrom referencePattern 0 none path ++ closing.map Segment.char)) ∧
    ∀ before front back, cutFrom referencePattern 0 before (front ++ (spelling ++ back)) =
      cutFrom referencePattern 0 before front ++
        (cutFrom referencePattern 0 none spelling ++ cutFrom referencePattern 0 none back) := by
  obtain @⟨opening, path, closing, hopens, hpath, hcloses⟩ := h
  have hopening : opening ≠ [] := by
    obtain ⟨-⟩ := hopens
    exact List.cons_ne_nil _ _
  have hclosing : closing ≠ [] := by
    obtain ⟨-⟩ := hcloses
    exact List.append_ne_nil_of_right_ne_nil _ (List.cons_ne_nil _ _)
  -- Opening and closing separate, so the path between them is cut as if alone.
  have hbetween : ∀ before front back,
      cutFrom referencePattern 0 before (front ++ (opening ++ path ++ closing ++ back)) =
        cutFrom referencePattern 0 before front ++
          (opening.map Segment.char ++ (cutFrom referencePattern 0 none path ++
            (closing.map Segment.char ++ cutFrom referencePattern 0 none back))) := by
    intro before front back
    rw [List.append_assoc, List.append_assoc, cutFrom_separated hopening hopens.separates,
      cutFrom_separated hclosing hcloses.separates]
  have halone := hbetween none [] []
  simp only [cutFrom, List.nil_append, List.append_nil] at halone
  refine ⟨⟨opening, closing, halone⟩, fun before front back => ?_⟩
  rw [hbetween, halone]
  simp only [List.append_assoc]

/-- The references in a token are those in its path. -/
theorem IsToken.occurrences_eq {path spelling : List Char} (h : IsToken path spelling) :
    occurrences (cutFrom referencePattern 0 none spelling) =
      occurrences (cutFrom referencePattern 0 none path) := by
  obtain ⟨⟨opening, closing, hcut⟩, -⟩ := h.cutFrom_eq
  rw [hcut]
  simp [occurrences, List.filterMap_append]

/-- Resolving keeps a text exactly if no reference in it stands for anything. -/
theorem resolvedFrom_eq_self_iff {keys : Entries String} {before : Option Char} {cs : List Char} :
    resolvedFrom keys before cs = cs ↔
      ∀ ref ∈ occurrences (cutFrom referencePattern 0 before cs), resolve? keys ref = none := by
  induction before, cs using reference_induction with
  | nil => simp [resolvedFrom, cutFrom, occurrences]
  | keep before c rest hnone ih =>
    rw [resolvedFrom_cons hnone, List.cons_inj_right, ih,
      cutFrom_char (referencePattern_of_noneStarts hnone)]
    rfl
  | found before spelling after hfound ih =>
    have hoccurrences : occurrences (cutFrom referencePattern 0 before (spelling ++ after)) =
        String.ofList spelling :: occurrences
          (cutFrom referencePattern 0 spelling.getLast? after) := by
      rw [cutFrom_found hfound.reference.ne_nil (referencePattern_of_found hfound)]
      rfl
    rw [resolvedFrom_found hfound, hoccurrences, List.forall_mem_cons, replacement]
    cases hresolve : resolve? keys (String.ofList spelling) with
    | none => rw [String.toList_ofList, List.append_cancel_left_eq, ih, eq_self, true_and]
    | some path =>
      -- What is put in begins with a brace.
      refine iff_of_false (fun hsame => ?_) (fun hnone => ?_)
      · obtain ⟨name, -, rfl⟩ := hfound.reference.spelled
        have hbrace : '\x7b' = 'v' := by
          dsimp only at hsame
          rw [token, String.toList_append, String.toList_append] at hsame
          exact (List.cons.inj hsame).1
        exact absurd hbrace (by decide)
      · cases hnone.1

-- ============================================================================
-- Tokens of a text
-- ============================================================================

section Passing

variable {s path : String} {front back : List Segment} {spelling : List Char}

/-- A cut text is what stands before an occurrence, the occurrence and what stands behind. -/
theorem toList_of_cut (h : cut tokenPattern s = front ++ .found path spelling :: back) :
    s.toList = front.flatMap Segment.chars ++ (spelling ++ back.flatMap Segment.chars) := by
  have htext := congrArg String.toList (textOf_cut tokenPattern s)
  rw [textOf, String.toList_ofList, h, List.flatMap_append, List.flatMap_cons] at htext
  exact htext.symm

/-- What is in front of a token, the token itself and what is behind it are resolved apart. -/
theorem resolved_around (h : cut tokenPattern s = front ++ .found path spelling :: back)
    (keys : Entries String) :
    resolved keys s =
      resolved keys (textOf front) ++ resolved keys (String.ofList spelling) ++
        resolved keys (textOf back) := by
  have htoken : IsToken path.toList spelling :=
    isToken_of_found_mem (h ▸ List.mem_append_right front List.mem_cons_self)
  rw [← String.toList_inj, String.toList_append, String.toList_append, toList_resolved,
    toList_resolved,
    toList_resolved, toList_resolved, toList_of_cut h, resolvedFrom, htoken.cutFrom_eq.2,
    List.flatMap_append, List.flatMap_append, String.toList_ofList, textOf, textOf,
      String.toList_ofList,
    String.toList_ofList, List.append_assoc]
  rfl

/-- A token is kept exactly if no reference in its path stands for anything. -/
theorem resolved_token_eq_self_iff (h : IsToken path.toList spelling) (keys : Entries String) :
    resolved keys (String.ofList spelling) = String.ofList spelling ↔
      ∀ ref ∈ references path, resolve? keys ref = none := by
  rw [← String.toList_inj, toList_resolved, String.toList_ofList, resolvedFrom_eq_self_iff,
    h.occurrences_eq]
  rfl

/-- A token within a text is cut out of it, whatever stands around. -/
theorem cut_around (h : IsToken path.toList spelling) (front back : String) :
    cut tokenPattern (front ++ String.ofList spelling ++ back) =
      cut tokenPattern front ++ .found path spelling :: cut tokenPattern back := by
  rw [cut, String.toList_append, String.toList_append, String.toList_ofList, List.append_assoc,
    cutFrom_around_token h, String.ofList_toList]
  rfl

/-- A token within a text is rendered on its own, whatever stands around. -/
theorem render_around (h : IsToken path.toList spelling) (front back : String) (values : Fields) :
    render (front ++ String.ofList spelling ++ back) values =
      render front values ++ shown values path ++ render back values := by
  rw [render, cut_around h, ← String.toList_inj, toList_fill, List.flatMap_append,
    List.flatMap_cons,
    String.toList_append, String.toList_append, render, render, toList_fill, toList_fill,
      List.append_assoc]
  rfl

/-- A token that is written in a text is kept at its place exactly if no reference in its path
stands for anything. Then it is found again, and the value at its path is put in between what its
surroundings render to. -/
theorem token_passes_iff (vars : List Variable)
    (h : cut tokenPattern s = front ++ .found path spelling :: back) :
    (resolved (keysOf vars) s =
        resolved (keysOf vars) (textOf front) ++ String.ofList spelling ++
          resolved (keysOf vars) (textOf back) ↔
      ∀ ref ∈ references path, resolve? (keysOf vars) ref = none) ∧
    ((∀ ref ∈ references path, resolve? (keysOf vars) ref = none) →
      cut tokenPattern (resolved (keysOf vars) s) =
        cut tokenPattern (resolved (keysOf vars) (textOf front)) ++
          .found path spelling :: cut tokenPattern (resolved (keysOf vars) (textOf back)) ∧
      ∀ values, render (resolved (keysOf vars) s) values =
        render (resolved (keysOf vars) (textOf front)) values ++ shown values path ++
          render (resolved (keysOf vars) (textOf back)) values) := by
  have htoken : IsToken path.toList spelling :=
    isToken_of_found_mem (h ▸ List.mem_append_right front List.mem_cons_self)
  have hkept := resolved_token_eq_self_iff htoken (keysOf vars)
  have haround := resolved_around h (keysOf vars)
  constructor
  · rw [haround, ← hkept, ← String.toList_inj, ← String.toList_inj]
    simp only [String.toList_append, List.append_cancel_right_eq, List.append_cancel_left_eq]
  · intro hnone
    rw [haround, hkept.2 hnone]
    exact ⟨cut_around htoken _ _, render_around htoken _ _⟩

/-- A text with a token between references. -/
theorem token_passes_name :
    cut tokenPattern "var-a \x7b\x7b contact.var-x \x7d\x7d-var-b" =
        "var-a ".toList.map .char ++
          .found "contact.var-x" "\x7b\x7b contact.var-x \x7d\x7d".toList ::
            "-var-b".toList.map .char ∧
      resolved (keysOf (customNamed "A" "B" "C")) "var-a \x7b\x7b contact.var-x \x7d\x7d-var-b" =
        "\x7b\x7bcustom.a\x7d\x7d \x7b\x7b contact.var-x \x7d\x7d-\x7b\x7bcustom.b\x7d\x7d" := by
  have hcut : cut tokenPattern "var-a \x7b\x7b contact.var-x \x7d\x7d-var-b" =
      "var-a ".toList.map .char ++
        .found "contact.var-x" "\x7b\x7b contact.var-x \x7d\x7d".toList ::
          "-var-b".toList.map .char := by
    decide +kernel
  have hkept := (token_passes_iff (customNamed "A" "B" "C") hcut).1.2 (by decide +kernel)
  exact ⟨hcut, hkept.trans (by decide +kernel)⟩

/-- A custom variable whose id begins as references do. -/
def prefixed : Variable :=
  ⟨"var-a", "A", "text", ⟨[("type", .text "custom"), ("value", .text "1")]⟩⟩

/-- The token that names a custom variable by its id is not kept if the id is a reference. -/
theorem not_all_tokens_pass :
    ¬ ∀ (vars : List Variable) (v : Variable), v ∈ vars → v.isCustom →
      cut tokenPattern (token (customPath v.id)) =
        [.found (customPath v.id) (token (customPath v.id)).toList] →
        resolved (keysOf vars) (token (customPath v.id)) = token (customPath v.id) := by
  intro h
  have hkept := h [prefixed] prefixed List.mem_cons_self (by decide) (by decide +kernel)
  exact absurd hkept (by decide +kernel)

end Passing

end Casework.Template
