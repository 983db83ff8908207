/-
  Casework.Proofs.Template.Substitution

  Resolving the references of a text and rendering the result is substitution: each reference is
  replaced by the value at the path that it stands for. A path consists of characters that tokens
  allow, for friendly keys do, so every token that is put in is found again. What tokens are
  replaced by is not looked at, and a text without braces has no tokens but these.
-/
import Casework.Proofs.Template.FriendlyKey
import Casework.Proofs.Template.Reference
import Casework.Proofs.Template.Token
import Casework.Template.Resolution

namespace Casework

namespace Entries

variable {α : Type}

/-- What is found was put there or was there before. -/
theorem mem_of_get?_putAll {entries : Entries α} {pairs : List (String × α)}
    {name : String} {value : α}
    (h : (entries.putAll pairs).get? name = some value) :
    (name, value) ∈ pairs ∨ entries.get? name = some value := by
  induction pairs generalizing entries with
  | nil => exact .inr h
  | cons pair rest ih =>
    rw [putAll_cons] at h
    obtain hmem | hput := ih h
    · exact .inl (List.mem_cons_of_mem _ hmem)
    · rw [get?_put] at hput
      split at hput
      case isTrue hname =>
        rw [hname, ← Option.some.inj hput]
        exact .inl List.mem_cons_self
      case isFalse => exact .inr hput

theorem mem_of_get?_ofList {pairs : List (String × α)} {name : String} {value : α}
    (h : (ofList pairs).get? name = some value) : (name, value) ∈ pairs :=
  (mem_of_get?_putAll h).resolve_right (by rw [get?_empty]; exact nofun)

end Entries

namespace Template

-- ============================================================================
-- The characters of keys
-- ============================================================================

theorem isPathChar_of_isKeyChar {c : Char} (h : isKeyChar c) : isPathChar c := by
  have halphanum : c.isAlphanum := by
    obtain hdigit | hlower := Bool.or_eq_true_iff.1 h
    · exact Bool.or_eq_true_iff.2 (.inr hdigit)
    · exact Bool.or_eq_true_iff.2 (.inl (Bool.or_eq_true_iff.2 (.inr hlower)))
  simp [isPathChar, halphanum]

theorem isPathChar_of_isNameChar {c : Char} (h : isNameChar c) : isPathChar c := by
  simp only [isNameChar, isPathChar, Bool.or_eq_true] at h ⊢
  obtain (h | h) | h := h
  · exact .inl (.inl (.inl h))
  · exact .inl (.inl (.inr h))
  · exact .inr h

theorem mem_joinWords {due : Bool} {cs : List Char} {c : Char} (h : c ∈ joinWords due cs) :
    isKeyChar c ∨ c = '_' := by
  induction cs generalizing due with
  | nil => cases h
  | cons d rest ih =>
    -- A character of the name goes over with the underscore that was due, or is dropped.
    rw [joinWords] at h
    split at h
    case isFalse => exact ih h
    case isTrue hkey =>
      obtain hmem | hmem := List.mem_append.1 h
      · cases due with
        | false =>
          rw [List.mem_singleton.1 hmem]
          exact .inl hkey
        | true =>
          obtain rfl | hmem := List.mem_cons.1 hmem
          · exact .inr rfl
          · rw [List.mem_singleton.1 hmem]
            exact .inl hkey
      · exact ih hmem

/-- The base of a friendly key may stand in a token. -/
theorem isTokenPath_keyBase (name : String) : IsTokenPath (keyBase name).toList := by
  rw [keyBase]
  split
  case isTrue => exact .of_all (by decide) (by decide)
  case isFalse hne =>
    refine ⟨fun hnil => hne (beq_iff_eq.2 (String.toList_eq_nil_iff.1 hnil)), fun c hc => ?_⟩
    rw [nameWords, String.toList_ofList] at hc
    obtain hkey | rfl := mem_joinWords hc
    · exact isPathChar_of_isKeyChar hkey
    · decide

/-- A path of a token may be prolonged by its characters. -/
theorem IsTokenPath.append {cs more : List Char} (h : IsTokenPath cs)
    (hmore : ∀ c ∈ more, isPathChar c) :
    IsTokenPath (cs ++ more) where
  ne_nil := List.append_ne_nil_of_left_ne_nil h.ne_nil more
  all _ hc := (List.mem_append.1 hc).elim (h.all _) (hmore _)

/-- A numbered key may stand in a token where its base may. -/
theorem isTokenPath_numberedKey {base : String} (hbase : IsTokenPath base.toList) (count : Nat) :
    IsTokenPath (numberedKey base count).toList := by
  cases count with
  | zero => exact hbase
  | succ count =>
    rw [toList_numberedKey_succ]
    refine hbase.append fun c hc => ?_
    obtain rfl | hdigit := List.mem_cons.1 hc
    · decide
    · have hdigit := Nat.isDigit_of_mem_toDigits (by decide) (by decide) hdigit
      simp [isPathChar, Char.isAlphanum, hdigit]

/-- Keys consist of characters of paths. -/
theorem isTokenPath_of_get?_friendlyKeys {vars : List (String × String)} {id key : String}
    (h : (friendlyKeys vars).get? id = some key) : IsTokenPath key.toList := by
  have hmem : key ∈ (keysAfter [] vars).map Prod.snd :=
    List.mem_map_of_mem (Entries.mem_of_get?_ofList h)
  rw [map_snd_keysAfter] at hmem
  obtain ⟨⟨base, count⟩, hrank, hkey⟩ := List.mem_map.1 hmem
  rw [mem_ranks, List.count_nil, Nat.zero_add] at hrank
  obtain ⟨v, -, hbase⟩ := List.mem_map.1 (List.count_pos_iff.1 (Nat.zero_lt_of_lt hrank.2))
  have htoken := isTokenPath_numberedKey (isTokenPath_keyBase v.2) count
  rw [hbase] at htoken
  rwa [← hkey]

-- ============================================================================
-- What references stand for
-- ============================================================================

/-- The path that a reference stands for: that of the contact's field that it names, else that of
the custom variable whose id it holds, with or without the lead of references. -/
inductive StandsFor (keys : Entries String) : List Char → String → Prop where
  | contact {field : List Char} (h : IsName field) :
    StandsFor keys (contactLead ++ field) (contactPath (String.ofList field))
  | custom {id : List Char} {key : String}
    (hcontact : ∀ field, IsName field → lead ++ id ≠ contactLead ++ field)
    (hkey : (keys.get? (String.ofList id)).or (keys.get? (String.ofList (lead ++ id))) = some key) :
    StandsFor keys (lead ++ id) (customPath key)

theorem IsPath.not_mem_newline {cs : List Char} (h : IsPath cs) : '\n' ∉ cs := by
  intro hmem
  cases h with
  | plain h => exact absurd (h.all _ hmem) (by decide)
  | dotted h hfield =>
    obtain hmem | hmem := List.mem_append.1 hmem
    · exact absurd (h.all _ hmem) (by decide)
    · obtain hmem | hmem := List.mem_cons.1 hmem
      · exact absurd hmem (by decide)
      · exact absurd (hfield.all _ hmem) (by decide)

/-- The field that a text without line breaks refers to. -/
theorem contactField?_eq_some_iff {cs : List Char} (h : '\n' ∉ cs) {field : String} :
    contactField? (String.ofList cs) = some field ↔
      ∃ name, IsName name ∧ cs = contactLead ++ name ∧ field = String.ofList name := by
  rw [contactField?, String.toList_ofList]
  constructor
  · intro hfield
    split at hfield
    case isFalse => cases hfield
    case isTrue hstart =>
      obtain ⟨name, rfl⟩ := List.isPrefixOf_iff_prefix.1 hstart
      rw [List.drop_left] at hfield
      -- The trailing newline that the pattern's end would allow is excluded.
      have hlast : (name.getLast? == some '\n') = false := by
        rw [beq_eq_false_iff_ne]
        exact fun hlast => h (List.mem_append_right _ (List.mem_of_getLast? hlast))
      simp only [hlast, Bool.false_eq_true, if_false] at hfield
      split at hfield
      case isFalse => cases hfield
      case isTrue hname =>
        obtain ⟨hne, hall⟩ := Bool.and_eq_true_iff.1 hname
        cases hfield
        refine ⟨name, ⟨fun hnil => ?_, List.all_eq_true.1 hall⟩, rfl, rfl⟩
        rw [hnil] at hne
        cases hne
  · rintro ⟨name, hname, rfl, rfl⟩
    have hlast : (name.getLast? == some '\n') = false := by
      rw [beq_eq_false_iff_ne]
      exact fun hlast => h (List.mem_append_right _ (List.mem_of_getLast? hlast))
    have hne : name.isEmpty = false := by
      rw [List.isEmpty_eq_false_iff]
      exact hname.ne_nil
    rw [if_pos (List.isPrefixOf_iff_prefix.2 (List.prefix_append _ _)), List.drop_left]
    simp only [hlast, Bool.false_eq_true, if_false, hne, Bool.not_false, Bool.true_and]
    rw [if_pos (List.all_eq_true.2 hname.all)]

theorem resolve?_eq_some_iff {keys : Entries String} {path : List Char} (h : IsPath path)
    {found : String} :
    resolve? keys (String.ofList (lead ++ path)) = some found ↔
      StandsFor keys (lead ++ path) found := by
  -- No reference holds a line break, so the reading of contact fields is exact.
  have hline : '\n' ∉ lead ++ path := fun hmem =>
    (List.mem_append.1 hmem).elim (by decide) h.not_mem_newline
  have hdrop : (lead ++ path).drop "var-".length = path := rfl
  cases hfield : contactField? (String.ofList (lead ++ path)) with
  | some field =>
    have hresolve : resolve? keys (String.ofList (lead ++ path)) = some (contactPath field) := by
      rw [resolve?, hfield]
    obtain ⟨name, hname, hspelled, rfl⟩ := (contactField?_eq_some_iff hline).1 hfield
    rw [hresolve]
    constructor
    · intro hfound
      rw [← Option.some.inj hfound, hspelled]
      exact .contact hname
    · intro hstands
      -- The spelling is generalised, as it fixes the case of the relation.
      generalize hcs : lead ++ path = cs at hstands hspelled
      cases hstands with
      | contact h' => rw [List.append_cancel_left hspelled]
      | custom hcontact _ => exact absurd hspelled (hcontact name hname)
  | none =>
    have hcontact : ∀ field, IsName field → lead ++ path ≠ contactLead ++ field := by
      intro field hname hspelled
      rw [(contactField?_eq_some_iff hline).2 ⟨field, hname, hspelled, rfl⟩] at hfield
      cases hfield
    have hresolve : resolve? keys (String.ofList (lead ++ path)) =
        ((keys.get? (String.ofList path)).or (keys.get? (String.ofList (lead ++ path)))).map
          customPath := by
      rw [resolve?, hfield, String.toList_ofList, hdrop, Option.or_eq_orElse]
    rw [hresolve, Option.map_eq_some_iff]
    constructor
    · rintro ⟨key, hkey, rfl⟩
      exact .custom hcontact hkey
    · intro hstands
      generalize hcs : lead ++ path = cs at hstands hcontact
      cases hstands with
      | contact h' => exact absurd rfl (hcontact _ h')
      | custom _ hkey =>
        obtain rfl := List.append_cancel_left hcs
        exact ⟨_, hkey, rfl⟩

-- ============================================================================
-- Resolving
-- ============================================================================

/-- Characters with their references resolved into tokens. -/
def resolvedFrom (keys : Entries String) (before : Option Char) (cs : List Char) : List Char :=
  (cutFrom referencePattern 0 before cs).flatMap (Segment.filled fun ref _ => replacement keys ref)

/-- The resolved text is read off its characters. -/
theorem toList_resolved (keys : Entries String) (s : String) :
    (resolved keys s).toList = resolvedFrom keys none s.toList :=
  toList_fill _ _

/-- Where no reference starts, one character goes over as it is. -/
theorem resolvedFrom_cons {before : Option Char} {c : Char} {rest : List Char}
    (h : NoneStarts before (c :: rest)) (keys : Entries String) :
    resolvedFrom keys before (c :: rest) = c :: resolvedFrom keys (some c) rest := by
  rw [resolvedFrom, cutFrom_char (referencePattern_of_noneStarts h)]
  rfl

/-- A reference found is replaced, and reading goes on behind it. -/
theorem resolvedFrom_found {before : Option Char} {spelling after : List Char}
    (h : Found before spelling after) (keys : Entries String) :
    resolvedFrom keys before (spelling ++ after) =
      (replacement keys (String.ofList spelling)).toList ++
        resolvedFrom keys spelling.getLast? after := by
  rw [resolvedFrom, cutFrom_found h.reference.ne_nil (referencePattern_of_found h)]
  rfl

/-- A reference that stands for a path is replaced by the token of that path. -/
theorem replacement_of_standsFor {before : Option Char} {spelling after : List Char}
    (h : IsReference before spelling after) {keys : Entries String} {path : String}
    (hpath : StandsFor keys spelling path) :
    replacement keys (String.ofList spelling) = token path := by
  obtain ⟨name, hname, rfl⟩ := h.spelled
  rw [replacement, (resolve?_eq_some_iff hname).2 hpath]

/-- What a reference stands for consists of characters of paths. -/
theorem StandsFor.isTokenPath {vars : List Variable} {spelling : List Char} {path : String}
    (h : StandsFor (keysOf vars) spelling path) : IsTokenPath path.toList := by
  cases h with
  | @contact field hfield =>
    have hlead : IsTokenPath "contact.".toList := .of_all (by decide) (by decide)
    rw [contactPath, String.toList_append]
    refine hlead.append fun c hc => ?_
    rw [String.toList_ofList] at hc
    exact isPathChar_of_isNameChar (hfield.all c hc)
  | @custom id key _ hkey =>
    have hlead : IsTokenPath "custom.".toList := .of_all (by decide) (by decide)
    have hkey : IsTokenPath key.toList := by
      obtain hkey | ⟨-, hkey⟩ := Option.or_eq_some_iff.1 hkey
      · exact isTokenPath_of_get?_friendlyKeys hkey
      · exact isTokenPath_of_get?_friendlyKeys hkey
    rw [customPath, String.toList_append]
    exact hlead.append hkey.all

-- ============================================================================
-- Substitution
-- ============================================================================

/-- In the characters, with `before` in front of them, every reference is replaced by the value at
the path that it stands for, and everything else is kept. -/
inductive Substitutes (keys : Entries String) (values : Fields) :
    Option Char → List Char → List Char → Prop where
  | nil {before : Option Char} : Substitutes keys values before [] []
  | keep {before : Option Char} {c : Char} {rest result : List Char}
    (hnone : NoneStarts before (c :: rest))
    (hrest : Substitutes keys values (some c) rest result) :
    Substitutes keys values before (c :: rest) (c :: result)
  | replace {before : Option Char} {spelling after result : List Char} {path : String}
    (hfound : Found before spelling after) (hpath : StandsFor keys spelling path)
    (hafter : Substitutes keys values spelling.getLast? after result) :
    Substitutes keys values before (spelling ++ after) ((shown values path).toList ++ result)

section Substituting

variable {vars : List Variable} {values : Fields} {before : Option Char} {cs : List Char}

/-- What is substituted is what rendering makes of the resolved characters. -/
theorem Substitutes.eq_rendered {result : List Char}
    (h : Substitutes (keysOf vars) values before cs result)
    (hbraces : '\x7b' ∉ cs) : result = rendered values (resolvedFrom (keysOf vars) before cs) := by
  induction h with
  | nil => rfl
  | keep hnone _ ih =>
    obtain ⟨hc, hrest⟩ := not_or.1 (List.mem_cons.not.1 hbraces)
    rw [resolvedFrom_cons hnone, rendered_cons (Ne.symm hc), ← ih hrest]
  | replace hfound hpath _ ih =>
    have hafter := (not_or.1 (List.mem_append.not.1 hbraces)).2
    rw [resolvedFrom_found hfound, replacement_of_standsFor hfound.reference hpath,
      rendered_token (isToken_token hpath.isTokenPath), String.ofList_toList, ← ih hafter]

/-- Where every reference stands for something, all of them can be substituted. -/
theorem exists_substitutes (values : Fields)
    (h : ∀ ref ∈ occurrences (cutFrom referencePattern 0 before cs),
      resolve? (keysOf vars) ref ≠ none) :
    ∃ result, Substitutes (keysOf vars) values before cs result := by
  induction before, cs using reference_induction with
  | nil => exact ⟨[], .nil⟩
  | keep before c rest hnone ih =>
    rw [cutFrom_char (referencePattern_of_noneStarts hnone)] at h
    obtain ⟨result, hresult⟩ := ih h
    exact ⟨_, .keep hnone hresult⟩
  | found before spelling after hfound ih =>
    rw [cutFrom_found hfound.reference.ne_nil (referencePattern_of_found hfound)] at h
    obtain ⟨path, hpath⟩ := Option.ne_none_iff_exists'.1 (h _ List.mem_cons_self)
    obtain ⟨result, hresult⟩ := ih fun ref href => h ref (List.mem_cons_of_mem _ href)
    obtain ⟨name, hname, rfl⟩ := id hfound.reference.spelled
    exact ⟨_, .replace hfound ((resolve?_eq_some_iff hname).1 hpath) hresult⟩

end Substituting

/-- A text without opening braces, all of whose references stand for something, is resolved and
rendered by substitution, and so by nothing else. Values are put in as they are, whatever tokens or
references there may be in them. -/
theorem substitutes_iff_eq_render {vars : List Variable} {s : String} (hbraces : '\x7b' ∉ s.toList)
    (hsupported : unsupported (keysOf vars) s = []) (values : Fields) (result : String) :
    Substitutes (keysOf vars) values none s.toList result.toList ↔
      result = render (resolved (keysOf vars) s) values := by
  rw [← String.toList_inj, toList_render, toList_resolved]
  constructor
  · exact fun h => h.eq_rendered hbraces
  · intro h
    have hall : ∀ ref ∈ occurrences (cutFrom referencePattern 0 none s.toList),
        resolve? (keysOf vars) ref ≠ none := by
      intro ref href hnone
      have hnot := List.filter_eq_nil_iff.1 hsupported ref href
      rw [hnone] at hnot
      exact hnot rfl
    obtain ⟨chars, hchars⟩ := exists_substitutes values hall
    rwa [h, ← hchars.eq_rendered hbraces]

/-- A text with a reference to a contact's field and one to a custom variable. -/
def reminder : String := "Dear var-contact.first-name, «var-a-» is due."

/-- Values for the text, one of which holds a token and a reference. -/
def reminderValues : Fields :=
  ⟨[("contact.first-name", .text "\x7b\x7bcustom.deal\x7d\x7d var-a"),
    ("custom.deal", .text "5 €")]⟩

theorem substitutes_reminder :
    '\x7b' ∉ reminder.toList ∧ unsupported (keysOf (customNamed "Deal" "" "")) reminder = [] ∧
      Substitutes (keysOf (customNamed "Deal" "" "")) reminderValues none reminder.toList
        "Dear \x7b\x7bcustom.deal\x7d\x7d var-a, «5 €-» is due.".toList := by
  have hbraces : '\x7b' ∉ reminder.toList := by decide
  have hsupported : unsupported (keysOf (customNamed "Deal" "" "")) reminder = [] := by
    decide +kernel
  exact ⟨hbraces, hsupported, (substitutes_iff_eq_render hbraces hsupported _ _).2
    (by decide +kernel)⟩

end Template
end Casework
