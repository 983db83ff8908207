/-
  Casework.Template.Segment

  Cutting a text at the occurrences of a pattern. Occurrences are found from the left and do not
  overlap; every other character stands for itself. A pattern says what occurs at the start of the
  remaining characters, given the character before them, and how far the occurrence reaches.
-/

namespace Casework.Template

/-- What occurs at the start of some characters, and how many characters it takes after the first
one, so that an occurrence is never empty. -/
structure Occurrence where
  value : String
  more : Nat
  deriving DecidableEq, Repr

/-- A pattern: the occurrence at the start of the characters, given the character before them. -/
abbrev Pattern := Option Char → List Char → Option Occurrence

/-- A stretch of a text. -/
inductive Segment where
  /-- A character that stands for itself. -/
  | char (c : Char)
  /-- An occurrence of the pattern, with the characters that spell it. -/
  | found (value : String) (spelling : List Char)
  deriving DecidableEq, Repr

/-- The characters of a stretch. -/
def Segment.chars : Segment → List Char
  | .char c => [c]
  | .found _ spelling => spelling

/-- The stretches of the characters after the first `skip` ones, `before` standing before them. -/
def cutFrom (pattern : Pattern) : Nat → Option Char → List Char → List Segment
  | _, _, [] => []
  | skip + 1, _, c :: rest => cutFrom pattern skip (some c) rest
  | 0, before, c :: rest =>
    match pattern before (c :: rest) with
    | none => .char c :: cutFrom pattern 0 (some c) rest
    | some ⟨value, more⟩ =>
      .found value (c :: rest.take more) :: cutFrom pattern more (some c) rest

/-- The stretches of a text. -/
def cut (pattern : Pattern) (s : String) : List Segment := cutFrom pattern 0 none s.toList

/-- The values of the occurrences among stretches. -/
def occurrences (segments : List Segment) : List String :=
  segments.filterMap fun
    | .char _ => none
    | .found value _ => some value

/-- The text in which each occurrence is replaced. -/
def fill (replacement : String → List Char → String) (segments : List Segment) : String :=
  String.ofList <| segments.flatMap fun
    | .char c => [c]
    | .found value spelling => (replacement value spelling).toList

/-! ## Nothing is lost by cutting -/

theorem chars_cutFrom (pattern : Pattern) (skip : Nat) (before : Option Char) (cs : List Char) :
    (cutFrom pattern skip before cs).flatMap Segment.chars = cs.drop skip := by
  induction cs generalizing skip before with
  | nil => simp [cutFrom]
  | cons c rest ih =>
    cases skip with
    | succ skip => simp [cutFrom, ih]
    | zero =>
      unfold cutFrom
      split
      · simp [Segment.chars, ih]
      · simp [Segment.chars, ih, List.take_append_drop]

end Casework.Template
