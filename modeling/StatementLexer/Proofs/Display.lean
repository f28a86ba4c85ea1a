import StatementLexer.Proofs.Placement

namespace StatementLexer

/-!
# Tokens as they are shown

A token is shown with its text as it is, between its kind and its place.  The
text may imitate both of them, but it cannot hide them.  The name of a kind
holds no colon, so it is what comes before the first one.  A number holds no
space, so the column is what comes after the last one, and once it and its name
are taken away the same is true of the line.  What is left between the kind and
the place is the text.
-/

/--
What stands before the last separator and what stands after it are determined.
-/
theorem append_last_separator_inj
    {α : Type}
    [DecidableEq α]
    {separator : α}
    {first other rest later : List α}
    (absent : separator ∉ rest)
    (absentInLater : separator ∉ later) :
    first ++ separator :: rest = other ++ separator :: later ↔
      first = other ∧ rest = later := by
  have reversed :
      rest.reverse ++ separator :: first.reverse =
          later.reverse ++ separator :: other.reverse ↔
        rest.reverse = later.reverse ∧ first.reverse = other.reverse :=
    append_separator_inj (by simpa using absent) (by simpa using absentInLater)
  rw [← List.reverse_inj]
  simpa [and_comm] using reversed

/-- A number is written without spaces. -/
theorem space_not_mem_repr (number : Nat) :
    ' ' ∉ (Nat.repr number).toList := by
  intro member
  rw [Nat.toList_repr] at member
  have digit := Nat.isDigit_of_mem_toDigits (by decide) (by decide) member
  exact absurd digit (by decide)

/-- A number can be read back from its digits. -/
theorem toList_repr_inj
    {first second : Nat} :
    (Nat.repr first).toList = (Nat.repr second).toList ↔ first = second := by
  constructor
  · intro same
    have sameValue :=
      congrArg (fun digits => Nat.ofDigitChars 10 digits 0) same
    simpa [Nat.repr_eq_ofList_toDigits, Nat.ofDigitChars_ten_toDigits] using
      sameValue
  · rintro rfl
    rfl

/-- A number that follows a space can be told from what stands before it. -/
theorem append_space_repr_inj
    {first second : List Char}
    {firstNumber secondNumber : Nat} :
    first ++ ' ' :: (Nat.repr firstNumber).toList =
        second ++ ' ' :: (Nat.repr secondNumber).toList ↔
      first = second ∧ firstNumber = secondNumber := by
  rw [append_last_separator_inj (space_not_mem_repr firstNumber)
    (space_not_mem_repr secondNumber), toList_repr_inj]

/-- A place can be told from whatever text it is shown behind. -/
theorem Location.append_display_inj
    {first second : List Char}
    {firstLocation secondLocation : Location} :
    first ++ firstLocation.display.toList =
        second ++ secondLocation.display.toList ↔
      first = second ∧
        firstLocation.line = secondLocation.line ∧
        firstLocation.column = secondLocation.column := by
  have shape (before : List Char) (location : Location) :
      before ++ location.display.toList =
        before ++ "Line:".toList ++ ' ' :: (Nat.repr location.line).toList ++
            ", Col:".toList ++
          ' ' :: (Nat.repr location.column).toList := by
    simp [display]
  rw [shape, shape, append_space_repr_inj, List.append_left_inj,
    append_space_repr_inj, List.append_left_inj, and_assoc]

namespace Kind

/-- The name of a kind holds no colon. -/
theorem colon_not_mem_title (kind : Kind) :
    ':' ∉ kind.title.toList := by
  cases kind <;> decide

theorem title_inj
    {first second : Kind} :
    first.title = second.title ↔ first = second := by
  cases first <;> cases second <;> simp [title]

/-- A kind can be told from whatever text follows its name and a colon. -/
theorem title_append_colon_inj
    {first second : Kind}
    {rest later : List Char} :
    first.title.toList ++ ':' :: rest = second.title.toList ++ ':' :: later ↔
      first = second ∧ rest = later := by
  rw [append_separator_inj first.colon_not_mem_title second.colon_not_mem_title,
    String.toList_inj, title_inj]

end Kind

namespace Token

/--
Two tokens are shown alike only if their kinds, their texts, their lines and
their columns are the same, whatever these texts look like.  The place can be
split off from the right and the kind from the left.
-/
theorem display_eq_iff
    (first second : Token) :
    first.display = second.display ↔
      first.kind = second.kind ∧
        first.text = second.text ∧
        first.location.line = second.location.line ∧
        first.location.column = second.location.column := by
  have shape (token : Token) :
      token.display.toList =
        "[(".toList ++
              (token.kind.title.toList ++ ':' :: (' ' :: token.text.toList)) ++
            "), ".toList ++
          token.location.display.toList ++
        "]".toList := by
    simp [display]
  rw [← String.toList_inj, shape, shape, List.append_left_inj,
    Location.append_display_inj, List.append_left_inj, List.append_right_inj,
    Kind.title_append_colon_inj, List.cons_inj_right, String.toList_inj,
    and_assoc]

end Token

end StatementLexer
