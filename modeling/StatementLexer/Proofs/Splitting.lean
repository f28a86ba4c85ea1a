import StatementLexer.Proofs.Concatenation

namespace StatementLexer

/-!
# The tokens of a line without a scan

Scanning finds the tokens of a line one after the other and keeps a column that
it raises at every space.  This module says what the tokens are without a scan.
A line can be cut into words in one way only, and its tokens are those words,
each at the column that the words before it give.  The space is the only
character that plays a part in this.
-/

/--
A line is cut into words if none of them holds a space and one space stands
between two.
-/
structure CutInto
    (line : List Char)
    (words : List (List Char)) : Prop where
  nonempty : words ≠ []
  spaceless : ∀ word ∈ words, ' ' ∉ word
  joined : [' '].intercalate words = line

/--
The segments between its spaces are the only words that a line can be cut into.
-/
theorem cutInto_iff
    {line : List Char}
    {words : List (List Char)} :
    CutInto line words ↔ words = List.splitOn ' ' line := by
  constructor
  · rintro ⟨nonempty, spaceless, rfl⟩
    rw [List.splitOn_intercalate ' ' spaceless nonempty]
  · rintro rfl
    exact ⟨List.splitOn_ne_nil ' ' line, fun _ => not_mem_of_mem_splitOn,
      List.intercalate_splitOn ' '⟩

/-- The tokens of a line are those of its completed words and of the last. -/
theorem lineTokens_of_splitOn
    {line : List Char}
    {completed : List (List Char)}
    {last : List Char}
    (shape : List.splitOn ' ' line = completed ++ [last])
    (options : Options)
    (lineNumber : Nat) :
    lineTokens options lineNumber (String.ofList line) =
      (wordTokens { line := lineNumber, column := 1 } completed).filter
          options.admits ++
        lastToken options last
          (Location.past { line := lineNumber, column := 1 } completed) := by
  rw [lineTokens_eq, String.toList_ofList, shape,
    segmentTokens_append (List.cons_ne_nil last []), segmentTokens]

/--
The tokens of a line are the words that it is cut into.  A line can be cut in
one way only, and as often as it has spaces.  Every word but the last is a token
unless it is empty and the options drop it; the last one is a token if it is not
empty and the options keep it.  A word stands at the column after the words
before it, each counted with its space.
-/
theorem lineTokens_eq_wordsOfCut
    (options : Options)
    (lineNumber : Nat)
    (line : String) :
    ∃ completed last,
      (∀ words, CutInto line.toList words ↔ words = completed ++ [last]) ∧
        completed.length = line.toList.count ' ' ∧
        lineTokens options lineNumber line =
          (completed.mapIdx fun index word =>
              Token.ofWord (String.ofList word)
                { line := lineNumber
                  column :=
                    1 + ((completed.take index).map fun earlier =>
                      earlier.length + 1).sum }).filter
              (fun token => options.dropsEmptyWords → token.text ≠ "") ++
            if options.keepsLastWord ∧ last ≠ [] then
              [Token.ofWord (String.ofList last)
                { line := lineNumber
                  column :=
                    1 + (completed.map fun earlier => earlier.length + 1).sum }]
            else
              [] := by
  obtain ⟨completed, last, shape⟩ :=
    exists_splitOn_eq_append_last ' ' line.toList
  refine ⟨completed, last, ?_, ?_, ?_⟩
  · intro words
    rw [cutInto_iff, shape]
  · have length := length_splitOn ' ' line.toList
    rw [shape, List.length_append, List.length_singleton] at length
    exact Nat.add_right_cancel length
  · have tokens := lineTokens_of_splitOn shape options lineNumber
    rw [String.ofList_toList] at tokens
    rw [tokens]
    congr 1
    simp [lastToken, Location.past]

/-!
## The end of a line
-/

/-- A line ends in a word if it is not empty and does not end in a space. -/
def EndsInWord (line : List Char) : Prop :=
  line ≠ [] ∧ line.getLast? ≠ some ' '
  deriving Decidable

/-- A line without spaces is one word, unless it is empty. -/
theorem endsInWord_of_spaceless
    {line : List Char}
    (absent : ' ' ∉ line) :
    EndsInWord line ↔ line ≠ [] := by
  refine ⟨And.left, fun nonempty => ⟨nonempty, ?_⟩⟩
  intro space
  exact absent (List.mem_of_getLast? space)

/-- How a line ends can be seen behind any of its spaces. -/
theorem endsInWord_append_space
    (earlier rest : List Char) :
    EndsInWord (earlier ++ ' ' :: rest) ↔ EndsInWord rest := by
  cases rest with
  | nil =>
      simp [EndsInWord]
  | cons character later =>
      simp [EndsInWord, List.getLast?_append]

/-- A line ends in a word if the last of its segments is not empty. -/
theorem endsInWord_iff_of_splitOn
    {line last : List Char}
    {completed : List (List Char)}
    (shape : List.splitOn ' ' line = completed ++ [last]) :
    EndsInWord line ↔ last ≠ [] := by
  induction line using segmentInduction ' ' generalizing completed with
  | last line absent =>
      rw [List.splitOn_eq_singleton absent] at shape
      obtain ⟨rfl, rfl⟩ : completed = [] ∧ last = line := by
        simpa [List.singleton_eq_append_iff] using shape
      exact endsInWord_of_spaceless absent
  | completed first rest absent inductionHypothesis =>
      rw [List.splitOn_append_cons_self_of_not_mem absent] at shape
      cases completed with
      | nil =>
          exact (List.splitOn_ne_nil ' ' rest (List.cons.inj shape).2).elim
      | cons head later =>
          rw [endsInWord_append_space]
          exact inductionHypothesis (List.cons.inj shape).2

/--
A line that ends in a word loses its last token if the options no longer keep
that word, and any other line loses none.
-/
theorem lineTokens_withoutLastWord
    (dropsEmptyWords : Bool)
    (lineNumber : Nat)
    (line : List Char) :
    lineTokens { keepsLastWord := false, dropsEmptyWords } lineNumber
        (String.ofList line) =
      if EndsInWord line then
        (lineTokens { keepsLastWord := true, dropsEmptyWords } lineNumber
          (String.ofList line)).dropLast
      else
        lineTokens { keepsLastWord := true, dropsEmptyWords } lineNumber
          (String.ofList line) := by
  obtain ⟨completed, last, shape⟩ := exists_splitOn_eq_append_last ' ' line
  have sameAdmitted :
      Options.admits { keepsLastWord := false, dropsEmptyWords } =
        Options.admits { keepsLastWord := true, dropsEmptyWords } := rfl
  simp only [lineTokens_of_splitOn shape, endsInWord_iff_of_splitOn shape,
    sameAdmitted]
  by_cases nothing : last = []
  · simp [lastToken, nothing]
  · simp [lastToken, nothing]

end StatementLexer
