import Mathlib.Data.List.Basic
import StatementLexer.Proofs.Remainder
import StatementLexer.Proofs.Words
import StatementLexer.Source

namespace StatementLexer

/-!
# Where tokens stand

A token says at which line and column its word begins.  This module says which
words stand where in the lines of a source, without scanning them, and shows
that the tokens of a report are exactly these words, in the order of their
places.  So a place is that of at most one token, and no word is missed.
-/

/--
One place comes before another on an earlier line or further left on the same
line.
-/
def Location.Before
    (first second : Location) : Prop :=
  first.line < second.line ∨
    first.line = second.line ∧ first.column < second.column

/--
A word of a line, with what stands before and after it.

It goes back to the beginning of the line or to a space, and on to a space, or
to the end of the line if the options keep such a word.
-/
structure Placed
    (options : Options)
    (line before word after : List Char) : Prop where
  whole : line = before ++ word ++ after
  spaceless : ' ' ∉ word
  begins : before = [] ∨ before.getLast? = some ' '
  ends :
    after.head? = some ' ' ∨
      options.keepsLastWord = true ∧ word ≠ [] ∧ after = []
  kept : options.dropsEmptyWords = true → word ≠ []

/-- A word stands at a place of the given lines. -/
def WordAt
    (options : Options)
    (lines : List String)
    (location : Location)
    (word : List Char) : Prop :=
  ∃ index line before after,
    lines[index]? = some line ∧ location.line = index + 1 ∧
      Placed options line.toList before word after ∧
      location.column = before.length + 1

/--
What stands before the first separator and what stands after it are determined.
-/
theorem append_separator_inj
    {α : Type}
    [DecidableEq α]
    {separator : α}
    {first other rest later : List α}
    (absent : separator ∉ first)
    (absentInOther : separator ∉ other) :
    first ++ separator :: rest = other ++ separator :: later ↔
      first = other ∧ rest = later := by
  constructor
  · intro same
    have cuts := congrArg (List.splitOn separator) same
    rw [List.splitOn_append_cons_self_of_not_mem absent,
      List.splitOn_append_cons_self_of_not_mem absentInOther] at cuts
    obtain ⟨rfl, _⟩ := List.cons.inj cuts
    simpa using same
  · rintro ⟨rfl, rfl⟩
    rfl

/--
The only word of a line without spaces is the line, if the options keep it.
-/
theorem placed_of_spaceless
    {options : Options}
    {line before word after : List Char}
    (absent : ' ' ∉ line) :
    Placed options line before word after ↔
      before = [] ∧ word = line ∧ after = [] ∧
        options.keepsLastWord = true ∧ line ≠ [] := by
  constructor
  · rintro ⟨rfl, spaceless, begins, ends, kept⟩
    simp only [List.mem_append, not_or] at absent
    have beginsLine : before = [] := by
      rcases begins with empty | afterSpace
      · exact empty
      · exact (absent.1.1 (List.mem_of_getLast? afterSpace)).elim
    rcases ends with beforeSpace | ⟨keeps, nonempty, rfl⟩
    · exact (absent.2 (List.mem_of_head? beforeSpace)).elim
    · subst beginsLine
      simpa using ⟨keeps, nonempty⟩
  · rintro ⟨rfl, rfl, rfl, keeps, nonempty⟩
    exact ⟨by simp, absent, Or.inl rfl, Or.inr ⟨keeps, nonempty, rfl⟩,
      fun _ => nonempty⟩

/--
A word of a line with a space is completed by the first one or stands behind it.
A word that begins the line is spaceless and ends at a space, which must be the
first one.  Any other word has that space before it.
-/
theorem placed_of_completed
    {options : Options}
    {first rest before word after : List Char}
    (absent : ' ' ∉ first) :
    Placed options (first ++ ' ' :: rest) before word after ↔
      (before = [] ∧ word = first ∧ after = ' ' :: rest ∧
        (options.dropsEmptyWords = true → first ≠ [])) ∨
        ∃ between,
          before = first ++ ' ' :: between ∧
            Placed options rest between word after := by
  constructor
  · rintro ⟨whole, spaceless, begins, ends, kept⟩
    rcases begins with rfl | afterSpace
    · left
      rcases ends with beforeSpace | ⟨_, _, rfl⟩
      · obtain ⟨later, rfl⟩ := List.head?_eq_some_iff.mp beforeSpace
        obtain ⟨rfl, rfl⟩ :=
          (append_separator_inj absent spaceless).mp (by simpa using whole)
        exact ⟨rfl, rfl, rfl, kept⟩
      · simp only [List.nil_append, List.append_nil] at whole
        exact (spaceless (by simp [← whole])).elim
    · right
      obtain ⟨start, between, rfl, absentInStart⟩ :=
        List.eq_append_cons_of_mem (List.mem_of_getLast? afterSpace)
      obtain ⟨rfl, rfl⟩ :=
        (append_separator_inj absent absentInStart).mp (by simpa using whole)
      refine ⟨between, rfl, by simp, spaceless, ?_, ends, kept⟩
      cases between with
      | nil =>
          exact Or.inl rfl
      | cons character others =>
          right
          simpa using afterSpace
  · rintro (⟨rfl, rfl, rfl, kept⟩ | ⟨between, rfl, placed⟩)
    · exact ⟨by simp, absent, Or.inl rfl, Or.inl rfl, kept⟩
    · obtain ⟨rfl, spaceless, begins, ends, kept⟩ := placed
      refine ⟨by simp, spaceless, Or.inr ?_, ends, kept⟩
      rcases begins with rfl | afterSpace
      · simp
      · simp [List.getLast?_append, List.getLast?_cons, afterSpace]

/-- A completed word is a token unless it is empty and dropped. -/
theorem mem_completedToken_iff
    {options : Options}
    {word : List Char}
    {location : Location}
    {token : Token} :
    token ∈ completedToken options word location ↔
      (options.dropsEmptyWords = true → word ≠ []) ∧
        token = Token.ofWord (String.ofList word) location := by
  unfold completedToken
  split
  next drops =>
    simp_all
  next keeps =>
    simp_all

/-- A last word is a token if it is kept and not empty. -/
theorem mem_lastToken_iff
    {options : Options}
    {word : List Char}
    {location : Location}
    {token : Token} :
    token ∈ lastToken options word location ↔
      options.keepsLastWord = true ∧ word ≠ [] ∧
        token = Token.ofWord (String.ofList word) location := by
  unfold lastToken
  split
  next keeps =>
    simp_all
  next drops =>
    simp_all

/-- The tokens of a line are its words, each at its place. -/
theorem mem_segmentTokens_iff
    {options : Options}
    {line : List Char}
    {token : Token}
    (start : Location) :
    token ∈ segmentTokens options start (List.splitOn ' ' line) ↔
      ∃ before word after,
        Placed options line before word after ∧
          token =
            Token.ofWord (String.ofList word)
              { start with column := start.column + before.length } := by
  induction line using segmentInduction ' ' generalizing start with
  | last line absent =>
      simp only [List.splitOn_eq_singleton absent, segmentTokens,
        mem_lastToken_iff, placed_of_spaceless absent]
      constructor
      · rintro ⟨keeps, nonempty, rfl⟩
        exact ⟨[], line, [], ⟨rfl, rfl, rfl, keeps, nonempty⟩, rfl⟩
      · rintro ⟨_, _, _, ⟨rfl, rfl, rfl, keeps, nonempty⟩, rfl⟩
        exact ⟨keeps, nonempty, rfl⟩
  | completed first rest absent inductionHypothesis =>
      rw [List.splitOn_append_cons_self_of_not_mem absent,
        segmentTokens_cons (List.splitOn_ne_nil ' ' rest), List.mem_append,
        mem_completedToken_iff, inductionHypothesis]
      simp only [placed_of_completed absent]
      constructor
      · rintro (⟨kept, rfl⟩ | ⟨between, word, after, placed, rfl⟩)
        · exact ⟨[], first, ' ' :: rest, Or.inl ⟨rfl, rfl, rfl, kept⟩, rfl⟩
        · refine ⟨first ++ ' ' :: between, word, after,
            Or.inr ⟨between, rfl, placed⟩, ?_⟩
          simp only [List.length_append, List.length_cons]
          congr 2
          omega
      · rintro ⟨_, word, after,
          ⟨rfl, rfl, rfl, kept⟩ | ⟨between, rfl, placed⟩, rfl⟩
        · exact Or.inl ⟨kept, rfl⟩
        · refine Or.inr ⟨between, word, after, placed, ?_⟩
          simp only [List.length_append, List.length_cons]
          congr 2
          omega

/-- The tokens of a line are the words that stand in it. -/
theorem mem_lineTokens_iff
    {options : Options}
    {lineNumber : Nat}
    {line : String}
    {token : Token} :
    token ∈ lineTokens options lineNumber line ↔
      token.kind = Kind.ofWord token.text ∧ token.location.line = lineNumber ∧
        ∃ before after,
          Placed options line.toList before token.text.toList after ∧
            token.location.column = before.length + 1 := by
  rw [lineTokens_eq, mem_segmentTokens_iff]
  constructor
  · rintro ⟨before, word, after, placed, rfl⟩
    refine ⟨rfl, rfl, before, after, ?_, Nat.add_comm 1 before.length⟩
    simpa [Token.ofWord] using placed
  · rintro ⟨kind, rfl, before, after, placed, column⟩
    refine ⟨before, token.text.toList, after, placed, ?_⟩
    obtain ⟨tokenKind, text, line, tokenColumn⟩ := token
    simp only at kind column
    simp [Token.ofWord, kind, column, Nat.add_comm]

/-- The tokens of numbered lines are the words that stand in them. -/
theorem mem_numberedTokens_iff
    {options : Options}
    {linesRead : Nat}
    {lines : List String}
    {token : Token} :
    token ∈ numberedTokens options linesRead lines ↔
      ∃ index line,
        lines[index]? = some line ∧
          token ∈ lineTokens options (linesRead + index + 1) line := by
  induction lines generalizing linesRead with
  | nil =>
      simp [numberedTokens]
  | cons first rest inductionHypothesis =>
      rw [numberedTokens, List.mem_append, inductionHypothesis]
      constructor
      · rintro (inFirst | ⟨index, line, found, member⟩)
        · exact ⟨0, first, rfl, inFirst⟩
        · refine ⟨index + 1, line, found, ?_⟩
          rwa [← Nat.add_assoc, Nat.add_right_comm linesRead index 1]
      · rintro ⟨index, line, found, member⟩
        cases index with
        | zero =>
            simp only [List.getElem?_cons_zero, Option.some.injEq] at found
            subst found
            exact Or.inl member
        | succ index =>
            right
            refine ⟨index, line, found, ?_⟩
            rwa [Nat.add_right_comm linesRead 1 index,
              Nat.add_assoc linesRead index 1]

/--
Of the tokens of numbered lines, those with the number of a line are the tokens
of that line.
-/
theorem filter_line_numberedTokens
    {lines : List String}
    {line : String}
    {index : Nat}
    (found : lines[index]? = some line)
    (options : Options)
    (linesRead : Nat) :
    (numberedTokens options linesRead lines).filter
        (fun token => token.location.line = linesRead + index + 1) =
      lineTokens options (linesRead + index + 1) line := by
  induction lines generalizing linesRead index with
  | nil =>
      simp at found
  | cons first rest inductionHypothesis =>
      rw [numberedTokens, List.filter_append]
      cases index with
      | zero =>
          simp only [List.getElem?_cons_zero, Option.some.injEq] at found
          subst found
          have allOwn :
              (lineTokens options (linesRead + 1) first).filter
                  (fun token => token.location.line = linesRead + 0 + 1) =
                lineTokens options (linesRead + 1) first := by
            rw [List.filter_eq_self]
            intro token member
            exact decide_eq_true (mem_lineTokens_iff.mp member).2.1
          have noneLater :
              (numberedTokens options (linesRead + 1) rest).filter
                  (fun token => token.location.line = linesRead + 0 + 1) =
                [] := by
            rw [List.filter_eq_nil_iff]
            intro token member same
            obtain ⟨later, _, _, inLine⟩ := mem_numberedTokens_iff.mp member
            have number := (mem_lineTokens_iff.mp inLine).2.1
            have wanted := of_decide_eq_true same
            omega
          rw [allOwn, noneLater, List.append_nil, Nat.add_zero]
      | succ index =>
          have noneOwn :
              (lineTokens options (linesRead + 1) first).filter
                  (fun token =>
                    token.location.line = linesRead + (index + 1) + 1) =
                [] := by
            rw [List.filter_eq_nil_iff]
            intro token member same
            have number := (mem_lineTokens_iff.mp member).2.1
            have wanted := of_decide_eq_true same
            omega
          rw [noneOwn, List.nil_append, ← Nat.add_assoc linesRead,
            Nat.add_right_comm linesRead index 1]
          exact inductionHypothesis found (linesRead + 1)

/-- The tokens of lines are the words that stand in them. -/
theorem mem_numberedTokens_zero_iff
    {options : Options}
    {lines : List String}
    {token : Token} :
    token ∈ numberedTokens options 0 lines ↔
      token.kind = Kind.ofWord token.text ∧
        WordAt options lines token.location token.text.toList := by
  rw [mem_numberedTokens_iff]
  simp only [mem_lineTokens_iff, WordAt, Nat.zero_add]
  constructor
  · rintro ⟨index, line, found, kind, number, before, after, placed, column⟩
    exact ⟨kind, index, line, before, after, found, number, placed, column⟩
  · rintro ⟨kind, index, line, before, after, found, number, placed, column⟩
    exact ⟨index, line, found, kind, number, before, after, placed, column⟩

/-- The words of a line come in the order of their columns. -/
theorem pairwise_segmentTokens
    (options : Options)
    (start : Location)
    (line : List Char) :
    (segmentTokens options start (List.splitOn ' ' line)).Pairwise
      fun earlier later => earlier.location.Before later.location := by
  induction line using segmentInduction ' ' generalizing start with
  | last line absent =>
      rw [List.splitOn_eq_singleton absent, segmentTokens, lastToken]
      split
      · exact List.pairwise_singleton _ _
      · exact List.Pairwise.nil
  | completed first rest absent inductionHypothesis =>
      rw [List.splitOn_append_cons_self_of_not_mem absent,
        segmentTokens_cons (List.splitOn_ne_nil ' ' rest), List.pairwise_append]
      refine ⟨?_, inductionHypothesis _, ?_⟩
      · rw [completedToken]
        split
        · exact List.Pairwise.nil
        · exact List.pairwise_singleton _ _
      · intro earlier inFirst later inRest
        obtain ⟨_, rfl⟩ := mem_completedToken_iff.mp inFirst
        obtain ⟨before, word, after, _, rfl⟩ :=
          (mem_segmentTokens_iff _).mp inRest
        refine Or.inr ⟨rfl, ?_⟩
        simp only [Token.ofWord]
        omega

/-- The words of lines come in the order of their lines and columns. -/
theorem pairwise_numberedTokens
    (options : Options)
    (linesRead : Nat)
    (lines : List String) :
    (numberedTokens options linesRead lines).Pairwise
      fun earlier later => earlier.location.Before later.location := by
  induction lines generalizing linesRead with
  | nil =>
      exact List.Pairwise.nil
  | cons line rest inductionHypothesis =>
      rw [numberedTokens, List.pairwise_append]
      refine ⟨?_, inductionHypothesis _, ?_⟩
      · rw [lineTokens_eq]
        exact pairwise_segmentTokens options _ line.toList
      · intro earlier inLine later inRest
        obtain ⟨_, earlierLine, _⟩ := mem_lineTokens_iff.mp inLine
        obtain ⟨index, laterText, _, member⟩ := mem_numberedTokens_iff.mp inRest
        obtain ⟨_, laterLine, _⟩ := mem_lineTokens_iff.mp member
        left
        omega

theorem Location.not_before_self (location : Location) :
    ¬ location.Before location := by
  simp [Location.Before]

/--
Among tokens in the order of their places, only one has the place of a given
one.
-/
theorem filter_location_eq_singleton
    {tokens : List Token}
    {token : Token}
    (ordered :
      tokens.Pairwise fun earlier later =>
        earlier.location.Before later.location)
    (member : token ∈ tokens) :
    tokens.filter (fun other => other.location = token.location) = [token] := by
  induction tokens with
  | nil =>
      simp at member
  | cons first rest inductionHypothesis =>
      obtain ⟨firstBefore, restOrdered⟩ := List.pairwise_cons.mp ordered
      rcases List.mem_cons.mp member with rfl | inRest
      · have noneElse :
            rest.filter (fun other => other.location = token.location) =
              [] := by
          rw [List.filter_eq_nil_iff]
          intro other otherMember same
          have before := firstBefore other otherMember
          rw [of_decide_eq_true same] at before
          exact token.location.not_before_self before
        simp [noneElse]
      · have differs : first.location ≠ token.location := by
          intro same
          have before := firstBefore token inRest
          rw [same] at before
          exact token.location.not_before_self before
        simp [differs, inductionHypothesis restOrdered inRest]

/--
The tokens of a source that can be read to its end are the words that stand in
its lines, each at its place and with the kind of its spelling, in the order of
their places.  Every place where a word stands is that of exactly one token.
-/
theorem tokens_eq_wordsInOrder
    (options : Options)
    (file : String)
    (source : Source)
    (good : Feed.firstFault? source.feed.upcoming = none) :
    let lines := Feed.goodLines source.feed.upcoming
    ∃ report,
      Report.ofFeed options file source.feed = .ok report ∧
        report.lines = lines.length ∧
        report.tokens.Pairwise
          (fun earlier later => earlier.location.Before later.location) ∧
        (∀ token,
          token ∈ report.tokens ↔
            token.kind = Kind.ofWord token.text ∧
              WordAt options lines token.location token.text.toList) ∧
        (∀ token ∈ report.tokens,
          1 ≤ token.location.line ∧ token.location.line ≤ report.lines) ∧
        ∀ location word,
          WordAt options lines location word ↔
            report.tokens.filter (fun token => token.location = location) =
              [Token.ofWord (String.ofList word) location] := by
  intro lines
  have ordered := pairwise_numberedTokens options 0 lines
  refine ⟨_, by rw [Report.ofFeed_eq, good], rfl, ordered,
    fun token => mem_numberedTokens_zero_iff, ?_, ?_⟩
  · intro token member
    obtain ⟨_, index, line, _, _, found, number, _⟩ :=
      mem_numberedTokens_zero_iff.mp member
    have within : index < lines.length :=
      (List.getElem?_eq_some_iff.mp found).1
    rw [number]
    exact ⟨Nat.le_add_left 1 index, within⟩
  · intro location word
    constructor
    · intro stands
      have member :
          Token.ofWord (String.ofList word) location ∈
            numberedTokens options 0 lines := by
        rw [mem_numberedTokens_zero_iff]
        exact ⟨rfl, by simpa [Token.ofWord] using stands⟩
      exact filter_location_eq_singleton ordered member
    · intro onlyOne
      have member :
          Token.ofWord (String.ofList word) location ∈
            numberedTokens options 0 lines := by
        apply List.mem_of_mem_filter
        rw [onlyOne]
        exact List.mem_singleton_self _
      have stands := (mem_numberedTokens_zero_iff.mp member).2
      simpa [Token.ofWord] using stands

/--
In a source whose first line is `é  +`, the operator at its end is the token at
column 4.
-/
theorem tokens_eq_wordsInOrder_lastOperator :
    let source : Source :=
      { feed := { upcoming := [.item "é  +", .item "", .nothing, .item "x "] } }
    Feed.firstFault? source.feed.upcoming = none ∧
      ∃ report,
        Report.ofFeed { keepsLastWord := true } "memory" source.feed =
          .ok report ∧
          report.lines = 2 ∧
          report.tokens.filter (fun token => token.location = ⟨1, 4⟩) =
            [Token.ofWord "+" ⟨1, 4⟩] := by
  intro source
  have good : Feed.firstFault? source.feed.upcoming = none := rfl
  obtain ⟨report, read, lines, _, _, _, places⟩ :=
    tokens_eq_wordsInOrder { keepsLastWord := true } "memory" source good
  have stands :
      WordAt { keepsLastWord := true } (Feed.goodLines source.feed.upcoming)
        ⟨1, 4⟩ ['+'] := by
    refine ⟨0, "é  +", ['é', ' ', ' '], [], rfl, rfl, ⟨?_, ?_, ?_, ?_, ?_⟩, rfl⟩
    · decide
    · decide
    · exact Or.inr rfl
    · exact Or.inr ⟨rfl, by decide, rfl⟩
    · intro drops
      exact absurd drops (by decide)
  exact ⟨good, report, read, lines, (places _ _).mp stands⟩

end StatementLexer
