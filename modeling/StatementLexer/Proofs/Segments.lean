namespace StatementLexer

/-!
# Cutting a list at a separator

Lines are cut at newlines, words at spaces and paths at slashes, each time by
the library's `List.splitOn`.  What it gives are the segments between the
separators.  This module adds the ways in which the others follow them: item by
item, segment by segment, and from the end of a list.
-/

section Segments

variable {α : Type} [DecidableEq α]

/-- A separator at the beginning leaves an empty segment before it. -/
theorem splitOn_cons_self
    (separator : α)
    (rest : List α) :
    List.splitOn separator (separator :: rest) =
      [] :: List.splitOn separator rest :=
  List.splitOn_append_cons_self_of_not_mem List.not_mem_nil rest

/-- Any other item belongs to the first segment of what follows it. -/
theorem splitOn_cons_of_ne
    {separator item : α}
    {rest first : List α}
    {others : List (List α)}
    (differs : item ≠ separator)
    (shape : List.splitOn separator rest = first :: others) :
    List.splitOn separator (item :: rest) = (item :: first) :: others := by
  have same : (item == separator) = false := beq_false_of_ne differs
  rw [List.splitOn_cons_eq_if_modifyHead, same, shape]
  rfl

/-- Items without a separator belong to the first segment of what follows. -/
theorem splitOn_append
    {separator : α}
    {earlier later first : List α}
    {others : List (List α)}
    (shape : List.splitOn separator later = first :: others)
    (absent : separator ∉ earlier) :
    List.splitOn separator (earlier ++ later) =
      (earlier ++ first) :: others := by
  induction earlier with
  | nil =>
      exact shape
  | cons item rest inductionHypothesis =>
      rw [List.mem_cons, not_or] at absent
      exact splitOn_cons_of_ne (Ne.symm absent.1)
        (inductionHypothesis absent.2)

/-- Induction along the segments of a list, from the last one to the first. -/
theorem segmentInduction
    (separator : α)
    {motive : List α → Prop}
    (last : ∀ items, separator ∉ items → motive items)
    (completed :
      ∀ first rest, separator ∉ first → motive rest →
        motive (first ++ separator :: rest))
    (items : List α) :
    motive items := by
  by_cases present : separator ∈ items
  · obtain ⟨first, rest, shape, absent⟩ := List.eq_append_cons_of_mem present
    rw [shape]
    exact completed first rest absent
      (segmentInduction separator last completed rest)
  · exact last items present
termination_by items.length
decreasing_by
  rw [shape, List.length_append, List.length_cons]
  omega

/-- No segment holds a separator. -/
theorem not_mem_of_mem_splitOn
    {separator : α}
    {items segment : List α}
    (member : segment ∈ List.splitOn separator items) :
    separator ∉ segment := by
  induction items using segmentInduction separator with
  | last items absent =>
      rw [List.splitOn_eq_singleton absent, List.mem_singleton] at member
      rwa [member]
  | completed first rest absent inductionHypothesis =>
      rw [List.splitOn_append_cons_self_of_not_mem absent] at member
      rcases List.mem_cons.mp member with rfl | inRest
      · exact absent
      · exact inductionHypothesis inRest

/-- There is one segment more than there are separators. -/
theorem length_splitOn
    (separator : α)
    (items : List α) :
    (List.splitOn separator items).length = items.count separator + 1 := by
  induction items using segmentInduction separator with
  | last items absent =>
      simp [List.splitOn_eq_singleton absent,
        List.count_eq_zero_of_not_mem absent]
  | completed first rest absent inductionHypothesis =>
      simp [List.splitOn_append_cons_self_of_not_mem absent,
        inductionHypothesis, List.count_eq_zero_of_not_mem absent]

/-- There is a last segment. -/
theorem exists_splitOn_eq_append_last
    (separator : α)
    (items : List α) :
    ∃ earlier last, List.splitOn separator items = earlier ++ [last] := by
  rcases List.eq_nil_or_concat (List.splitOn separator items) with
    none | ⟨earlier, last, shape⟩
  · exact (List.splitOn_ne_nil separator items none).elim
  · exact ⟨earlier, last, by rw [shape, List.concat_eq_append]⟩

/-- What is added to a list goes on with its last segment. -/
theorem splitOn_append_last
    {separator : α}
    {items more last first : List α}
    {earlier others : List (List α)}
    (before : List.splitOn separator items = earlier ++ [last])
    (after : List.splitOn separator more = first :: others) :
    List.splitOn separator (items ++ more) =
      earlier ++ (last ++ first) :: others := by
  induction items using segmentInduction separator generalizing earlier with
  | last items absent =>
      rw [List.splitOn_eq_singleton absent] at before
      obtain ⟨rfl, rfl⟩ : earlier = [] ∧ last = items := by
        simpa [List.singleton_eq_append_iff] using before
      exact splitOn_append after absent
  | completed piece rest absent inductionHypothesis =>
      rw [List.splitOn_append_cons_self_of_not_mem absent] at before
      cases earlier with
      | nil =>
          exact (List.splitOn_ne_nil separator rest
            (List.cons.inj before).2).elim
      | cons head later =>
          obtain ⟨rfl, restShape⟩ := List.cons.inj before
          rw [List.append_assoc, List.cons_append,
            List.splitOn_append_cons_self_of_not_mem absent,
            inductionHypothesis restShape, List.cons_append]

/-- Pieces that a separator follows are cut apart again, and from the last. -/
theorem splitOn_flatMap_separator
    {separator : α}
    {pieces : List (List α)}
    {last : List α}
    (absent : ∀ piece ∈ pieces, separator ∉ piece)
    (absentInLast : separator ∉ last) :
    List.splitOn separator
        (pieces.flatMap (fun piece => piece ++ [separator]) ++ last) =
      pieces ++ [last] := by
  induction pieces with
  | nil =>
      exact List.splitOn_eq_singleton absentInLast
  | cons piece rest inductionHypothesis =>
      have absentInRest : ∀ other ∈ rest, separator ∉ other := by
        intro other member
        exact absent other (List.mem_cons_of_mem piece member)
      have completed :=
        List.splitOn_append_cons_self_of_not_mem (absent piece (by simp))
          (rest.flatMap (fun piece => piece ++ [separator]) ++ last)
      rw [inductionHypothesis absentInRest] at completed
      simpa using completed

end Segments

end StatementLexer
