import Mathlib.Data.List.Infix
import TypedClient.Proofs.Text
import TypedClient.Text.Comment
/-!
# Comments end where they end

A comment is over at its first end mark. In the documentation comment for a
text that is the one it is written with (`comment_eq`): the text is cut into
lines, no end mark is left in a line (`unended_of_mem_commentLines`), and none
comes about between lines.
-/

namespace TypedClient

namespace Text

variable {c : Char} {s t line : List Char} {text : String} {depth : Nat}

/-! ## Lines -/

/-- The parts of a text are parts of it. -/
theorem infix_of_mem_splitOn {sep : Char} (h : t ∈ splitOn sep s) : t <:+: s := by
  obtain ⟨part, parts, hparts⟩ := exists_splitOn_eq_cons sep s
  obtain ⟨rfl, -⟩ := splitOn_eq_iff.1 hparts
  rw [hparts] at h
  rcases List.mem_cons.1 h with rfl | hmem
  · exact (List.prefix_append ..).isInfix
  · have hpart : t <:+: parts.flatMap (sep :: ·) :=
      (List.suffix_cons sep t).isInfix.trans
        (List.infix_of_mem_flatten (List.mem_map_of_mem (f := (sep :: ·)) hmem))
    exact hpart.trans (List.suffix_append ..).isInfix

theorem front_dropCarriageReturn (s : List Char) : dropCarriageReturn s <+: s := by
  fun_induction dropCarriageReturn s with
  | case1 => exact List.prefix_rfl
  | case2 => exact List.nil_prefix
  | case3 c rest _ ih => exact (List.prefix_cons_inj c).2 ih

theorem front_trimEnd (s : List Char) : trimEnd s <+: s := by
  induction s with
  | nil => exact List.prefix_rfl
  | cons c rest ih =>
    rw [trimEnd, List.foldr_cons]
    split
    · exact List.nil_prefix
    · exact (List.prefix_cons_inj c).2 ih

/-- A line is the front of a part between line feeds. -/
theorem exists_part_of_mem_lines (h : t ∈ lines s) : ∃ part ∈ splitOn '\n' s, t <+: part := by
  rw [lines] at h
  rcases List.mem_append.1 h with hmem | hmem
  · obtain ⟨part, hpart, rfl⟩ := List.mem_map.1 hmem
    exact ⟨part, List.mem_of_mem_dropLast hpart, front_dropCarriageReturn part⟩
  · have hlast := List.mem_filter.1 hmem |>.1
    exact ⟨t, List.mem_of_getLast? (Option.mem_toList.1 hlast), List.prefix_rfl⟩

/-- **The lines of a text are parts of it.** -/
theorem infix_of_mem_lines (h : t ∈ lines s) : t <:+: s := by
  obtain ⟨part, hpart, hfront⟩ := exists_part_of_mem_lines h
  exact hfront.isInfix.trans (infix_of_mem_splitOn hpart)

/-- And have no line feeds. -/
theorem feed_not_mem_of_mem_lines (h : t ∈ lines s) : '\n' ∉ t := by
  obtain ⟨part, hpart, hfront⟩ := exists_part_of_mem_lines h
  exact fun hfeed => not_mem_of_mem_splitOn hpart (hfront.subset hfeed)

/-! ## End marks -/

/-- No end mark of a comment is in the text. -/
def Unended (s : List Char) : Prop := ¬ ['*', '/'] <:+: s

theorem Unended.of_part (h : Unended s) (hpart : t <:+: s) : Unended t :=
  fun hmark => h (hmark.trans hpart)

theorem unended_nil : Unended [] := by
  intro hmark
  cases List.infix_nil.1 hmark

theorem unended_cons_iff :
    Unended (c :: s) ↔ ¬ (c = '*' ∧ s.head? = some '/') ∧ Unended s := by
  have hfront : ['*', '/'] <+: c :: s ↔ c = '*' ∧ s.head? = some '/' := by
    rw [List.cons_prefix_cons]
    cases s with
    | nil => simp
    | cons d rest => simp [eq_comm]
  rw [Unended, List.infix_cons_iff, not_or, hfront, Unended]

/-- Between two texts with any other character no end mark comes about. -/
theorem Unended.append_cons (hs : Unended s) (hstar : c ≠ '*') (hslash : c ≠ '/')
    (ht : Unended t) : Unended (s ++ c :: t) := by
  induction s with
  | nil => exact unended_cons_iff.2 ⟨fun h => hstar h.1, ht⟩
  | cons d rest ih =>
    obtain ⟨hfront, hrest⟩ := unended_cons_iff.1 hs
    refine unended_cons_iff.2 ⟨?_, ih hrest⟩
    rintro ⟨rfl, hhead⟩
    cases rest with
    | nil => exact hslash (Option.some.inj hhead)
    | cons e rest => exact hfront ⟨rfl, hhead⟩

/-- A text without a slash has no end mark. -/
theorem unended_of_not_mem (h : '/' ∉ s) : Unended s :=
  fun hmark => h (hmark.subset (by simp))

theorem head?_partEndMarks (s : List Char) : (partEndMarks s).head? = s.head? := by
  fun_cases partEndMarks s <;> rfl

/-- **No end mark is left** where a backslash parts them. -/
theorem unended_partEndMarks (s : List Char) : Unended (partEndMarks s) := by
  fun_induction partEndMarks s with
  | case1 => exact unended_nil
  | case2 rest ih =>
    simp only [unended_cons_iff]
    exact ⟨by simp, by simp, by simp, ih⟩
  | case3 c rest hno ih =>
    refine unended_cons_iff.2 ⟨?_, ih⟩
    rintro ⟨rfl, hhead⟩
    rw [head?_partEndMarks] at hhead
    obtain ⟨rest, rfl⟩ := List.head?_eq_some_iff.1 hhead
    exact hno _ rfl rfl

/-- Nor in the lines of a comment. -/
theorem unended_of_mem_commentLines (h : line ∈ commentLines text) : Unended line := by
  rw [commentLines] at h
  obtain ⟨part, hpart, rfl⟩ := List.mem_map.1 h
  exact (unended_partEndMarks _).of_part
    ((front_trimEnd part).isInfix.trans (infix_of_mem_lines hpart))

/-! ## Comments -/

theorem toList_indentation : (indentation depth).toList = List.replicate (2 * depth) ' ' :=
  String.toList_ofList

/-- White space in front does not bring about an end mark. -/
theorem Unended.indented (h : Unended s) : Unended ((indentation depth).toList ++ s) := by
  rw [toList_indentation]
  induction 2 * depth with
  | zero => exact h
  | succ k ih => exact unended_cons_iff.2 ⟨by simp, ih⟩

/-- Nor does a line of a block, in front of another text. -/
theorem Unended.commentLine_append (hline : Unended line) (h : Unended s) :
    Unended ((commentLine depth line).toList ++ s) := by
  have hfeed : ∀ {u}, Unended u → Unended (u ++ '\n' :: s) :=
    fun hu => hu.append_cons (by decide) (by decide) h
  rw [commentLine]
  split
  · simp only [String.toList_append, List.append_assoc]
    exact (hfeed (u := [' ', '*']) (unended_of_not_mem (by decide))).indented
  · simp only [String.toList_append, List.append_assoc, String.toList_ofList]
    have hrest : Unended (line ++ '\n' :: s) := hfeed hline
    exact (unended_cons_iff.2 ⟨by simp, unended_cons_iff.2 ⟨by simp,
      unended_cons_iff.2 ⟨by simp, hrest⟩⟩⟩ :
        Unended (' ' :: '*' :: ' ' :: (line ++ '\n' :: s))).indented

theorem unended_commentLines {lines : List (List Char)} (hlines : ∀ l ∈ lines, Unended l)
    (h : Unended s) : Unended ((concat (lines.map (commentLine depth))).toList ++ s) := by
  induction lines with
  | nil => exact h
  | cons l rest ih =>
    obtain ⟨hl, hrest⟩ := List.forall_mem_cons.1 hlines
    rw [List.map_cons, concat, String.toList_append, List.append_assoc]
    exact hl.commentLine_append (ih hrest)

/-- A comment that is written has marks at both ends, and from the asterisk of the
first one on no end mark before the last. -/
theorem exists_toList_comment (depth : Nat) (h : commentLines text ≠ []) : ∃ inner,
    (comment text depth).toList =
      (indentation depth).toList ++ '/' :: '*' :: '*' :: (inner ++ ['*', '/', '\n']) ∧
    Unended ('*' :: inner) := by
  have hlines : ∀ l ∈ commentLines text, Unended l := fun l => unended_of_mem_commentLines
  rw [comment]
  split
  · rename_i hnil
    exact absurd hnil h
  · rename_i line hline
    rw [hline] at hlines
    refine ⟨' ' :: (line ++ [' ']), ?_, ?_⟩
    · simp
    · have hline := (hlines line List.mem_cons_self).append_cons (c := ' ') (by decide) (by decide)
        unended_nil
      exact unended_cons_iff.2 ⟨by simp, unended_cons_iff.2 ⟨by simp, hline⟩⟩
  · rename_i line more _ hmore
    rw [hmore] at hlines
    refine ⟨'\n' :: ((concat ((line :: more).map (commentLine depth))).toList ++
      ((indentation depth).toList ++ [' '])), ?_, ?_⟩
    · simp
    · have hend : Unended ((indentation depth).toList ++ [' ']) :=
        (unended_of_not_mem (by decide)).indented
      exact unended_cons_iff.2 ⟨by simp, unended_cons_iff.2 ⟨by simp,
        unended_commentLines hlines hend⟩⟩

/-- **A comment ends where it ends.** It is nothing, or white space, a start
mark, a text without end marks, an end mark and a line feed. -/
theorem comment_eq (text : String) (depth : Nat) : comment text depth = "" ∨
    ∃ inner, (comment text depth).toList =
        (indentation depth).toList ++ '/' :: '*' :: (inner ++ ['*', '/', '\n']) ∧
      Unended inner := by
  by_cases h : commentLines text = []
  · rw [comment, h]
    exact .inl rfl
  · obtain ⟨inner, hinner, hunended⟩ := exists_toList_comment depth h
    exact .inr ⟨'*' :: inner, hinner, hunended⟩

end Text

end TypedClient
