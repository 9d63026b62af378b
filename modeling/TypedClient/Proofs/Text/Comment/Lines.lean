import TypedClient.Proofs.Text.Comment
import TypedClient.Proofs.Text.Joined
/-!
# The form of a comment

No text breaks out of its comment (`comment_closed`). A comment is nothing exactly
for blank text, and else it opens at the front and its only end mark is the one at
the end. Its lines are those of the trimmed text in which each end mark is parted: a
single line stands between the marks, and of several each has a line of the comment
for itself. As no line has a line feed, cutting the comment at its line feeds gives
these lines back.
-/

namespace TypedClient

namespace Text

variable {s front behind line : List Char} {ls : List (List Char)}
variable {text : String} {depth : Nat}

/-! ## Blank text -/

theorem partEndMarks_eq_nil_iff : partEndMarks s = [] ↔ s = [] := by
  rw [← List.head?_eq_none_iff, head?_partEndMarks, List.head?_eq_none_iff]

/-- Any text has lines, if there is anything in it. -/
theorem lines_eq_nil_iff : lines s = [] ↔ s = [] := by
  constructor
  · intro h
    obtain ⟨part, parts, hparts⟩ := exists_splitOn_eq_cons '\n' s
    obtain ⟨hs, -⟩ := splitOn_eq_iff.1 hparts
    rw [lines, hparts] at h
    cases parts with
    | nil => simpa [hs] using h
    | cons next others => simp at h
  · rintro rfl
    rfl

theorem commentLines_eq_nil_iff :
    commentLines text = [] ↔ ∀ c ∈ text.toList, isBlank c = true := by
  rw [commentLines, List.map_eq_nil_iff, lines_eq_nil_iff, partEndMarks_eq_nil_iff,
    trim_eq_nil_iff]

/-- **Blank text has no comment**, and any other text has one. -/
theorem comment_eq_empty_iff :
    comment text depth = "" ↔ ∀ c ∈ text.toList, isBlank c = true := by
  rw [← commentLines_eq_nil_iff]
  constructor
  · intro h
    by_contra hlines
    obtain ⟨inner, hinner, -⟩ := exists_toList_comment depth hlines
    simp [h] at hinner
  · intro h
    rw [comment, h]

/-! ## The end mark -/

/-- **Parting end marks** is replacing each of them. -/
theorem partEndMarks_eq_replace (s : List Char) :
    partEndMarks s = replace ['*', '/'] ['*', '\\', '/'] s := by
  fun_induction partEndMarks s with
  | case1 => rw [replace_nil]
  | case2 rest ih => rw [replace_pair_self, ih]; rfl
  | case3 c rest hno ih =>
    rw [ih]
    by_cases hc : c = '*'
    · subst hc
      refine (replace_pair_of_head? fun hhead => ?_).symm
      obtain ⟨more, rfl⟩ := List.head?_eq_some_iff.1 hhead
      exact hno more rfl rfl
    · refine (replace_cons_of_not fun hfront => hc ?_).symm
      simpa [eq_comm] using (List.cons_prefix_cons.1 (List.isPrefixOf_iff_prefix.1 hfront)).1

/-- Behind a text without end marks the only one is the one put there. -/
theorem Unended.eq_of_append (hs : Unended s)
    (h : s ++ ['*', '/', '\n'] = front ++ '*' :: '/' :: behind) : behind = ['\n'] := by
  induction s generalizing front with
  | nil =>
    rcases front with _ | ⟨c, _ | ⟨d, more⟩⟩
    · simpa [eq_comm] using h
    · simp at h
    · have hlength := congrArg List.length h
      simp at hlength
      omega
  | cons d rest ih =>
    obtain ⟨hfirst, hrest⟩ := unended_cons_iff.1 hs
    cases front with
    | nil =>
      -- the first two characters would be an end mark of the text
      obtain ⟨hstar, hslash⟩ := List.cons.inj h
      cases rest with
      | nil => simp at hslash
      | cons e more => exact absurd ⟨hstar, congrArg some (List.cons.inj hslash).1⟩ hfirst
    | cons e front => exact ih hrest (List.cons.inj h).2

/-- A comment with one end mark: its start mark follows the white space in front,
and wherever an end mark stands in it, only the line feed follows. -/
structure Closed (depth : Nat) (s : List Char) : Prop where
  opens : (indentation depth).toList ++ ['/', '*', '*'] <+: s
  ends : ['*', '/', '\n'] <:+ s
  once : ∀ front behind, s = front ++ '*' :: '/' :: behind → behind = ['\n']

theorem closed_comment (h : commentLines text ≠ []) :
    Closed depth (comment text depth).toList := by
  obtain ⟨inner, hinner, hunended⟩ := exists_toList_comment depth h
  have hbody : (comment text depth).toList =
      ((indentation depth).toList ++ '/' :: '*' :: '*' :: inner) ++ ['*', '/', '\n'] := by
    rw [hinner, List.append_assoc]
    rfl
  have hmarks : Unended ('/' :: '*' :: '*' :: inner) :=
    unended_cons_iff.2 ⟨by simp, unended_cons_iff.2 ⟨by simp, hunended⟩⟩
  refine ⟨⟨inner ++ ['*', '/', '\n'], by rw [hinner, List.append_assoc]; rfl⟩,
    ⟨_, hbody.symm⟩, fun front behind hsplit => ?_⟩
  rw [hbody] at hsplit
  exact hmarks.indented.eq_of_append hsplit

/-! ## Lines -/

/-- The line of a block for one line of the text: that line without the blanks at
its end, or nothing behind the asterisk if it has only blanks. -/
def blockLine (depth : Nat) (line : List Char) : List Char :=
  if line.all isBlank then (indentation depth).toList ++ [' ', '*']
  else (indentation depth).toList ++ [' ', '*', ' '] ++ line.rdropWhile isBlank

theorem toList_commentLine_trimEnd (depth : Nat) (line : List Char) :
    (commentLine depth (trimEnd line)).toList = blockLine depth line ++ ['\n'] := by
  have hblank : (trimEnd line).isEmpty = line.all isBlank := by
    rw [Bool.eq_iff_iff, List.isEmpty_iff, trimEnd_eq_nil_iff, List.all_eq_true]
  rw [commentLine, blockLine, hblank]
  split
  · simp
  · simp [trimEnd_eq_rdropWhile]

/-- The lines of a block, each behind the line feed of the one before. -/
theorem toList_concat_commentLines (depth : Nat) (ls : List (List Char)) :
    '\n' :: (concat ((ls.map trimEnd).map (commentLine depth))).toList =
      (ls.map (blockLine depth)).flatMap ('\n' :: ·) ++ ['\n'] := by
  induction ls with
  | nil => rfl
  | cons line rest ih =>
    simp only [List.map_cons, List.flatMap_cons, concat, String.toList_append,
      toList_commentLine_trimEnd, List.append_assoc, List.cons_append, List.nil_append]
    rw [ih]

theorem feed_not_mem_indentation (depth : Nat) : '\n' ∉ (indentation depth).toList := by
  rw [toList_indentation]
  exact fun hfeed => absurd (List.eq_of_mem_replicate hfeed) (by decide)

theorem feed_not_mem_blockLine (h : '\n' ∉ line) : '\n' ∉ blockLine depth line := by
  have hkept : '\n' ∉ line.rdropWhile isBlank :=
    fun hfeed => h ((List.rdropWhile_prefix isBlank line).subset hfeed)
  rw [blockLine]
  split
  · simp [feed_not_mem_indentation]
  · simp [feed_not_mem_indentation, hkept]

theorem toList_comment_of_length (h : 1 < (commentLines text).length) :
    (comment text depth).toList = ((indentation depth).toList ++ ['/', '*', '*']) ++
      ('\n' :: (concat ((commentLines text).map (commentLine depth))).toList) ++
        ((indentation depth).toList ++ [' ', '*', '/', '\n']) := by
  rw [comment]
  split
  · rename_i hnil
    simp [hnil] at h
  · rename_i line hline
    simp [hline] at h
  · rename_i hmore
    rw [hmore]
    simp

/-- **The lines of a block.** Cut at its line feeds, a comment of several lines is
the start mark, the lines of the text, and the end mark with nothing behind it. -/
theorem splitOn_comment (hlines : commentLines text = ls.map trimEnd)
    (hfeeds : ∀ line ∈ ls, '\n' ∉ line) (hmore : 1 < ls.length) :
    splitOn '\n' (comment text depth).toList =
      ((indentation depth).toList ++ ['/', '*', '*']) ::
        (ls.map (blockLine depth) ++ [(indentation depth).toList ++ [' ', '*', '/'], []]) := by
  have hpad := feed_not_mem_indentation depth
  have hlength : 1 < (commentLines text).length := by rw [hlines, List.length_map]; exact hmore
  refine splitOn_eq_iff.2 ⟨?_, by simp [hpad], List.forall_mem_append.2 ⟨?_, ?_⟩⟩
  · rw [toList_comment_of_length hlength, hlines, toList_concat_commentLines]
    simp
  · exact List.forall_mem_map.2 fun line hline => feed_not_mem_blockLine (hfeeds line hline)
  · simp [hpad]

theorem toList_comment_of_single (h : commentLines text = [line]) :
    (comment text depth).toList =
      (indentation depth).toList ++ ['/', '*', '*', ' '] ++ line ++ [' ', '*', '/', '\n'] := by
  rw [comment, h]
  simp

/-- **No text breaks out of its comment.** Blank text has none. The comment for any
other text starts, behind the white space of its depth, with a start mark, and it
ends with an end mark and a line feed; no end mark stands anywhere else. The lines
that it is made of are those of the trimmed text with a backslash in each end mark. A
single one stands between the marks. Several stand between the line of the start mark
and that of the end mark, in their order and each in a line for itself, which has
white space and an asterisk and, unless the line is blank, the line behind a space
without the blanks at its end. -/
theorem comment_closed (text : String) (depth : Nat) :
    let indent := (indentation depth).toList
    let written := (comment text depth).toList
    let parted := lines (replace ['*', '/'] ['*', '\\', '/'] (trim text.toList))
    (comment text depth = "" ↔ ∀ c ∈ text.toList, isBlank c = true) ∧
    (comment text depth = "" ∨ Closed depth written ∧
      ((∃ line, parted = [line] ∧
          written =
            indent ++ ['/', '*', '*', ' '] ++ line.rdropWhile isBlank ++ [' ', '*', '/', '\n']) ∨
        1 < parted.length ∧
          splitOn '\n' written = (indent ++ ['/', '*', '*']) ::
            (parted.map (blockLine depth) ++ [indent ++ [' ', '*', '/'], []]))) := by
  intro indent written parted
  have hlines : commentLines text = parted.map trimEnd := by
    rw [commentLines, partEndMarks_eq_replace]
  refine ⟨comment_eq_empty_iff, ?_⟩
  by_cases hnil : commentLines text = []
  · exact .inl (comment_eq_empty_iff.2 (commentLines_eq_nil_iff.1 hnil))
  refine .inr ⟨closed_comment hnil, ?_⟩
  by_cases hmore : 1 < parted.length
  · exact .inr ⟨hmore, splitOn_comment hlines (fun _ => feed_not_mem_of_mem_lines) hmore⟩
  · have hsome : parted ≠ [] := fun h => hnil (by rw [hlines, h, List.map_nil])
    have hone : parted.length = 1 := by
      have hpos := List.length_pos_iff.2 hsome
      omega
    obtain ⟨line, hline⟩ := List.length_eq_one_iff.1 hone
    rw [hline, List.map_singleton, trimEnd_eq_rdropWhile] at hlines
    exact .inl ⟨line, hline, toList_comment_of_single hlines⟩

example : comment "First\n\nSecond */ end" 1 =
    "  /**\n   * First\n   *\n   * Second *\\/ end\n   */\n" := by
  decide

end Text

end TypedClient
