/-!
# Lines of a text

A text whose lines are each ended by a line break is cut at the breaks. What is written with a break
behind it takes as many lines as it holds breaks itself, and one more; the first of them begins as the
text does, up to its first break.
-/

namespace NetnsWatch.Text

/-- The lines of a text, each ended by a line break. -/
def lines (text : List Char) : List (List Char) :=
  (text.splitOn '\n').dropLast

/-- A text with a line break behind it gives its own pieces, and the rest its lines. -/
theorem lines_append_break (text rest : List Char) :
    lines (text ++ '\n' :: rest) = text.splitOn '\n' ++ lines rest := by
  rw [lines, List.splitOn_append_cons_self,
    List.dropLast_append_of_ne_nil (List.splitOn_ne_nil _ _), lines]

/-- Texts that are written with a line break behind each give their pieces in turn. -/
theorem lines_flatMap {α : Type} (write : α → List Char) (items : List α) :
    lines (items.flatMap fun item => write item ++ ['\n']) =
      (items.map fun item => (write item).splitOn '\n').flatten := by
  induction items with
  | nil => rfl
  | cons item rest ih =>
    rw [List.flatMap_cons, List.append_assoc, List.singleton_append, lines_append_break, ih,
      List.map_cons, List.flatten_cons]

/-- A text has one piece more than line breaks. -/
theorem length_splitOn (text : List Char) :
    (text.splitOn '\n').length = text.count '\n' + 1 := by
  induction text with
  | nil => rfl
  | cons c rest ih =>
    rw [List.splitOn_cons_eq_if_modifyHead, List.count_cons]
    split <;> simp [ih]

/-- No piece holds a line break. -/
theorem not_mem_of_mem_splitOn {text line : List Char} (h : line ∈ text.splitOn '\n') :
    '\n' ∉ line := by
  induction text generalizing line with
  | nil =>
    rw [List.splitOn_nil, List.mem_singleton] at h
    rw [h]
    exact List.not_mem_nil
  | cons c rest ih =>
    rw [List.splitOn_cons_eq_if_modifyHead] at h
    obtain ⟨first, more, hpieces⟩ := List.exists_cons_of_ne_nil (List.splitOn_ne_nil '\n' rest)
    rw [hpieces] at h ih
    split at h
    · rcases List.mem_cons.mp h with rfl | hrest
      · exact List.not_mem_nil
      · exact ih hrest
    · rename_i hc
      rw [List.modifyHead_cons] at h
      rcases List.mem_cons.mp h with rfl | hmore
      · have hfirst := ih List.mem_cons_self
        exact List.not_mem_cons_of_ne_of_not_mem (fun hsame => hc (beq_iff_eq.mpr hsame.symm)) hfirst
      · exact ih (List.mem_cons_of_mem _ hmore)

/-- The first piece begins as the text does, up to its first line break. -/
theorem exists_head_splitOn {front : List Char} (h : '\n' ∉ front) (rest : List Char) :
    ∃ first, ((front ++ rest).splitOn '\n').head? = some first ∧ front <+: first := by
  induction front with
  | nil =>
    obtain ⟨first, more, hpieces⟩ := List.exists_cons_of_ne_nil (List.splitOn_ne_nil '\n' rest)
    exact ⟨first, by rw [List.nil_append, hpieces, List.head?_cons], List.nil_prefix⟩
  | cons c front ih =>
    have hc : ¬ (c == '\n') = true := fun hsame => h (beq_iff_eq.mp hsame ▸ List.mem_cons_self)
    obtain ⟨first, hfirst, hbegins⟩ := ih fun hmem => h (List.mem_cons_of_mem c hmem)
    refine ⟨c :: first, ?_, List.cons_prefix_cons.mpr ⟨rfl, hbegins⟩⟩
    rw [List.cons_append, List.splitOn_cons_eq_if_modifyHead, if_neg hc, List.head?_modifyHead,
      hfirst, Option.map_some]

end NetnsWatch.Text
