/-!
# Cutting a text at its fields

A text of several fields can be cut in one way only where the characters of a field cannot go on into
the next one: a number ends before the first character that is no digit, and a word before the first
occurrence of a character that it does not hold. The same cut can be made from the end of a text.
-/

namespace NetnsWatch.Text

/-- A text that does not begin with a character of a class: it is empty, or begins with another. -/
def Breaks (p : Char → Bool) (text : List Char) : Prop :=
  ∀ c ∈ text.head?, p c = false

section Cutting

variable {p : Char → Bool} {front front' back back' : List Char}

/-- An empty text begins with nothing. -/
theorem breaks_nil : Breaks p [] :=
  fun c hc => absurd hc (Option.not_mem_none c)

/-- A text breaks with a first character that is not of the class. -/
theorem breaks_cons {c : Char} {rest : List Char} (h : p c = false) : Breaks p (c :: rest) := by
  intro d hd
  rw [List.head?_cons, Option.mem_some_iff] at hd
  rw [← hd, h]

/-- A text whose first character is not of the class breaks, whatever follows it. -/
theorem breaks_append {label : List Char} (h : label.head?.map p = some false) (rest : List Char) :
    Breaks p (label ++ rest) := by
  cases label with
  | nil => cases h
  | cons c label => exact breaks_cons (Option.some.inj h)

/-- A text whose first character is not of the class breaks. -/
theorem breaks_of_head {text : List Char} (h : text.head?.map p = some false) : Breaks p text :=
  List.append_nil text ▸ breaks_append h []

/-- The characters of a class at the beginning of a text end where the text breaks. -/
theorem takeWhile_of_breaks (hfront : ∀ c ∈ front, p c = true) (hback : Breaks p back) :
    (front ++ back).takeWhile p = front := by
  rw [List.takeWhile_append_of_pos hfront]
  cases back with
  | nil => rw [List.takeWhile_nil, List.append_nil]
  | cons c rest =>
    have hc : p c = false := hback c rfl
    rw [List.takeWhile_cons_of_neg (by rw [hc]; exact Bool.false_ne_true), List.append_nil]

/-- A text is cut in one way into characters of a class and a rest that breaks with it. -/
theorem cut_front (hfront : ∀ c ∈ front, p c = true) (hfront' : ∀ c ∈ front', p c = true)
    (hback : Breaks p back) (hback' : Breaks p back') (h : front ++ back = front' ++ back') :
    front = front' ∧ back = back' := by
  have hsame : front = front' := by
    rw [← takeWhile_of_breaks hfront hback, h, takeWhile_of_breaks hfront' hback']
  rw [hsame] at h
  exact ⟨hsame, List.append_cancel_left h⟩

/-- From its end, too, a text is cut in one way. -/
theorem cut_back (hback : ∀ c ∈ back, p c = true) (hback' : ∀ c ∈ back', p c = true)
    (hfront : Breaks p front.reverse) (hfront' : Breaks p front'.reverse)
    (h : front ++ back = front' ++ back') : front = front' ∧ back = back' := by
  have hreversed : back.reverse ++ front.reverse = back'.reverse ++ front'.reverse := by
    rw [← List.reverse_append, h, List.reverse_append]
  obtain ⟨hlast, hfirst⟩ := cut_front (fun c hc => hback c (List.mem_reverse.mp hc))
    (fun c hc => hback' c (List.mem_reverse.mp hc)) hfront hfront' hreversed
  exact ⟨List.reverse_inj.mp hfirst, List.reverse_inj.mp hlast⟩

end Cutting

section Marks

variable {mark : Char} {front front' back back' : List Char}

/-- A text is cut in one way at the first occurrence of a character. -/
theorem cut_first (hfront : mark ∉ front) (hfront' : mark ∉ front')
    (h : front ++ mark :: back = front' ++ mark :: back') : front = front' ∧ back = back' := by
  have hother {text : List Char} (htext : mark ∉ text) : ∀ c ∈ text, (c != mark) = true :=
    fun c hc => bne_iff_ne.mpr fun hsame => htext (hsame ▸ hc)
  have hmark (text : List Char) : Breaks (· != mark) (mark :: text) := breaks_cons (bne_self_eq_false _)
  obtain ⟨hsame, hrest⟩ := cut_front (hother hfront) (hother hfront') (hmark back) (hmark back') h
  exact ⟨hsame, (List.cons.inj hrest).2⟩

/-- A text is cut in one way at the last occurrence of a character. -/
theorem cut_last (hback : mark ∉ back) (hback' : mark ∉ back')
    (h : front ++ mark :: back = front' ++ mark :: back') : front = front' ∧ back = back' := by
  have hreversed : back.reverse ++ mark :: front.reverse = back'.reverse ++ mark :: front'.reverse := by
    simpa using congrArg List.reverse h
  obtain ⟨hlast, hfirst⟩ := cut_first (fun hmem => hback (List.mem_reverse.mp hmem))
    (fun hmem => hback' (List.mem_reverse.mp hmem)) hreversed
  exact ⟨List.reverse_inj.mp hfirst, List.reverse_inj.mp hlast⟩

end Marks

section Numbers

/-- The digits of a number, most significant first. -/
def digits (n : Nat) : List Char :=
  Nat.toDigits 10 n

/-- A number is written with its digits. -/
theorem toList_toString (n : Nat) : (toString n).toList = digits n :=
  Nat.toList_repr

/-- A number is written with digits only. -/
theorem isDigit_of_mem_digits {n : Nat} {c : Char} (h : c ∈ digits n) : c.isDigit = true :=
  Nat.isDigit_of_mem_toDigits (by decide) (Nat.le_refl 10) h

/-- A character that is no digit does not occur in a number. -/
theorem not_mem_digits {c : Char} (hc : c.isDigit = false) (n : Nat) : c ∉ digits n :=
  fun hmem => absurd (isDigit_of_mem_digits hmem) (by rw [hc]; exact Bool.false_ne_true)

/-- Different numbers have different digits. -/
theorem digits_inj {m n : Nat} (h : digits m = digits n) : m = n := by
  have hread := congrArg (Nat.ofDigitChars 10 · 0) h
  simpa only [digits, Nat.ofDigitChars_ten_toDigits] using hread

/-- A number in front of something else is cut off in one way. -/
theorem cut_number {m n : Nat} {rest rest' : List Char} (hrest : Breaks Char.isDigit rest)
    (hrest' : Breaks Char.isDigit rest') (h : digits m ++ rest = digits n ++ rest') :
    m = n ∧ rest = rest' := by
  obtain ⟨hdigits, hsame⟩ := cut_front (fun _ => isDigit_of_mem_digits)
    (fun _ => isDigit_of_mem_digits) hrest hrest' h
  exact ⟨digits_inj hdigits, hsame⟩

/-- A number with its sign, if it is negative. -/
def signed (x : Int) : List Char :=
  if 0 ≤ x then digits x.toNat else '-' :: digits (-x).toNat

/-- A number that may be negative is written with its sign and its digits. -/
theorem toList_toString_int (x : Int) : (toString x).toList = signed x := by
  rw [Int.toString_eq_repr, Int.repr_eq_if, signed]
  split
  · exact Nat.toList_repr
  · rw [String.toList_append, Nat.toList_repr]
    rfl

/-- A number that may be negative is written in digits, behind a sign. -/
theorem isDigit_or_eq_of_mem_signed {x : Int} {c : Char} (h : c ∈ signed x) :
    c.isDigit = true ∨ c = '-' := by
  unfold signed at h
  split at h
  · exact .inl (isDigit_of_mem_digits h)
  · rcases List.mem_cons.mp h with hsign | hdigit
    · exact .inr hsign
    · exact .inl (isDigit_of_mem_digits hdigit)

/-- Different numbers have different digits or signs. -/
theorem signed_inj {x y : Int} (h : signed x = signed y) : x = y := by
  have hsign (n : Nat) (rest : List Char) : digits n ≠ '-' :: rest := fun hsame =>
    not_mem_digits (c := '-') rfl n (hsame ▸ List.mem_cons_self)
  unfold signed at h
  split at h <;> split at h
  · have := digits_inj h
    omega
  · exact absurd h (hsign _ _)
  · exact absurd h.symm (hsign _ _)
  · have := digits_inj (List.cons.inj h).2
    omega

end Numbers

end NetnsWatch.Text
