import NetnsWatch.Time
import NetnsWatch.Proofs.Text.Cut
import Mathlib.Algebra.GroupWithZero.Nat

/-!
# Durations are written without loss

A duration is written in one of four units, with as many decimal places as the unit has digits below
it. No unit begins with a digit or a point, so the unit can be read off the text; the zeros that are
dropped at the end of the fraction are known from its width. So different durations have different
texts.
-/

namespace NetnsWatch.Duration

open Text

/-- A unit: its nanoseconds, the decimal places below it, and its name. -/
structure Scale where
  step : Nat
  places : Nat
  name : String
  deriving DecidableEq

/-- The unit in which a duration is written. -/
def scale (d : Duration) : Scale :=
  if 1000000000 ≤ d then ⟨1000000000, 9, "s"⟩
  else if 1000000 ≤ d then ⟨1000000, 6, "ms"⟩
  else if 1000 ≤ d then ⟨1000, 3, "µs"⟩
  else ⟨1, 0, "ns"⟩

/-- The number in front of the unit. -/
def mantissa (step places : Nat) (d : Duration) : List Char :=
  let fraction := dropTrailingZeros (lastDigits places (d % step))
  digits (d / step) ++ ((if fraction.isEmpty then [] else ['.']) ++ fraction)

/-- The text of a duration is a number and its unit. -/
theorem toList_text (d : Duration) :
    d.text.toList = mantissa d.scale.step d.scale.places d ++ d.scale.name.toList := by
  have hscaled (step places : Nat) (unit : String) : (scaledText step places unit d).toList =
      mantissa step places d ++ unit.toList := by
    simp only [scaledText, mantissa, String.toList_append, toList_toString, String.toList_ofList,
      List.append_assoc]
    split <;> rfl
  unfold text scale
  split
  · exact hscaled _ _ _
  split
  · exact hscaled _ _ _
  split
  · exact hscaled _ _ _
  · rw [String.toList_append, toList_toString, mantissa, Nat.div_one, lastDigits, dropTrailingZeros]
    simp

/-- The four units. -/
def scales : List Scale :=
  [⟨1000000000, 9, "s"⟩, ⟨1000000, 6, "ms"⟩, ⟨1000, 3, "µs"⟩, ⟨1, 0, "ns"⟩]

/-- Every duration is written in one of the four units. -/
theorem scale_mem (d : Duration) : d.scale ∈ scales := by
  unfold scale
  repeat' split
  all_goals decide

/-- The unit is known by its name. -/
theorem scale_eq_of_name {d e : Duration} (h : d.scale.name = e.scale.name) : d.scale = e.scale := by
  have hnames : ∀ s ∈ scales, ∀ t ∈ scales, s.name = t.name → s = t := by decide
  exact hnames _ d.scale_mem _ e.scale_mem h

/-- A unit has as many decimal places as digits below it. -/
theorem step_scale (d : Duration) : d.scale.step = 10 ^ d.scale.places := by
  have hsteps : ∀ s ∈ scales, s.step = 10 ^ s.places := by decide
  exact hsteps _ d.scale_mem

/-- Whether a character can stand in the number in front of a unit. -/
def numeric (c : Char) : Bool :=
  c.isDigit || c == '.'

/-- A unit does not begin like a number. -/
theorem breaks_name (d : Duration) : Breaks numeric d.scale.name.toList := by
  unfold scale
  repeat' split
  all_goals exact breaks_cons rfl

/-- The last digits of a number are as many as were asked for. -/
theorem length_lastDigits (places n : Nat) : (lastDigits places n).length = places := by
  induction places generalizing n with
  | zero => rfl
  | succ places ih => rw [lastDigits, List.length_append, ih, List.length_singleton]

/-- The last digits of a number are digits. -/
theorem isDigit_of_mem_lastDigits {places n : Nat} {c : Char} (h : c ∈ lastDigits places n) :
    c.isDigit = true := by
  induction places generalizing n with
  | zero => exact absurd h List.not_mem_nil
  | succ places ih =>
    rcases List.mem_append.mp h with hfront | hlast
    · exact ih hfront
    · rw [List.mem_singleton.mp hlast, Nat.isDigit_digitChar, decide_eq_true_iff]
      exact Nat.mod_lt n (by decide)

/-- The last digits tell what a number leaves when it is divided by their power of ten. -/
theorem mod_eq_of_lastDigits {places m n : Nat} (h : lastDigits places m = lastDigits places n) :
    m % 10 ^ places = n % 10 ^ places := by
  induction places generalizing m n with
  | zero => rw [Nat.pow_zero, Nat.mod_one, Nat.mod_one]
  | succ places ih =>
    obtain ⟨hfront, hlast⟩ := List.append_inj' h rfl
    have hchar : Nat.digitChar (m % 10) = Nat.digitChar (n % 10) := (List.cons.inj hlast).1
    have hdigit : m % 10 = n % 10 := by
      have hvalue := congrArg (fun c => c.toNat) hchar
      simp only [Nat.toNat_digitChar_of_lt_ten (Nat.mod_lt _ (by decide : 10 > 0))] at hvalue
      omega
    have hrest := ih hfront
    rw [Nat.pow_succ', Nat.mod_mul, Nat.mod_mul, hdigit, hrest]

/-- What is dropped at the end are zeros. -/
theorem dropTrailingZeros_append (l : List Char) : dropTrailingZeros l ++
    List.replicate (l.length - (dropTrailingZeros l).length) '0' = l := by
  induction l with
  | nil => rfl
  | cons digit rest ih =>
    rw [dropTrailingZeros]
    split
    · rename_i hnone
      rw [hnone, List.nil_append] at ih
      split
      · rename_i hzero
        rw [hzero, List.nil_append, List.length_cons, List.length_nil, Nat.sub_zero,
          List.replicate_succ]
        exact congrArg _ ih
      · rw [List.length_cons, List.length_singleton, Nat.add_sub_cancel, List.singleton_append]
        exact congrArg _ ih
    · rw [List.length_cons, List.length_cons, Nat.add_sub_add_right, List.cons_append, ih]

/-- Texts of one width can differ only in front of the zeros at their end. -/
theorem dropTrailingZeros_inj {l l' : List Char} (hlength : l.length = l'.length)
    (h : dropTrailingZeros l = dropTrailingZeros l') : l = l' := by
  rw [← dropTrailingZeros_append l, ← dropTrailingZeros_append l', h, hlength]

/-- A fraction has digits only. -/
theorem isDigit_of_mem_fraction {places n : Nat} {c : Char}
    (h : c ∈ dropTrailingZeros (lastDigits places n)) : c.isDigit = true := by
  have hmem : c ∈ lastDigits places n := by
    rw [← dropTrailingZeros_append (lastDigits places n)]
    exact List.mem_append_left _ h
  exact isDigit_of_mem_lastDigits hmem

/-- Digits and a point stand in front of the unit. -/
theorem numeric_of_mem_mantissa {step places : Nat} {d : Duration} {c : Char}
    (h : c ∈ mantissa step places d) : numeric c = true := by
  have hdigit {c : Char} (hc : c.isDigit = true) : numeric c = true := by rw [numeric, hc]; rfl
  rcases List.mem_append.mp h with hwhole | hfraction
  · exact hdigit (isDigit_of_mem_digits hwhole)
  · rcases List.mem_append.mp hfraction with hpoint | hplaces
    · split at hpoint
      · exact absurd hpoint List.not_mem_nil
      · rw [List.mem_singleton.mp hpoint]
        rfl
    · exact hdigit (isDigit_of_mem_fraction hplaces)

/-- A number in a unit tells the duration, if it has a place for every digit below the unit. -/
theorem mantissa_inj {step places : Nat} (hstep : step = 10 ^ places) {d e : Duration}
    (h : mantissa step places d = mantissa step places e) : d = e := by
  have hpoint (fraction : List Char) :
      Breaks Char.isDigit ((if fraction.isEmpty then [] else ['.']) ++ fraction) := by
    cases fraction with
    | nil => exact breaks_nil
    | cons c rest => exact breaks_cons rfl
  obtain ⟨hwhole, hplaces⟩ := cut_number (hpoint _) (hpoint _) h
  have hfraction : dropTrailingZeros (lastDigits places (d % step)) =
      dropTrailingZeros (lastDigits places (e % step)) := by
    generalize dropTrailingZeros (lastDigits places (d % step)) = f at hplaces ⊢
    generalize dropTrailingZeros (lastDigits places (e % step)) = g at hplaces ⊢
    cases f <;> cases g <;> simp_all
  have hdigits : lastDigits places (d % step) = lastDigits places (e % step) :=
    dropTrailingZeros_inj (by rw [length_lastDigits, length_lastDigits]) hfraction
  have hrest : d % step = e % step := by
    have hmod := mod_eq_of_lastDigits hdigits
    rwa [← hstep, Nat.mod_mod, Nat.mod_mod] at hmod
  rw [← Nat.div_add_mod d step, ← Nat.div_add_mod e step, hwhole, hrest]

/-- Different durations have different texts. -/
theorem text_inj {d e : Duration} (h : d.text = e.text) : d = e := by
  have hlists := congrArg String.toList h
  rw [toList_text, toList_text] at hlists
  obtain ⟨hmantissa, hname⟩ := cut_front (fun _ => numeric_of_mem_mantissa)
    (fun _ => numeric_of_mem_mantissa) d.breaks_name e.breaks_name hlists
  have hscale := scale_eq_of_name (String.toList_inj.mp hname)
  rw [hscale] at hmantissa
  exact mantissa_inj e.step_scale hmantissa

/-- A duration is written in the characters of numbers and of units. -/
theorem numeric_or_mem_name {d : Duration} {c : Char} (h : c ∈ d.text.toList) :
    numeric c = true ∨ ∃ s ∈ scales, c ∈ s.name.toList := by
  rw [toList_text] at h
  rcases List.mem_append.mp h with hmantissa | hname
  · exact .inl (numeric_of_mem_mantissa hmantissa)
  · exact .inr ⟨d.scale, d.scale_mem, hname⟩

end NetnsWatch.Duration
