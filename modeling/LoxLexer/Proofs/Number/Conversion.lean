import LoxLexer.Proofs.Span.Rules
import LoxLexer.Proofs.Number.Bits

/-!
# From texts to numbers

A text is converted to a number if it is a numeral as a whole. Which texts are numerals is said here by
their parts, and reading from the front of a text is shown to find the longest of them. A search that
takes characters off the end until a numeral is left therefore comes to the same one. Whatever is found,
its value is a number, and not a negative one.

* `Binary64.IsMagnitude`: neither a NaN nor negative; so is what rounding gives.
* `Numeral.read_eq_iff`: what reading finds, told by the parts of the numeral and by what follows it.
* `Numeral.longest_of_read`: this is the longest numeral at the front of the text.
* `Numeral.convert?_eq_some_iff`: numerals are converted, and nothing else.
* `Numeral.searchBack_eq`: searching from the end finds the longest numeral.
-/

namespace LoxLexer

/-! ## §1 Rounding -/

namespace Binary64

/-- Neither a NaN nor negative. -/
structure IsMagnitude (x : Binary64) : Prop where
  notNaN : x.isNaN = false
  notNegative : x.isNegative = false

/-- The bits up to those of infinity are the magnitudes of numbers. -/
theorem isMagnitude_ofMagnitude {m : Nat} (h : m ≤ infinityMagnitude) :
    (ofMagnitude false m).IsMagnitude := by
  have hbits := toNat_bits_ofMagnitude h
  rw [infinityMagnitude_eq] at h
  constructor
  · -- the exponent is full for infinity alone, and infinity has no fraction
    rw [isNaN_eq_false_iff, exponentField_eq, fractionField_eq, hbits]
    omega
  · rw [isNegative_eq_false_iff, hbits]
    omega

theorem isMagnitude_ofRatio (num den : Nat) : (ofRatio num den).IsMagnitude := by
  unfold ofRatio
  split
  · exact isMagnitude_ofMagnitude (Nat.zero_le _)
  · exact isMagnitude_ofMagnitude (Nat.min_le_right _ _)

theorem isMagnitude_ofDecimal (m : Nat) (e : Int) : (ofDecimal m e).IsMagnitude := by
  unfold ofDecimal
  split_ifs
  · exact isMagnitude_ofMagnitude (Nat.zero_le _)
  · exact isMagnitude_ofMagnitude (Nat.le_refl _)
  · exact isMagnitude_ofMagnitude (Nat.zero_le _)
  · exact isMagnitude_ofRatio _ _
  · exact isMagnitude_ofRatio _ _

end Binary64

/-! ## §2 Exponents -/

namespace Exponent

/-- **An exponent**: a letter, a sign or none, and at least one digit. -/
structure Proper (x : Exponent) : Prop where
  letter : x.letter = 'e' ∨ x.letter = 'E'
  sign : ∀ c ∈ x.sign, c = '+' ∨ c = '-'
  digits_ne_nil : x.digits ≠ []
  digits : ∀ c ∈ x.digits, isDigit c = true

/-- A sign is read to its end before a digit. -/
theorem readSign_toList_append {sign : Option Char} (hsign : ∀ c ∈ sign, c = '+' ∨ c = '-')
    {rest : List Char} (hrest : ∀ c ∈ rest.head?, isDigit c = true) :
    readSign (sign.toList ++ rest) = (sign, rest) := by
  cases sign with
  | some c => simp [readSign, hsign c rfl]
  | none =>
    cases rest with
    | nil => rfl
    | cons c rest =>
      -- a digit is no sign
      have hc : isDigit c = true := hrest c rfl
      have hplus : c ≠ '+' := by
        rintro rfl
        exact absurd hc (by decide)
      have hminus : c ≠ '-' := by
        rintro rfl
        exact absurd hc (by decide)
      simp [readSign, hplus, hminus]

theorem sign_of_readSign {cs : List Char} {c : Char} (h : c ∈ (readSign cs).1) : c = '+' ∨ c = '-' := by
  cases cs with
  | nil => exact absurd h (Option.not_mem_none c)
  | cons d cs =>
    by_cases hd : d = '+' ∨ d = '-'
    · simp only [readSign, Bool.or_eq_true, beq_iff_eq, if_pos hd, Option.mem_some_iff] at h
      exact h ▸ hd
    · simp [readSign, hd] at h

/-- An exponent at the front of a text is found, with the digits that follow it. -/
theorem read?_text_append {x : Exponent} (hx : x.Proper) (rest : List Char) :
    read? (x.text ++ rest) =
      some ({ x with digits := x.digits ++ rest.takeWhile isDigit }, rest.dropWhile isDigit) := by
  obtain ⟨letter, sign, digits⟩ := x
  have hletter : letter = 'e' ∨ letter = 'E' := hx.letter
  have hdigits : ∀ c ∈ digits, isDigit c = true := hx.digits
  have hne : digits ≠ [] := hx.digits_ne_nil
  -- the sign ends where the digits begin, of which there are some
  have hsign : readSign (sign.toList ++ (digits ++ rest)) = (sign, digits ++ rest) := by
    apply readSign_toList_append hx.sign
    rw [List.head?_append_of_ne_nil _ hne]
    exact fun c hc => hdigits c (List.mem_of_mem_head? hc)
  rw [text, List.cons_append, List.append_assoc, read?, hsign]
  simp [hletter, hne, List.takeWhile_append_of_pos hdigits, List.dropWhile_append_of_pos hdigits]

theorem read?_text_append_of_stops {x : Exponent} (hx : x.Proper) {rest : List Char}
    (hrest : ∀ c ∈ rest.head?, isDigit c = false) : read? (x.text ++ rest) = some (x, rest) := by
  obtain ⟨htake, hdrop⟩ := takeWhile_append_eq (p := isDigit) (List.forall_mem_nil _) hrest
  rw [List.nil_append] at htake hdrop
  rw [read?_text_append hx, htake, hdrop, List.append_nil]

theorem read?_text {x : Exponent} (hx : x.Proper) : read? x.text = some (x, []) := by
  have hnil : ∀ c ∈ ([] : List Char).head?, isDigit c = false := by
    intro c hc
    exact absurd hc (Option.not_mem_none c)
  have hread := read?_text_append_of_stops hx hnil
  rwa [List.append_nil] at hread

/-- What is read is an exponent, with all digits that there are. -/
theorem proper_of_read? {cs rest : List Char} {x : Exponent} (h : read? cs = some (x, rest)) :
    x.Proper ∧ ∀ c ∈ rest.head?, isDigit c = false := by
  cases cs with
  | nil => exact absurd h.symm (Option.some_ne_none _)
  | cons c cs =>
    rw [read?] at h
    split at h
    · next hc =>
      have hsign : ∀ d ∈ (readSign cs).1, d = '+' ∨ d = '-' := fun d hd => sign_of_readSign hd
      rcases hread : readSign cs with ⟨sign, left⟩
      rw [hread] at h hsign
      simp only at h
      split at h
      · exact absurd h.symm (Option.some_ne_none _)
      · next hne =>
        obtain ⟨rfl, rfl⟩ := Prod.mk.inj (Option.some.inj h)
        refine ⟨⟨by simpa using hc, hsign, by simpa using hne, ?_⟩, ?_⟩
        · exact fun d hd => List.mem_takeWhile_imp hd
        · exact fun d hd => of_mem_head?_dropWhile hd
    · exact absurd h.symm (Option.some_ne_none _)

end Exponent

/-! ## §3 Numerals -/

namespace Numeral

/-- **A numeral**: digits, at least one, then perhaps a point with digits or none after it, and then
perhaps an exponent. -/
structure Proper (n : Numeral) : Prop where
  whole_ne_nil : n.whole ≠ []
  whole : ∀ c ∈ n.whole, isDigit c = true
  fraction : ∀ ds ∈ n.fraction, ∀ c ∈ ds, isDigit c = true
  exponent : ∀ x ∈ n.exponent, x.Proper

/-- The texts that are numerals as a whole. -/
def texts : Language Char :=
  {w | ∃ n : Numeral, n.Proper ∧ n.text = w}

/-- Where a numeral ends: no digit follows, and no other part that it could still have. -/
structure StopsAt (n : Numeral) (rest : List Char) : Prop where
  digit : ∀ c ∈ rest.head?, isDigit c = false
  point : n.fraction = none → n.exponent = none → rest.head? ≠ some '.'
  exponent : n.exponent = none → Exponent.read? rest = none

theorem stopsAt_nil (n : Numeral) : n.StopsAt [] where
  digit := fun c hc => absurd hc (Option.not_mem_none c)
  point := fun _ _ => (Option.some_ne_none _).symm
  exponent := fun _ => rfl

theorem readFraction_of_ne {cs : List Char} (h : cs.head? ≠ some '.') : readFraction cs = (none, cs) := by
  fun_cases readFraction cs with
  | case1 cs => exact absurd rfl h
  | case2 => rfl

theorem readFraction_point {ds rest : List Char} (hds : ∀ c ∈ ds, isDigit c = true)
    (hrest : ∀ c ∈ rest.head?, isDigit c = false) :
    readFraction ('.' :: (ds ++ rest)) = (some ds, rest) := by
  obtain ⟨htake, hdrop⟩ := takeWhile_append_eq hds hrest
  rw [readFraction, htake, hdrop]

theorem whole_read (cs : List Char) : (read cs).1.whole = cs.takeWhile isDigit := by
  unfold read
  split
  split <;> rfl

/-- Reading stops where the numeral at the front of the text ends. -/
theorem read_text_append {n : Numeral} (hn : n.Proper) {rest : List Char} (h : n.StopsAt rest) :
    read (n.text ++ rest) = (n, rest) := by
  obtain ⟨whole, fraction, exponent⟩ := n
  have hcut : ∀ tail : List Char, (∀ c ∈ tail.head?, isDigit c = false) →
      (whole ++ tail).takeWhile isDigit = whole ∧ (whole ++ tail).dropWhile isDigit = tail :=
    fun tail htail => takeWhile_append_eq hn.whole htail
  have hletter : ∀ x ∈ exponent, ∀ c ∈ (x.text ++ rest).head?, isDigit c = false ∧ c ≠ '.' := by
    intro x hx c hc
    obtain rfl : x.letter = c := Option.some.inj hc
    rcases (hn.exponent x hx).letter with h | h <;> rw [h] <;> decide
  -- the parts that the numeral has say where the digits before the point end, and what comes then
  cases fraction with
  | none =>
    cases exponent with
    | none =>
      obtain ⟨htake, hdrop⟩ := hcut rest h.digit
      simp [text, read, htake, hdrop, readFraction_of_ne (h.point rfl rfl), h.exponent rfl]
    | some x =>
      obtain ⟨htake, hdrop⟩ := hcut (x.text ++ rest) fun c hc => (hletter x rfl c hc).1
      have hpoint : (x.text ++ rest).head? ≠ some '.' := fun hc => (hletter x rfl _ hc).2 rfl
      simp [text, read, htake, hdrop, readFraction_of_ne hpoint,
        Exponent.read?_text_append_of_stops (hn.exponent x rfl) h.digit]
  | some ds =>
    have hds := hn.fraction ds rfl
    cases exponent with
    | none =>
      obtain ⟨htake, hdrop⟩ := hcut ('.' :: (ds ++ rest)) (by simp [isDigit])
      simp [text, read, htake, hdrop, readFraction_point hds h.digit, h.exponent rfl]
    | some x =>
      obtain ⟨htake, hdrop⟩ := hcut ('.' :: (ds ++ (x.text ++ rest))) (by simp [isDigit])
      simp [text, read, htake, hdrop,
        readFraction_point hds fun c hc => (hletter x rfl c hc).1,
        Exponent.read?_text_append_of_stops (hn.exponent x rfl) h.digit]

theorem read_text {n : Numeral} (hn : n.Proper) : read n.text = (n, []) := by
  have hread := read_text_append hn (stopsAt_nil n)
  rwa [List.append_nil] at hread

/-- A fraction is read with all digits that there are, and none is read where there is no point. -/
theorem digits_of_readFraction {cs rest : List Char} {fraction : Option (List Char)}
    (h : readFraction cs = (fraction, rest)) :
    (∀ ds ∈ fraction, (∀ c ∈ ds, isDigit c = true) ∧ ∀ c ∈ rest.head?, isDigit c = false) ∧
      (fraction = none → rest = cs ∧ cs.head? ≠ some '.') := by
  by_cases hhead : cs.head? = some '.'
  · obtain ⟨more, rfl⟩ := List.head?_eq_some_iff.mp hhead
    obtain ⟨rfl, rfl⟩ := Prod.mk.inj h
    refine ⟨?_, fun hnone => absurd hnone (Option.some_ne_none _)⟩
    intro ds hds
    obtain rfl := Option.some.inj hds
    exact ⟨fun c hc => List.mem_takeWhile_imp hc, fun c hc => of_mem_head?_dropWhile hc⟩
  · rw [readFraction_of_ne hhead] at h
    obtain ⟨rfl, rfl⟩ := Prod.mk.inj h
    exact ⟨fun ds hds => absurd hds (Option.not_mem_none ds), fun _ => ⟨rfl, hhead⟩⟩

/-- What reading finds is a numeral, and it ends there. -/
theorem proper_of_read {cs rest : List Char} {n : Numeral} (h : read cs = (n, rest))
    (hne : n.whole ≠ []) : n.Proper ∧ n.StopsAt rest := by
  rcases hfraction : readFraction (cs.dropWhile isDigit) with ⟨fraction, left⟩
  obtain ⟨hdigits, hpoint⟩ := digits_of_readFraction hfraction
  rw [read, hfraction] at h
  simp only at h
  -- no digit comes after the digits before the point, nor after those behind it
  have hleft : ∀ c ∈ left.head?, isDigit c = false := by
    cases fraction with
    | none =>
      rw [(hpoint rfl).1]
      exact fun c hc => of_mem_head?_dropWhile hc
    | some ds => exact (hdigits ds rfl).2
  have hwhole : ∀ c ∈ cs.takeWhile isDigit, isDigit c = true := fun c hc => List.mem_takeWhile_imp hc
  cases hexponent : Exponent.read? left with
  | none =>
    rw [hexponent] at h
    obtain ⟨rfl, rfl⟩ := Prod.mk.inj h
    refine ⟨⟨hne, hwhole, fun ds hds => (hdigits ds hds).1, ?_⟩, ⟨hleft, ?_, fun _ => hexponent⟩⟩
    · exact fun x hx => absurd hx (Option.not_mem_none x)
    · intro hnone _
      obtain ⟨rfl, hhead⟩ := hpoint hnone
      exact hhead
  | some found =>
    obtain ⟨x, left'⟩ := found
    rw [hexponent] at h
    obtain ⟨rfl, rfl⟩ := Prod.mk.inj h
    obtain ⟨hx, hstop⟩ := Exponent.proper_of_read? hexponent
    refine ⟨⟨hne, hwhole, fun ds hds => (hdigits ds hds).1, ?_⟩, ⟨hstop, ?_, ?_⟩⟩
    · intro y hy
      obtain rfl := Option.some.inj hy
      exact hx
    · exact fun _ hnone => absurd hnone (Option.some_ne_none x)
    · exact fun hnone => absurd hnone (Option.some_ne_none x)

/-- **What reading finds** at the front of a text with a digit: the numeral that ends where it does. -/
theorem read_eq_iff {cs rest : List Char} {n : Numeral} (hne : n.whole ≠ []) :
    read cs = (n, rest) ↔ n.Proper ∧ n.StopsAt rest ∧ n.text ++ rest = cs := by
  constructor
  · intro h
    obtain ⟨hn, hstop⟩ := proper_of_read h hne
    refine ⟨hn, hstop, ?_⟩
    have happend := read_append cs
    rw [h] at happend
    exact happend
  · rintro ⟨hn, hstop, rfl⟩
    exact read_text_append hn hstop

/-! ## §4 The longest numeral -/

/-- A numeral that ends before some text ends before what begins that text, too. -/
theorem StopsAt.of_append {n : Numeral} {u v : List Char} (h : n.StopsAt (u ++ v)) (hu : u ≠ []) :
    n.StopsAt u := by
  have hhead : (u ++ v).head? = u.head? := List.head?_append_of_ne_nil _ hu
  refine ⟨hhead ▸ h.digit, fun hf hx => hhead ▸ h.point hf hx, ?_⟩
  intro hnone
  cases hread : Exponent.read? u with
  | none => rfl
  | some found =>
    -- an exponent at the front of `u` would be found in the longer text, with more digits perhaps
    obtain ⟨x, rest⟩ := found
    have hx := (Exponent.proper_of_read? hread).1
    have hlonger := h.exponent hnone
    rw [← Exponent.text_append_of_read? hread, List.append_assoc,
      Exponent.read?_text_append hx] at hlonger
    exact absurd hlonger (Option.some_ne_none _)

/-- **Reading finds the longest numeral** at the front of a text. -/
theorem longest_of_read {cs rest : List Char} {n : Numeral} (h : read cs = (n, rest))
    (hne : n.whole ≠ []) : NumberLexeme.IsLongestPrefix texts cs n.text := by
  obtain ⟨hn, hstop, rfl⟩ := (read_eq_iff hne).mp h
  refine ⟨⟨n, hn, rfl⟩, List.prefix_append _ _, ?_⟩
  rintro w ⟨m, hm, rfl⟩ hpre
  by_contra hlt
  -- a longer numeral goes on where `n` ends, but then `n` would have been read from it as well
  have hprefix : n.text <+: m.text := by
    apply List.prefix_of_prefix_length_le (List.prefix_append _ _) hpre
    omega
  obtain ⟨u, hu⟩ := hprefix
  obtain ⟨v, hv⟩ := hpre
  rw [← hu, List.append_assoc, List.append_cancel_left_eq] at hv
  have hu_ne : u ≠ [] := by
    rintro rfl
    rw [List.append_nil] at hu
    rw [hu] at hlt
    exact hlt (Nat.le_refl _)
  have hread := read_text_append hn (StopsAt.of_append (hv ▸ hstop) hu_ne)
  rw [hu, read_text hm] at hread
  exact hu_ne (Prod.mk.inj hread).2.symm

/-! ## §5 Conversion -/

/-- The numeral that a text is as a whole, if it is one. -/
def ofText? (cs : List Char) : Option Numeral :=
  match read cs with
  | (n, []) => if n.whole.isEmpty then none else some n
  | _ => none

/-- The number that a text is converted to, if the text is a numeral. -/
def convert? (cs : List Char) : Option Binary64 :=
  (ofText? cs).map value

/-- The number that is found by taking characters off the end of a text until it is a numeral. -/
def searchBack (cs : List Char) : Option Binary64 :=
  match convert? cs with
  | some x => some x
  | none => if cs = [] then none else searchBack cs.dropLast
termination_by cs.length
decreasing_by
  rw [List.length_dropLast]
  have := List.length_pos_of_ne_nil ‹cs ≠ []›
  omega

theorem ofText?_eq_some_iff {cs : List Char} {n : Numeral} :
    ofText? cs = some n ↔ n.Proper ∧ n.text = cs := by
  constructor
  · intro h
    rcases hread : read cs with ⟨m, rest⟩
    rw [ofText?, hread] at h
    cases rest with
    | nil =>
      simp only at h
      split at h
      · exact absurd h.symm (Option.some_ne_none n)
      · next hne =>
        obtain rfl := Option.some.inj h
        obtain ⟨hn, -, htext⟩ := (read_eq_iff (by simpa using hne)).mp hread
        exact ⟨hn, by rw [← htext, List.append_nil]⟩
    | cons c rest => exact absurd h.symm (Option.some_ne_none n)
  · rintro ⟨hn, rfl⟩
    have hwhole : n.whole.isEmpty = false := by simpa using hn.whole_ne_nil
    simp [ofText?, read_text hn, hwhole]

/-- **Conversion** gives the number of the numeral that the text is. -/
theorem convert?_eq_some_iff {cs : List Char} {x : Binary64} :
    convert? cs = some x ↔ ∃ n : Numeral, n.Proper ∧ n.text = cs ∧ n.value = x := by
  rw [convert?, Option.map_eq_some_iff]
  apply exists_congr
  intro n
  rw [ofText?_eq_some_iff, and_assoc]

/-- **The texts that are converted** are the numerals. -/
theorem convert?_isSome_iff {cs : List Char} : (convert? cs).isSome = true ↔ cs ∈ texts := by
  rw [convert?, Option.isSome_map, Option.isSome_iff_exists]
  exact exists_congr fun n => ofText?_eq_some_iff

theorem isMagnitude_of_convert? {cs : List Char} {x : Binary64} (h : convert? cs = some x) :
    x.IsMagnitude := by
  obtain ⟨n, -, -, rfl⟩ := convert?_eq_some_iff.mp h
  exact Binary64.isMagnitude_ofDecimal _ _

/-- **Searching from the end finds the longest numeral.** -/
theorem searchBack_eq {cs best : List Char} (h : NumberLexeme.IsLongestPrefix texts cs best) :
    searchBack cs = convert? best := by
  -- on the text that is left, of which `best` stays the longest numeral until it is all of it
  fun_induction searchBack cs with
  | case1 cs x hx =>
    have hmem : cs ∈ texts := convert?_isSome_iff.mp (by rw [hx]; rfl)
    rw [h.isPrefix.eq_of_length_le (h.longest cs hmem (List.prefix_refl cs)), hx]
  | case2 hnone => rw [List.prefix_nil.mp h.isPrefix, hnone]
  | case3 cs hnone hne ih =>
    apply ih
    obtain ⟨u, rfl⟩ := h.isPrefix
    have hu : u ≠ [] := by
      rintro rfl
      have hsome := convert?_isSome_iff.mpr h.mem
      rw [List.append_nil] at hnone
      rw [hnone] at hsome
      exact Bool.noConfusion hsome
    refine ⟨h.mem, ?_, ?_⟩
    · rw [List.dropLast_append_of_ne_nil hu]
      exact List.prefix_append _ _
    · intro w hw hpre
      exact h.longest w hw (hpre.trans (List.dropLast_prefix _))

end Numeral

end LoxLexer
