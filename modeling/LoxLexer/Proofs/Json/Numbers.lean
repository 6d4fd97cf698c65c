import LoxLexer.Number.Style
import LoxLexer.Proofs.Json.Values

/-!
# Numbers as JSON writes them

Every finite number is written as a number of JSON. A text of digits could fail to be one only by a zero
before other digits, which would take a decimal that is all zeros but counts in tens. The shortest decimal
of a number is never one: zero itself counts in ones, and what rounds to another number is not zero.

* `NumberText`: the texts that are numbers of JSON.
* `Binary64.shortest_digits_pos`: the shortest decimal, where it counts in tens, is not zero.
* `NumberStyle.numberText_write`: finite numbers are written as numbers of JSON.
* `NumberStyle.write_json_eq_null_iff`: and all others as `null`.
-/

namespace LoxLexer

open Json (Digits IsNumeral)

/-! ## §1 Digits -/

namespace NumberStyle

theorem digitsOf_eq (n : Nat) : digitsOf n = Nat.toDigits 10 n := by
  rw [digitsOf, Nat.toString_eq_ofList_toDigits, String.toList_ofList]

theorem digits_digitsOf (n : Nat) : Digits (digitsOf n) := by
  refine ⟨?_, fun c hc => isDigit_of_mem_digitsOf hc⟩
  rw [digitsOf_eq]
  exact Nat.toDigits_ne_nil

/-- A positive number has no zero before its other digits. -/
theorem head?_digitsOf_ne {n : Nat} (h : 0 < n) : (digitsOf n).head? ≠ some '0' := by
  rw [digitsOf_eq]
  induction n using Nat.strong_induction_on with
  | _ n ih =>
    by_cases hn : n < 10
    · rw [Nat.toDigits_of_lt_base hn]
      intro hzero
      have hcode := congrArg Char.toNat (Option.some.inj hzero)
      rw [Nat.toNat_digitChar_of_lt_ten hn] at hcode
      have hcode_zero : '0'.toNat = 48 := rfl
      omega
    · -- the digits before the last one are those of a tenth
      rw [Nat.toDigits_of_base_le (by decide) (by omega),
        List.head?_append_of_ne_nil _ Nat.toDigits_ne_nil]
      exact ih (n / 10) (by omega) (by omega)

end NumberStyle

/-! ## §2 The shortest decimal -/

namespace Binary64

variable {x : Binary64} {tie : Tie} {p : Int}

theorem quarters_pos (h : x.significand ≠ 0) : 0 < x.quarters.1 := by
  unfold quarters
  dsimp only
  split <;> omega

/-- Zero rounds to nothing but zero. -/
theorem roundsHere_zero (h : x.significand ≠ 0) (p : Int) : x.roundsHere 0 p = false := by
  have hlower : x.compareQuarters x.quarters.1 0 p = .gt := by
    rw [compareQuarters]
    simp only [Nat.zero_mul]
    rw [Nat.compare_eq_gt]
    exact Nat.mul_pos (Nat.mul_pos (quarters_pos h) (twoTo_pos _)) (tenTo_pos _)
  simp [roundsHere, hlower]

theorem pointAt?_pos (h : x.significand ≠ 0) {d : Nat} (hd : x.pointAt? tie p = some d) : 0 < d := by
  have hfloor : x.roundsHere (x.floorAt p) p = true → 0 < x.floorAt p := by
    intro hrounds
    apply Nat.pos_of_ne_zero
    intro hzero
    rw [hzero, roundsHere_zero h] at hrounds
    exact Bool.false_ne_true hrounds
  unfold pointAt? at hd
  dsimp only at hd
  split at hd
  · next hboth _ =>
    obtain rfl := Option.some.inj hd
    have hpos := hfloor hboth
    unfold nearerAt
    split
    · exact hpos
    · exact Nat.succ_pos _
    · split
      · exact hpos
      · exact Nat.succ_pos _
  · next hrounds _ =>
    obtain rfl := Option.some.inj hd
    exact hfloor hrounds
  · obtain rfl := Option.some.inj hd
    exact Nat.succ_pos _
  · exact absurd hd.symm (Option.some_ne_none _)

/-- A search ends in a point that rounds to the number, or below the last grid. -/
theorem searchFrom_digits_pos (tie : Tie) (h : x.significand ≠ 0) (p : Int) (n : Nat) :
    0 < (searchFrom tie x p n).digits ∨ searchFrom tie x p n = ⟨x.floorAt (p - n), p - n⟩ := by
  induction n generalizing p with
  | zero =>
    right
    simp [searchFrom]
  | succ n ih =>
    rw [searchFrom]
    split
    · next hd => exact .inl (pointAt?_pos h hd)
    · have hgrid : p - (n + 1 : Nat) = p - 1 - (n : Int) := by omega
      rw [hgrid]
      exact ih (p - 1)

/-- The powers of ten against those of two: ten to the third is less than two to the tenth. -/
theorem tenTo_le_twoTo {m n : Nat} (h : 10 * (m + 2) ≤ 3 * n) : tenTo m ≤ twoTo n := by
  calc tenTo m ≤ 10 ^ (3 * ((m + 2) / 3)) := Nat.pow_le_pow_right (by decide) (by omega)
    _ = (10 ^ 3) ^ ((m + 2) / 3) := Nat.pow_mul 10 3 _
    _ ≤ (2 ^ 10) ^ ((m + 2) / 3) := Nat.pow_le_pow_left (by decide) _
    _ = 2 ^ (10 * ((m + 2) / 3)) := (Nat.pow_mul 2 10 _).symm
    _ ≤ twoTo n := Nat.pow_le_pow_right (by decide) (by omega)

theorem scale_le (hfinite : x.isFinite = true) : x.scale ≤ 971 := by
  have hfield : x.exponentField < 2048 := Nat.mod_lt _ (by decide)
  have hne : x.exponentField ≠ 2047 := x.isFinite_iff.mp hfinite
  unfold scale
  omega

/-- Where the last grid counts in tens, the number is so large that it has a point there. -/
theorem floorAt_pos (hfinite : x.isFinite = true) (h : x.significand ≠ 0) (hp : 0 < x.gridAbove - 22) :
    0 < x.floorAt (x.gridAbove - 22) := by
  have hscale := scale_le hfinite
  have hlog : x.significand.log2 < 53 := (Nat.log2_lt h).mpr x.significand_lt
  unfold gridAbove at hp ⊢
  generalize hgrid : ((x.significand.log2 : Int) + 2 + x.scale) * 30103 / 100000 + 1 - 22 = p at *
  have hratio : x.ratio = (x.significand * twoTo x.scale.toNat, 1) := by
    rw [ratio, if_pos (by omega)]
  have hroom : tenTo p.toNat ≤ x.significand * twoTo x.scale.toNat := by
    calc tenTo p.toNat ≤ twoTo (x.significand.log2 + x.scale.toNat) := tenTo_le_twoTo (by omega)
      _ = 2 ^ x.significand.log2 * twoTo x.scale.toNat := Nat.pow_add 2 _ _
      _ ≤ x.significand * twoTo x.scale.toNat := Nat.mul_le_mul_right _ (Nat.log2_self_le h)
  have hzero : (-p).toNat = 0 := by omega
  rw [floorAt, hratio, hzero]
  apply Nat.div_pos
  · simpa [tenTo] using hroom
  · exact Nat.mul_pos Nat.one_pos (tenTo_pos _)

/-- **The shortest decimal that counts in tens is not zero.** -/
theorem shortest_digits_pos (hfinite : x.isFinite = true) (hp : 0 < (shortest tie x).exponent) :
    0 < (shortest tie x).digits := by
  unfold shortest at hp ⊢
  split at hp
  · exact absurd hp (lt_irrefl _)
  · next h =>
    rw [if_neg h]
    rcases searchFrom_digits_pos tie h x.gridAbove 22 with hpos | hlast
    · exact hpos
    · rw [hlast] at hp ⊢
      exact floorAt_pos hfinite h hp

end Binary64

/-! ## §3 Texts -/

/-- **The texts that are numbers of JSON**, with a minus sign or none. -/
inductive NumberText : List Char → Prop where
  | plain {n : Numeral} (h : IsNumeral n) : NumberText n.text
  | negative {n : Numeral} (h : IsNumeral n) : NumberText ('-' :: n.text)

/-- A number begins with a digit or a minus sign. -/
theorem NumberText.ne_null {t : List Char} (h : NumberText t) : t ≠ "null".toList := by
  have hnull : "null".toList = ['n', 'u', 'l', 'l'] := rfl
  rw [hnull]
  cases h with
  | plain h =>
    obtain ⟨d, more, htext, hd⟩ := h.exists_cons
    rw [htext]
    rintro ⟨rfl, -⟩
    exact absurd hd (by decide)
  | negative => exact fun h => absurd (List.cons.inj h).1 (by decide)

namespace NumberStyle

theorem digits_replicate_append (k : Nat) {ds : List Char} (h : Digits ds) :
    Digits (List.replicate k '0' ++ ds) := by
  refine ⟨List.append_ne_nil_of_right_ne_nil _ h.1, ?_⟩
  rw [List.forall_mem_append]
  refine ⟨?_, h.2⟩
  intro c hc
  rw [List.eq_of_mem_replicate hc]
  rfl

theorem digits_append_replicate {ds : List Char} (h : Digits ds) (k : Nat) :
    Digits (ds ++ List.replicate k '0') := by
  refine ⟨List.append_ne_nil_of_left_ne_nil h.1 _, ?_⟩
  rw [List.forall_mem_append]
  refine ⟨h.2, ?_⟩
  intro c hc
  rw [List.eq_of_mem_replicate hc]
  rfl

theorem digits_take {ds : List Char} (h : Digits ds) {k : Nat} (hk : 0 < k) : Digits (ds.take k) := by
  refine ⟨?_, fun c hc => h.2 c (List.mem_of_mem_take hc)⟩
  rw [ne_eq, List.take_eq_nil_iff, not_or]
  exact ⟨Nat.pos_iff_ne_zero.mp hk, h.1⟩

theorem digits_drop {ds : List Char} (h : Digits ds) {k : Nat} (hk : k < ds.length) :
    Digits (ds.drop k) := by
  refine ⟨?_, fun c hc => h.2 c (List.mem_of_mem_drop hc)⟩
  rw [ne_eq, List.drop_eq_nil_iff]
  omega

/-- Digits before and after a point, with no zero before other digits. -/
theorem exists_places_eq {whole fraction : List Char}
    (hwhole : whole = ['0'] ∨ Digits whole ∧ whole.head? ≠ some '0') (hfraction : Digits fraction) :
    ∃ n, IsNumeral n ∧ whole ++ '.' :: fraction = n.text := by
  refine ⟨⟨whole, some fraction, none⟩, ⟨hwhole, ?_, ?_, ?_, ?_⟩, by simp [Numeral.text]⟩
  · intro ds hds
    obtain rfl := Option.some.inj hds
    exact hfraction
  all_goals exact fun x hx => absurd hx (Option.not_mem_none x)

/-- Written out in places, a decimal is a numeral of JSON unless it is a zero that counts in tens. -/
theorem exists_inPlaces_eq {d : Decimal} (h : 0 < d.exponent → 0 < d.digits) :
    ∃ n, IsNumeral n ∧ inPlaces d = n.text := by
  have hdigits := digits_digitsOf d.digits
  have hzero : digitsOf 0 = ['0'] := rfl
  simp only [inPlaces]
  split
  · next hexponent =>
    apply exists_places_eq _ (digits_digitsOf 0)
    rcases Nat.eq_zero_or_pos d.digits with hd | hd
    · have hones : d.exponent.toNat = 0 := by omega
      left
      rw [hd, hones, hzero]
      rfl
    · right
      refine ⟨digits_append_replicate hdigits _, ?_⟩
      rw [List.head?_append_of_ne_nil _ hdigits.1]
      exact head?_digitsOf_ne hd
  · split
    · next hexponent hplaces =>
      -- there are two digits at least, so that the number is not zero
      have hd : 0 < d.digits := by
        apply Nat.pos_of_ne_zero
        intro hd
        rw [hd, hzero, List.length_singleton] at hplaces
        omega
      apply exists_places_eq
      · right
        refine ⟨digits_take hdigits (by omega), ?_⟩
        rw [List.head?_take, if_neg (by omega)]
        exact head?_digitsOf_ne hd
      · exact digits_drop hdigits (by omega)
    · exact exists_places_eq (.inl (rfl : ['0'] = ['0'])) (digits_replicate_append _ hdigits)

/-- With one digit before the point, every decimal is a numeral of JSON. -/
theorem exists_scientific_eq (d : Decimal) : ∃ n, IsNumeral n ∧ scientific d = n.text := by
  have hdigits := digits_digitsOf d.digits
  obtain ⟨first, more, hcons⟩ := List.exists_cons_of_ne_nil hdigits.1
  have hwhole : [first] = ['0'] ∨ Digits [first] ∧ [first].head? ≠ some '0' := by
    by_cases hfirst : first = '0'
    · exact .inl (by rw [hfirst])
    · right
      refine ⟨⟨List.cons_ne_nil _ _, ?_⟩, fun h => hfirst (Option.some.inj h)⟩
      rw [List.forall_mem_singleton]
      exact hdigits.2 first (hcons ▸ List.mem_cons_self)
  have hmore : ∀ c ∈ more, isDigit c = true := fun c hc =>
    hdigits.2 c (hcons ▸ List.mem_cons_of_mem first hc)
  simp only [scientific, hcons]
  generalize d.exponent + ((first :: more).length : Int) - 1 = place
  refine ⟨⟨[first], if more = [] then none else some more,
    some ⟨'e', some (if place < 0 then '-' else '+'), digitsOf place.natAbs⟩⟩, ⟨hwhole, ?_, ?_, ?_, ?_⟩, ?_⟩
  · intro ds hds
    split at hds
    · exact absurd hds (Option.not_mem_none ds)
    · next hne =>
      obtain rfl := Option.some.inj hds
      exact ⟨hne, hmore⟩
  · intro x hx
    obtain rfl := Option.some.inj hx
    exact .inl rfl
  · intro x hx c hc
    obtain rfl := Option.some.inj hx
    obtain rfl := Option.some.inj hc
    split
    · exact .inr rfl
    · exact .inl rfl
  · intro x hx
    obtain rfl := Option.some.inj hx
    exact digits_digitsOf _
  · cases more <;> simp [Numeral.text, Exponent.text]

/-- **Finite numbers are written as numbers of JSON.** -/
theorem numberText_write {x : Binary64} (hx : x.isFinite = true) : NumberText (json.write x).toList := by
  have hnumber : x.isNaN = false := by
    simp only [Binary64.isFinite, bne_iff_ne, ne_eq] at hx
    simp [Binary64.isNaN, hx]
  obtain ⟨n, hn, htext⟩ : ∃ n, IsNumeral n ∧ json.writeMagnitude x = n.text := by
    have hexact : (json.exactWhole && x.isIntegral) = false := Bool.false_and _
    simp only [writeMagnitude, hexact, Bool.false_eq_true, if_false]
    split
    · exact exists_inPlaces_eq (Binary64.shortest_digits_pos hx)
    · exact exists_scientific_eq _
  simp only [write, hnumber, hx, htext, Bool.false_eq_true, Bool.not_true, if_false, String.toList_ofList]
  split
  · exact .negative hn
  · exact .plain hn

/-- **What is not finite is written `null`**, and nothing else is. -/
theorem write_json_eq_null_iff {x : Binary64} : json.write x = "null" ↔ x.isFinite = false := by
  rw [← Bool.not_eq_true]
  constructor
  · intro h hx
    exact (numberText_write hx).ne_null (congrArg String.toList h)
  · intro hx
    simp [write, json, hx]

end NumberStyle

end LoxLexer
