import LoxLexer.Command.Argument

/-!
# Options that stand alone

An option that stands alone can be given before all other arguments. They are taken in as they would be
without it, unless they give it themselves.

* `Progress.Lifts`: what taking in an argument does behind the option.
* `parse_flag_cons`: the invocation with the option.
-/

namespace LoxLexer.Command

namespace Progress

/-! ## §1 Progress behind a flag -/

/-- Progress with a flag taken in before everything else. -/
def behind (f : Flag) (p : Progress) : Progress :=
  { p with said := .flag f :: p.said }

/-- **A step goes the same way behind a flag**, if the flag is not given by the end of it. -/
def Lifts (f : Flag) (step : Progress → Except Stop Progress) : Prop :=
  ∀ p q, step p = .ok q → q.has (.flag f) = false →
    p.has (.flag f) = false ∧ step (p.behind f) = .ok (q.behind f)

variable {f : Flag}

theorem has_behind (p : Progress) {o : Choice} (h : o ≠ .flag f) : (p.behind f).has o = p.has o := by
  have hflag : ((Said.flag f).choice? == some o) = false := by simpa [Said.choice?] using h.symm
  rw [has, behind, List.any_cons, hflag, Bool.false_or]
  rfl

theorem hasFile_behind (p : Progress) : (p.behind f).hasFile = p.hasFile := rfl

theorem lifts_ok : Lifts f fun p => .ok p := by
  intro p q h hq
  obtain rfl := Except.ok.inj h
  exact ⟨hq, rfl⟩

theorem lifts_error (e : Stop) : Lifts f fun _ => .error e := by
  intro p q h
  cases h

theorem lifts_held (held : Option Held) : Lifts f fun p => .ok { p with held := held } := by
  intro p q h hq
  obtain rfl := Except.ok.inj h
  exact ⟨hq, rfl⟩

/-- One step after another. -/
theorem Lifts.followed {first second : Progress → Except Stop Progress} (hfirst : Lifts f first)
    (hsecond : Lifts f second) :
    Lifts f fun p => match first p with | .ok q => second q | .error e => .error e := by
  intro p q h hq
  cases hp : first p with
  | error e => simp [hp] at h
  | ok r =>
    simp only [hp] at h
    obtain ⟨hr, hsteps⟩ := hsecond r q h hq
    obtain ⟨hnew, hstep⟩ := hfirst p r hp hr
    refine ⟨hnew, ?_⟩
    simp only [hstep, hsteps]

theorem lifts_add {s : Said} {o : Choice} (hs : s.choice? = some o) : Lifts f fun p => p.add s o := by
  intro p q h hq
  simp only [add] at h ⊢
  split at h
  · cases h
  · next hnew =>
    obtain rfl := Except.ok.inj h
    simp only [has, List.any_append, List.any_cons, List.any_nil, hs, Bool.or_false, Bool.or_eq_false_iff,
      beq_eq_false_iff_ne, ne_eq, Option.some.injEq] at hq
    refine ⟨hq.1, ?_⟩
    rw [has_behind p hq.2, if_neg hnew]
    rfl

theorem lifts_settle : Lifts f settle := by
  intro p q h hq
  obtain ⟨said, held⟩ := p
  rcases held with _ | ⟨o, _ | s⟩ | path
  · exact lifts_ok _ q h hq
  · cases h
  · exact lifts_add (s := .value o s) rfl ⟨said, none⟩ q h hq
  · obtain rfl := Except.ok.inj h
    refine ⟨?_, rfl⟩
    simpa [has, Said.choice?] using hq

/-! ## §2 Arguments behind a flag -/

theorem lifts_setValue (o : Valued) (s : String) : Lifts f fun p => p.setValue o s :=
  lifts_settle.followed (lifts_add rfl)

theorem lifts_hold (o : Valued) : Lifts f fun p => p.hold o :=
  lifts_settle.followed (lifts_held _)

theorem lifts_setFlag (g : Flag) : Lifts f fun p => p.setFlag g := by
  apply lifts_settle.followed
  by_cases hg : g = .help
  · simp only [hg, if_true]
    exact lifts_error .help
  · simp only [hg, if_false]
    exact lifts_add rfl

theorem lifts_holdFile (path : String) : Lifts f fun p => p.holdFile path := by
  intro p q h hq
  simp only [holdFile] at h ⊢
  split at h
  · cases h
  · next hfile =>
    rw [hasFile_behind, if_neg hfile]
    exact lifts_settle.followed (lifts_held _) p q h hq

theorem lifts_addPlain (s : String) : Lifts f fun p => p.addPlain s := by
  intro p q h hq
  obtain ⟨said, held⟩ := p
  rcases held with _ | ⟨o, _ | value⟩ | path
  · exact lifts_holdFile s _ q h hq
  · exact lifts_held _ ⟨said, none⟩ q h hq
  · exact lifts_holdFile s _ q h hq
  · exact lifts_holdFile s _ q h hq

theorem lifts_addNamed (name : String) (value : Option String) :
    Lifts f fun p => p.addNamed name value := by
  intro p q h hq
  simp only [addNamed] at h ⊢
  split at h
  · cases h
  · exact lifts_hold _ p q h hq
  · exact lifts_setValue _ _ p q h hq
  · exact lifts_setFlag _ p q h hq
  · cases h

theorem lifts_addLetters (cs : List Char) : Lifts f fun p => p.addLetters cs := by
  induction cs with
  | nil => exact lifts_ok
  | cons c cs ih =>
    intro p q h hq
    simp only [addLetters] at h ⊢
    split at h
    · cases h
    · exact (lifts_setFlag _).followed ih p q h hq
    · split at h
      · exact lifts_hold _ p q h hq
      · exact lifts_setValue _ _ p q h hq
      · exact lifts_setValue _ _ p q h hq

theorem lifts_addFiles (paths : List String) : Lifts f fun p => p.addFiles paths := by
  induction paths with
  | nil => exact lifts_ok
  | cons path paths ih => exact (lifts_holdFile path).followed ih

theorem lifts_addOne (a : Argument) : Lifts f fun p => p.addOne a := by
  cases a with
  | separator => exact lifts_ok
  | named name value => exact lifts_addNamed name value
  | letters cs => exact lifts_addLetters cs
  | plain s => exact lifts_addPlain s

theorem lifts_addAll (args : List String) : Lifts f fun p => p.addAll args := by
  induction args with
  | nil => exact lifts_ok
  | cons a args ih =>
    -- what follows the separator is files only
    by_cases ha : Argument.of a = .separator
    · simp only [addAll, ha, if_true]
      exact lifts_addFiles args
    · simp only [addAll, ha, if_false]
      exact (lifts_addOne (Argument.of a)).followed ih

end Progress

/-! ## §3 The invocation -/

/-- A flag before all arguments. -/
theorem addAll_flag_cons {f : Flag} (hf : f ≠ .help) (args : List String) :
    Progress.start.addAll (("--" ++ (Choice.flag f).name) :: args) =
      (Progress.start.behind f).addAll args := by
  cases f with
  | help => exact absurd rfl hf
  | showEof => rfl
  | noPretty => rfl
  | version => rfl

/-- **A flag can be given before all other arguments**, if they are accepted and do not give it. -/
theorem parse_flag_cons {f : Flag} (hf : f ≠ .help) {args : List String} {i : Invocation}
    (hargs : parse args = .ok i) :
    ∃ said, i = Invocation.ofSaid said ∧ (Said.flag f ∉ said →
      parse (("--" ++ (Choice.flag f).name) :: args) = .ok (Invocation.ofSaid (.flag f :: said))) := by
  rw [parse] at hargs
  cases hp : Progress.start.addAll args with
  | error e => simp [hp] at hargs
  | ok p =>
    cases hq : p.settle with
    | error e => simp [hp, hq] at hargs
    | ok q =>
      simp only [hp, hq] at hargs
      refine ⟨q.said, (Except.ok.inj hargs).symm, ?_⟩
      intro hsaid
      -- what is not said at the end was said at no step before
      have hnew : q.has (.flag f) = false := by
        rw [Progress.has, List.any_eq_false]
        intro s hs
        cases s with
        | file path => simp [Said.choice?]
        | value o value => simp [Said.choice?]
        | flag g =>
          have hne : g ≠ f := by
            rintro rfl
            exact hsaid hs
          simpa [Said.choice?] using hne
      obtain ⟨hp', hsettle⟩ := Progress.lifts_settle p q hq hnew
      obtain ⟨-, hadd⟩ := Progress.lifts_addAll args _ p hp hp'
      simp only [parse, addAll_flag_cons hf, hadd, hsettle]
      rfl

end LoxLexer.Command
