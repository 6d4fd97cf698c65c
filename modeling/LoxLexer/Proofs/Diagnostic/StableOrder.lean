import Mathlib.Data.List.Permutation
import Mathlib.Data.Prod.Lex
import Mathlib.Order.WithBot
import LoxLexer.Diagnostic.Collection
import LoxLexer.Proofs.Text.ByteOrder

/-!
# Sorting collected diagnostics

The order of reports is told by a rank: the bytes of the file, below which there is no file at all, and then
the line, of which a missing one counts as zero. Sorting orders by rank and leaves diagnostics of one rank
as they were. A list that is in order is told by its parts of one rank each, and these are told by what was
added. It makes no difference, therefore, whether diagnostics are sorted once, at the end, or at any time
before it as well.

* `notAfter_iff`: the order of reports is that of ranks.
* `eq_of_filter_eq`: lists in order are the same if their parts are.
* `ofRank_sorted`, `perform_keeps`: sorting keeps the parts, and operations add to them.
* `performAll_sort`: what comes of operations that end with sorting.
-/

namespace LoxLexer

/-! ## §1 Lists in order -/

section

variable {α κ : Type} [DecidableEq κ] [PartialOrder κ] {key : α → κ}

/-- **A list in order is told by its parts** of one key each. -/
theorem eq_of_filter_eq {as bs : List α} (has : as.Pairwise fun a b => key a ≤ key b)
    (hbs : bs.Pairwise fun a b => key a ≤ key b)
    (h : ∀ k, as.filter (fun a => decide (key a = k)) = bs.filter fun b => decide (key b = k)) :
    as = bs := by
  induction as generalizing bs with
  | nil =>
    cases bs with
    | nil => rfl
    | cons b bs =>
      have hb := h (key b)
      simp at hb
  | cons a as ih =>
    cases bs with
    | nil =>
      have ha := h (key a)
      simp at ha
    | cons b bs =>
      rw [List.pairwise_cons] at has hbs
      -- each of the two first items is in the other list as well, and so their keys agree
      have hmem : a ∈ b :: bs := by
        apply List.mem_of_mem_filter (p := fun x => decide (key x = key a))
        rw [← h (key a)]
        simp
      have hmem' : b ∈ a :: as := by
        apply List.mem_of_mem_filter (p := fun x => decide (key x = key b))
        rw [h (key b)]
        simp
      have hkey : key a = key b := by
        apply le_antisymm
        · rcases List.mem_cons.mp hmem' with rfl | hb
          · exact le_refl _
          · exact has.1 b hb
        · rcases List.mem_cons.mp hmem with rfl | ha
          · exact le_refl _
          · exact hbs.1 a ha
      have hpart := h (key a)
      rw [List.filter_cons_of_pos (by simp), List.filter_cons_of_pos (by simp [hkey])] at hpart
      obtain ⟨rfl, -⟩ := List.cons.inj hpart
      rw [ih has.2 hbs.2]
      intro k
      have hk := h k
      by_cases hak : key a = k
      · rw [List.filter_cons_of_pos (by simp [hak]), List.filter_cons_of_pos (by simp [hak])] at hk
        exact (List.cons.inj hk).2
      · rwa [List.filter_cons_of_neg (by simp [hak]), List.filter_cons_of_neg (by simp [hak])] at hk

end

namespace Diagnostic

/-! ## §2 The rank of a diagnostic -/

/-- **The rank of a diagnostic** among reports: the bytes of its file, below which there is no file, and then
its line, of which a missing one counts as zero. -/
def rank (d : Diagnostic) : WithBot (List Nat) ×ₗ Nat :=
  toLex (match d.file with | none => ⊥ | some file => (bytesOf file : WithBot (List Nat)),
    d.line.getD 0)

/-- **The order of reports** is that of ranks. -/
theorem notAfter_iff {d e : Diagnostic} : d.notAfter e = true ↔ d.rank ≤ e.rank := by
  rw [notAfter, rank, rank, Prod.Lex.toLex_le_toLex]
  cases d.file with
  | none => cases e.file <;> simp
  | some f =>
    cases e.file with
    | none => simp
    | some g =>
      simp [bytesOf_lt_iff, strictMono_bytesOf.injective.eq_iff]

theorem notAfter_trans (a b c : Diagnostic) (hab : a.notAfter b = true) (hbc : b.notAfter c = true) :
    a.notAfter c = true := by
  rw [notAfter_iff] at hab hbc ⊢
  exact le_trans hab hbc

theorem notAfter_total (a b : Diagnostic) : (a.notAfter b || b.notAfter a) = true := by
  rw [Bool.or_eq_true, notAfter_iff, notAfter_iff]
  exact le_total a.rank b.rank

/-! ## §3 Parts of one rank -/

/-- The diagnostics of a rank, as they come. -/
def ofRank (r : WithBot (List Nat) ×ₗ Nat) (ds : List Diagnostic) : List Diagnostic :=
  ds.filter fun d => decide (d.rank = r)

variable {ds : List Diagnostic} {ops : List Operation}

theorem ofRank_append (r : WithBot (List Nat) ×ₗ Nat) (ds es : List Diagnostic) :
    ofRank r (ds ++ es) = ofRank r ds ++ ofRank r es :=
  List.filter_append ds es

theorem pairwise_sorted (ds : List Diagnostic) :
    (sorted ds).Pairwise fun d e => d.rank ≤ e.rank := by
  have h : (sorted ds).Pairwise fun d e => d.notAfter e = true :=
    List.pairwise_mergeSort notAfter_trans notAfter_total ds
  exact h.imp notAfter_iff.mp

/-- **Sorting is stable**: diagnostics of one rank stay in the order that they were in. -/
theorem ofRank_sorted (r : WithBot (List Nat) ×ₗ Nat) (ds : List Diagnostic) :
    ofRank r (sorted ds) = ofRank r ds := by
  have hrank : ∀ {d}, d ∈ ofRank r ds → d.rank = r := fun hd => of_decide_eq_true (List.mem_filter.mp hd).2
  -- the part is in order by itself, and so it is found again in what sorting gives
  have hpart : (ofRank r ds).Pairwise fun d e => d.notAfter e = true := by
    apply List.pairwise_of_forall_mem_list
    intro d hd e he
    rw [notAfter_iff, hrank hd, hrank he]
  have hsub : (ofRank r ds).Sublist (sorted ds) :=
    List.sublist_mergeSort notAfter_trans notAfter_total hpart List.filter_sublist
  have hpartSub : (ofRank r (ofRank r ds)).Sublist (ofRank r (sorted ds)) := hsub.filter _
  have hself : ofRank r (ofRank r ds) = ofRank r ds := by
    simp only [ofRank, List.filter_filter, Bool.and_self]
  rw [hself] at hpartSub
  have hperm : (ofRank r (sorted ds)).Perm (ofRank r ds) := (List.mergeSort_perm ds notAfter).filter _
  exact (hpartSub.eq_of_length hperm.length_eq.symm).symm

/-- What an operation adds. -/
def Operation.adds : Operation → List Diagnostic
  | .add d => [d]
  | .scan source => diagnostics source
  | .setFile _ => []
  | .sort => []

/-- What operations add, in their order. -/
def added (ops : List Operation) : List Diagnostic :=
  ops.flatMap Operation.adds

/-- An operation that gives no file keeps what there is and adds to it. -/
theorem perform_keeps (ds : List Diagnostic) {op : Operation} (h : ∀ file, op ≠ .setFile file) :
    (perform ds op).Perm (ds ++ op.adds) ∧
      ∀ r, ofRank r (perform ds op) = ofRank r (ds ++ op.adds) := by
  cases op with
  | add d => exact ⟨.refl _, fun _ => rfl⟩
  | scan source => exact ⟨.refl _, fun _ => rfl⟩
  | setFile file => exact absurd rfl (h file)
  | sort =>
    rw [Operation.adds, List.append_nil]
    exact ⟨List.mergeSort_perm ds notAfter, fun r => ofRank_sorted r ds⟩

/-- So do several operations, one after the other. -/
theorem performAll_keeps (ds : List Diagnostic) (h : ∀ file, .setFile file ∉ ops) :
    (performAll ds ops).Perm (ds ++ added ops) ∧
      ∀ r, ofRank r (performAll ds ops) = ofRank r (ds ++ added ops) := by
  induction ops generalizing ds with
  | nil =>
    rw [added, List.flatMap_nil, List.append_nil]
    exact ⟨.refl _, fun _ => rfl⟩
  | cons op ops ih =>
    have hop : ∀ file, op ≠ .setFile file := by
      rintro file rfl
      exact h file List.mem_cons_self
    obtain ⟨hperm, hparts⟩ := perform_keeps ds hop
    obtain ⟨hpermAll, hpartsAll⟩ := ih (perform ds op) fun file hmem =>
      h file (List.mem_cons_of_mem op hmem)
    have hadded : ds ++ added (op :: ops) = (ds ++ op.adds) ++ added ops := by
      rw [added, List.flatMap_cons, List.append_assoc, ← added]
    rw [hadded]
    constructor
    · exact hpermAll.trans (hperm.append_right _)
    · intro r
      rw [performAll, List.foldl_cons, ← performAll, hpartsAll r, ofRank_append, hparts r,
        ← ofRank_append]

/-! ## §4 Operations that end with sorting -/

/-- What is in order and has the parts of some diagnostics is what sorting these gives. -/
theorem eq_sorted {es : List Diagnostic} (hes : es.Pairwise fun d e => d.rank ≤ e.rank)
    (h : ∀ r, ofRank r es = ofRank r ds) : es = sorted ds := by
  apply eq_of_filter_eq hes (pairwise_sorted ds)
  intro r
  exact (h r).trans (ofRank_sorted r ds).symm

/-- What operations that end with sorting come to. -/
theorem performAll_append_sort (h : ∀ file, .setFile file ∉ ops) :
    performAll ds (ops ++ [.sort]) = sorted (ds ++ added ops) := by
  have hlast : performAll ds (ops ++ [.sort]) = sorted (performAll ds ops) := by
    rw [performAll, List.foldl_append]
    rfl
  rw [hlast]
  apply eq_sorted (pairwise_sorted _)
  intro r
  rw [ofRank_sorted, (performAll_keeps ds h).2 r]

/-- Sorting adds nothing. -/
theorem added_filter_ne_sort (ops : List Operation) :
    added (ops.filter fun op => decide (op ≠ .sort)) = added ops := by
  induction ops with
  | nil => rfl
  | cons op ops ih =>
    by_cases hop : op = .sort
    · subst hop
      rw [List.filter_cons_of_neg (by simp), ih]
      rfl
    · rw [List.filter_cons_of_pos (by simpa using hop), added, List.flatMap_cons, ← added, ih, added,
        added, List.flatMap_cons]

/-- **Sorting is stable, whenever it is done.** For any operations that add to the diagnostics or sort
them, and sorting at the end, the following holds of what they come to.

* It is a permutation of what there was before and of all that was added.
* It is in the order of ranks, which is the order of reports, and a linear one.
* Diagnostics of one rank are in the order in which they were added. There is no other list of which all
  this holds.
* It is the same if there is no sorting in between, and if there is more sorting at the end. -/
theorem performAll_sort (ds : List Diagnostic) {ops : List Operation}
    (h : ∀ file, .setFile file ∉ ops) :
    (performAll ds (ops ++ [.sort])).Perm (ds ++ added ops) ∧
    (performAll ds (ops ++ [.sort])).Pairwise (fun d e => d.rank ≤ e.rank) ∧
    (∀ d e : Diagnostic, d.notAfter e = true ↔ d.rank ≤ e.rank) ∧
    (∀ r, ofRank r (performAll ds (ops ++ [.sort])) = ofRank r (ds ++ added ops)) ∧
    (∀ es : List Diagnostic, es.Pairwise (fun d e => d.rank ≤ e.rank) →
      (∀ r, ofRank r es = ofRank r (ds ++ added ops)) → es = performAll ds (ops ++ [.sort])) ∧
    performAll ds (ops.filter (fun op => decide (op ≠ .sort)) ++ [.sort]) =
      performAll ds (ops ++ [.sort]) ∧
    performAll ds ((ops ++ [.sort]) ++ [.sort]) = performAll ds (ops ++ [.sort]) := by
  have hfilter : ∀ file, .setFile file ∉ ops.filter fun op => decide (op ≠ .sort) :=
    fun file hmem => h file (List.mem_of_mem_filter hmem)
  have hsort : ∀ file, .setFile file ∉ ops ++ [.sort] := by
    intro file hmem
    rcases List.mem_append.mp hmem with hmem | hmem
    · exact h file hmem
    · cases List.mem_singleton.mp hmem
  have hadded : added (ops ++ [.sort]) = added ops := by
    rw [added, List.flatMap_append]
    exact List.append_nil _
  rw [performAll_append_sort h]
  refine ⟨List.mergeSort_perm _ _, pairwise_sorted _, fun _ _ => notAfter_iff,
    fun r => ofRank_sorted r _, fun _ => eq_sorted, ?_, ?_⟩
  · rw [performAll_append_sort hfilter, added_filter_ne_sort]
  · rw [performAll_append_sort hsort, hadded]

/-- Diagnostics of two files, one of them without a line, and those of a source, which have no file. -/
theorem performAll_sort_files :
    let ops : List Operation :=
      [.add ⟨some "é", some 2, 1, "a"⟩, .add ⟨some "z", some 0, 2, "b"⟩, .sort, .scan "x\n#",
        .add ⟨some "z", none, 3, "c"⟩]
    (∀ file, .setFile file ∉ ops) ∧
      performAll [] (ops ++ [.sort]) =
        [⟨none, some 2, 1001, "Unexpected character '#"⟩, ⟨some "z", some 0, 2, "b"⟩,
          ⟨some "z", none, 3, "c"⟩, ⟨some "é", some 2, 1, "a"⟩] := by
  intro ops
  have h : ∀ file, .setFile file ∉ ops := by
    intro file
    simp [ops]
  refine ⟨h, ?_⟩
  obtain ⟨-, -, -, -, -, hbetween, -⟩ := performAll_sort [] h
  rw [← hbetween]
  cbv

/-- Where a file is given in between, what was sorted before it stays in that order. -/
example :
    performAll [] [.add ⟨some "b", none, 1, "a"⟩, .add ⟨some "a", none, 2, "b"⟩, .sort, .setFile "c",
      .sort] = [⟨some "c", none, 2, "b"⟩, ⟨some "c", none, 1, "a"⟩] := by cbv

end Diagnostic

end LoxLexer
