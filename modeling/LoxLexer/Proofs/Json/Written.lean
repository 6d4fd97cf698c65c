import LoxLexer.Json.Layout
import LoxLexer.Proofs.Json.Records

/-!
# What is written in a layout

Both layouts write lists and records of JSON. The pretty one differs by the blanks that it puts before
every item and before the closing bracket, and these belong to the items.

* `Layout.toList_bracketed`: items in brackets, character by character.
* `Layout.enclosed_bracketed`: items in brackets are enclosed in them, with the blanks of the layout.
* `Layout.listOf_list`, `Layout.recordOf_record`: lists of values and records of named values.
-/

namespace LoxLexer.Json

theorem stringText_quoted (s : String) : StringText s (quoted s).toList := by
  rw [quoted, String.toList_ofList]
  exact .mk (spells_flatMap_escape s.toList)

theorem Space.append {t u : List Char} (ht : Space t) (hu : Space u) : Space (t ++ u) := by
  rw [Space, List.forall_mem_append]
  exact ⟨ht, hu⟩

namespace Layout

/-! ## §1 Characters -/

/-- What stands before an item that is `depth` brackets deep. -/
def lead : Layout → Nat → List Char
  | compact, _ => []
  | pretty, depth => (newLine depth).toList

theorem intercalate_cons_eq {α : Type*} (sep x : List α) (xs : List (List α)) :
    sep.intercalate (x :: xs) = x ++ xs.flatMap (sep ++ ·) := by
  induction xs generalizing x with
  | nil => simp
  | cons y ys ih =>
    rw [List.intercalate_cons_cons, ih, List.flatMap_cons, List.append_assoc, List.append_assoc]

/-- Items in brackets: each but the first has a comma before it. -/
theorem toList_bracketed (layout : Layout) (depth : Nat) (opening closing : String)
    (item : String) (items : List String) :
    (layout.bracketed depth opening closing (item :: items)).toList =
      opening.toList ++ (layout.lead (depth + 1) ++ (item.toList ++
        ((items.flatMap fun i => ',' :: (layout.lead (depth + 1) ++ i.toList)) ++
          (layout.lead depth ++ closing.toList)))) := by
  cases layout <;>
    simp [bracketed, lead, String.toList_intercalate, intercalate_cons_eq, List.flatMap_map]

theorem toList_member (layout : Layout) (name value : String) :
    (layout.member name value).toList = (layout.member name "").toList ++ value.toList := by
  simp [member]

theorem space_lead (layout : Layout) (depth : Nat) : Space (layout.lead depth) := by
  cases layout with
  | compact => exact Space.nil
  | pretty =>
    have hline : isBlank '\n' = true := rfl
    have hspace : isBlank ' ' = true := rfl
    intro c hc
    rw [lead, newLine, String.toList_ofList] at hc
    rcases List.mem_cons.mp hc with rfl | hc
    · exact hline
    · rw [List.eq_of_mem_replicate hc]
      exact hspace

/-! ## §2 Items -/

section
variable {α : Type} {Item : α → List Char → Prop}

/-- Items with commas between them, blanks before each of them, and blanks after the last one. -/
theorem commaSeparated_flatMap
    (hbefore : ∀ a t blanks, Item a t → Space blanks → Item a (blanks ++ t))
    (hafter : ∀ a t blanks, Item a t → Space blanks → Item a (t ++ blanks))
    {lead tail : List Char} (hlead : Space lead) (htail : Space tail) {a : α} {item : String}
    (hitem : Item a item.toList) {as : List α} {items : List String}
    (h : List.Forall₂ (fun a i => Item a i.toList) as items) :
    CommaSeparated Item (a :: as)
      (lead ++ (item.toList ++ ((items.flatMap fun i => ',' :: (lead ++ i.toList)) ++ tail))) := by
  induction h generalizing a item with
  | nil => exact .one (hbefore _ _ _ (hafter _ _ _ hitem htail) hlead)
  | cons hnext _ ih =>
    have hmore := CommaSeparated.more (hbefore _ _ _ hitem hlead) (ih hnext)
    simpa [List.append_assoc] using hmore

/-- **Items in brackets are enclosed in them**, in either layout. -/
theorem enclosed_bracketed
    (hbefore : ∀ a t blanks, Item a t → Space blanks → Item a (blanks ++ t))
    (hafter : ∀ a t blanks, Item a t → Space blanks → Item a (t ++ blanks))
    (b : Bracket) (layout : Layout) (depth : Nat) {opening closing : String}
    (hopening : opening.toList = [b.opening]) (hclosing : closing.toList = [b.closing])
    {as : List α} {items : List String} (h : List.Forall₂ (fun a i => Item a i.toList) as items) :
    Enclosed b Item as (layout.bracketed depth opening closing items).toList := by
  cases h with
  | nil =>
    have hempty : Enclosed b Item [] (b.opening :: ([] ++ [b.closing])) := .empty Space.nil
    simpa [bracketed, hopening, hclosing] using hempty
  | cons hitem hmore =>
    have hitems := Enclosed.items (b := b) (commaSeparated_flatMap hbefore hafter
      (layout.space_lead (depth + 1)) (layout.space_lead depth) hitem hmore)
    rw [toList_bracketed, hopening, hclosing]
    simpa [List.append_assoc] using hitems

end

/-! ## §3 Lists and records -/

theorem element_self (t : List Char) : Element t t := by
  have h : Element t ([] ++ (t ++ [])) := .mk Space.nil Space.nil
  rwa [List.nil_append, List.append_nil] at h

/-- **A list** is the list of its values. -/
theorem listOf_list (layout : Layout) (depth : Nat) (values : List String) :
    ListOf (values.map String.toList) (layout.list depth values).toList := by
  apply enclosed_bracketed _ _ .list layout depth rfl rfl
  · rw [List.forall₂_map_left_iff, List.forall₂_same]
    exact fun v _ => element_self v.toList
  · rintro _ _ blanks ⟨hbefore, hafter⟩ hblanks
    rw [← List.append_assoc]
    exact .mk (hblanks.append hbefore) hafter
  · rintro _ _ blanks ⟨hbefore, hafter⟩ hblanks
    rw [List.append_assoc, List.append_assoc]
    exact .mk hbefore (hafter.append hblanks)

/-- A member is a name and a value, with a colon between them. -/
theorem member_member (layout : Layout) (name value : String) :
    Member Named (name, value.toList) (layout.member name value).toList := by
  have hmember : ∀ between, Space between → Member Named (name, value.toList)
      ([] ++ '"' :: (name.toList.flatMap escape ++
        '"' :: ([] ++ ':' :: (between ++ (value.toList ++ []))))) :=
    fun between hbetween =>
      .mk Space.nil (spells_flatMap_escape name.toList) Space.nil hbetween Space.nil
  have hblank : Space [' '] := by
    rw [Space, List.forall_mem_singleton]
    rfl
  cases layout with
  | compact => simpa [member, quoted] using hmember [] Space.nil
  | pretty => simpa [member, quoted] using hmember [' '] hblank

/-- **A record** is the record of its members. -/
theorem recordOf_record (layout : Layout) (depth : Nat) (ms : List (String × String)) :
    RecordOf Named (ms.map fun m => (m.1, m.2.toList)) (layout.record depth ms).toList := by
  apply enclosed_bracketed _ _ .record layout depth rfl rfl
  · rw [List.forall₂_map_left_iff, List.forall₂_map_right_iff, List.forall₂_same]
    exact fun m _ => layout.member_member m.1 m.2
  · rintro _ _ blanks ⟨hbefore, hname, hcolon, hbetween, hafter⟩ hblanks
    rw [← List.append_assoc]
    exact .mk (hblanks.append hbefore) hname hcolon hbetween hafter
  · intro _ _ blanks hmember hblanks
    cases hmember with
    | @mk a _ _ _ _ value _ hbefore hname hcolon hbetween hafter =>
      have h : Member Named (a, value) _ := .mk hbefore hname hcolon hbetween (hafter.append hblanks)
      simpa only [List.append_assoc, List.cons_append] using h

end Layout

end LoxLexer.Json
