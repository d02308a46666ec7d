namespace Tapewright

/-! Lists with more members put in. -/

/-- The second list is the first one, with members of one kind put in anywhere. -/
inductive Inserted {α : Type} (extra : α → Prop) : List α → List α → Prop where
  | nil : Inserted extra [] []
  | keep {member : α} {fewer more : List α} (rest : Inserted extra fewer more) :
      Inserted extra (member :: fewer) (member :: more)
  | put {member : α} {fewer more : List α} (kind : extra member)
      (rest : Inserted extra fewer more) : Inserted extra fewer (member :: more)

namespace Inserted

variable {α β : Type} {extra : α → Prop} {fewer more : List α}

theorem sublist (inserted : Inserted extra fewer more) : fewer.Sublist more := by
  induction inserted with
  | nil => exact .slnil
  | keep _ ih => exact ih.cons_cons _
  | put _ _ ih => exact ih.cons _

/-- What takes no notice of one kind of members takes no notice of putting them in. -/
theorem filterMap_eq {view : α → Option β} (unseen : ∀ member, extra member → view member = none)
    (inserted : Inserted extra fewer more) : more.filterMap view = fewer.filterMap view := by
  induction inserted with
  | nil => rfl
  | keep _ ih => rw [List.filterMap_cons, List.filterMap_cons, ih]
  | put kind _ ih => rw [List.filterMap_cons_none (unseen _ kind), ih]

theorem filter_eq {keeps : α → Bool} (unseen : ∀ member, extra member → keeps member = false)
    (inserted : Inserted extra fewer more) : more.filter keeps = fewer.filter keeps := by
  rw [← List.filterMap_eq_filter]
  refine inserted.filterMap_eq fun member kind => ?_
  simp [unseen member kind]

end Inserted

end Tapewright
