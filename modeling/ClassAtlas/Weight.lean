/-!
# Weights of lists

The weight of a list is the sum of the weights of its members.  Replacing or removing
one member changes the weight by that member's share.
-/

namespace ClassAtlas

/-- The sum of the weights of the members. -/
def weightOf {α : Type} (weigh : α → Nat) (list : List α) : Nat :=
  list.foldr (fun member total => weigh member + total) 0

namespace weightOf

variable {α : Type} (weigh : α → Nat)

@[simp] theorem nil : weightOf weigh [] = 0 := rfl

@[simp] theorem cons (head : α) (tail : List α) :
    weightOf weigh (head :: tail) = weigh head + weightOf weigh tail := rfl

@[simp] theorem append (left right : List α) :
    weightOf weigh (left ++ right) = weightOf weigh left + weightOf weigh right := by
  induction left with
  | nil => simp
  | cons head tail ih => simp only [List.cons_append, cons, ih, Nat.add_assoc]

theorem set (new : α) {list : List α} {position : Nat} {old : α}
    (found : list[position]? = some old) :
    weightOf weigh (list.set position new) + weigh old = weightOf weigh list + weigh new := by
  induction list generalizing position with
  | nil => simp at found
  | cons head tail ih =>
      cases position with
      | zero =>
          simp only [List.getElem?_cons_zero, Option.some.injEq] at found
          subst found
          simp only [List.set_cons_zero, cons]
          omega
      | succ position =>
          simp only [List.getElem?_cons_succ] at found
          have smaller := ih found
          simp only [List.set_cons_succ, cons]
          omega

theorem eraseIdx {list : List α} {position : Nat} {old : α}
    (found : list[position]? = some old) :
    weightOf weigh (list.eraseIdx position) + weigh old = weightOf weigh list := by
  induction list generalizing position with
  | nil => simp at found
  | cons head tail ih =>
      cases position with
      | zero =>
          simp only [List.getElem?_cons_zero, Option.some.injEq] at found
          subst found
          simp only [List.eraseIdx_cons_zero, cons]
          omega
      | succ position =>
          simp only [List.getElem?_cons_succ] at found
          have smaller := ih found
          simp only [List.eraseIdx_cons_succ, cons]
          omega

theorem map_le {change : α → α} (lighter : ∀ member, weigh (change member) ≤ weigh member)
    (list : List α) : weightOf weigh (list.map change) ≤ weightOf weigh list := by
  induction list with
  | nil => simp
  | cons head tail ih =>
      have first := lighter head
      simp only [List.map_cons, cons]
      omega

end weightOf
end ClassAtlas
