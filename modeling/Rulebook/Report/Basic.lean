import Rulebook.Catalog
import Rulebook.Object.Value

/-!
# Reports

A report collects what is wrong with one property: the messages of the rules that failed, by rule
type in the order of their first failure, and the reports on the value itself. That something is
absent and that it is empty are different things here, as reports need not come from the engine.
-/

set_option autoImplicit false

namespace Rulebook

/-- The messages of failed rules, by rule type. -/
abbrev Failures := Catalog String (List Value)

/-- What is wrong with one property. -/
inductive Report where
  | mk (property : String) (location : Option String) (failed : Option Failures)
    (children : Option (List Report)) (index : Option Int)
deriving Inhabited

namespace Report

/-- The name of the property. -/
def property : Report → String
  | mk property _ _ _ _ => property

/-- Where the rules of the property were declared. -/
def location : Report → Option String
  | mk _ location _ _ _ => location

/-- The messages of failed rules, by rule type. -/
def failed : Report → Option Failures
  | mk _ _ failed _ _ => failed

/-- The reports on the value itself. -/
def children : Report → Option (List Report)
  | mk _ _ _ children _ => children

/-- The place of the element in a sequence. -/
def index : Report → Option Int
  | mk _ _ _ _ index => index

/-! ## Equality -/

mutual

/-- Whether two reports are equal, with the reason. -/
def decideEq : (a b : Report) → Decidable (a = b)
  | mk p l f none i, mk p' l' f' c' i' =>
    match c' with
    | none => decidable_of_iff (p = p' ∧ l = l' ∧ f = f' ∧ i = i') (by simp)
    | some _ => isFalse (by simp)
  | mk p l f (some c) i, mk p' l' f' c' i' =>
    match c' with
    | none => isFalse (by simp)
    | some c' =>
      match decideEqList c c' with
      | isTrue h => decidable_of_iff (p = p' ∧ l = l' ∧ f = f' ∧ i = i') (by simp [h])
      | isFalse h => isFalse (by simp [h])

/-- Whether two lists of reports are equal, with the reason. -/
def decideEqList : (a b : List Report) → Decidable (a = b)
  | [], [] => isTrue rfl
  | [], _ :: _ => isFalse nofun
  | _ :: _, [] => isFalse nofun
  | a :: as, b :: bs =>
    match decideEq a b, decideEqList as bs with
    | isTrue h, isTrue h' => isTrue (by rw [h, h'])
    | isFalse h, _ => isFalse (by simp [h])
    | _, isFalse h => isFalse (by simp [h])

end

instance : DecidableEq Report := decideEq

/-! ## Messages -/

mutual

/-- All messages of a report, its own before those of its children. -/
def messages : Report → List Value
  | mk _ _ failed none _ => (failed.getD []).flatMap (·.2)
  | mk _ _ failed (some children) _ => (failed.getD []).flatMap (·.2) ++ messagesAll children

/-- All messages of reports, one report after the other. -/
def messagesAll : List Report → List Value
  | [] => []
  | r :: rest => messages r ++ messagesAll rest

end

/-- The first message of the failed rules themselves. -/
def firstMessage? (r : Report) : Option Value :=
  (r.failed.getD []).findSome? fun (_, messages) => messages.head?

end Report

end Rulebook
