import AccessControl.Json.Basic

/-! When two values count as equal. Inside lists and objects equality respects the kind of a number
and ignores the order of keys; at the top two numbers are compared by their view alone. -/
namespace AccessControl.Json

mutual

def alike : Json → Json → Bool
  | .null, .null => true
  | .bool a, .bool b => a == b
  | .number m, .number n => m.alike n
  | .string s, .string t => s == t
  | .array as, .array bs => itemsAlike as bs
  | .object as, .object bs => as.length == bs.length && membersAlike as bs
  | _, _ => false

def itemsAlike : List Json → List Json → Bool
  | [], [] => true
  | a :: as, b :: bs => alike a b && itemsAlike as bs
  | _, _ => false

/-- Every member has its like under the same key of the other object. -/
def membersAlike : List (String × Json) → List (String × Json) → Bool
  | [], _ => true
  | (key, a) :: as, bs =>
    (match Keyed.get? key bs with
      | some b => alike a b
      | none => false) && membersAlike as bs

end

def sameValue (a b : Json) : Bool :=
  match a.number?, b.number? with
  | some x, some y => x.key == y.key
  | _, _ => a.alike b

theorem sameValue_number (m n : Number) :
    sameValue (.number m) (.number n) = (m.view.key == n.view.key) := rfl

theorem sameValue_eq_alike {a b : Json} (h : a.number? = none ∨ b.number? = none) :
    a.sameValue b = a.alike b := by
  unfold sameValue
  rcases h with h | h <;> rw [h]
  cases a.number? <;> rfl

end AccessControl.Json
