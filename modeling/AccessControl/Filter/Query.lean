import AccessControl.Filter

/-! Filters as query texts, such as `and(eq(owner.role,admin),in(owner.team,(red,blue)))`. Strings
stand bare, the items of lists stand side by side, all else is compact. -/
namespace AccessControl

mutual

def Json.queryText : Json → String
  | .string s => s
  | .array items => Json.listed (Json.queryTexts items)
  | value => value.compact

def Json.queryTexts : List Json → List String
  | [] => []
  | item :: rest => item.queryText :: Json.queryTexts rest

end

namespace Filter

/-- A head with its arguments in parentheses. -/
def call (head body : String) : String := head ++ "(" ++ body ++ ")"

mutual

def queryText : Filter → String
  | compare .not operand value => call "not" (call "eq" (operand ++ "," ++ value.queryText))
  | compare operator operand value => call operator.name (operand ++ "," ++ value.queryText)
  | oneOf operand values => call "in" (operand ++ "," ++ call "" values.queryText)
  | negate inner => call "not" inner.queryText
  | all children => call "and" (Json.listed (queryTexts children))
  | any children => call "or" (Json.listed (queryTexts children))

def queryTexts : List Filter → List String
  | [] => []
  | child :: rest => child.queryText :: queryTexts rest

end

end Filter
end AccessControl
