import AccessControl.Json.Text
import AccessControl.Operator

/-! What can go wrong with a rule document, a comparison or a record. A place is the location in the
rule document, such as `client.read[0].rule`. -/
namespace AccessControl

/-- The ways in which a rule document has the wrong shape. -/
inductive Malformation where
  | notAnObject (place : String) (got : Json)
  | notAList (place : String)
  | missingCondition (place : String)
  | missingResult (place : String)
  | unknownResult (place text : String)
  | maskEntry (place : String) (got : Json)
  | maskNotAList (place : String) (got : Json)
  | notASinglePair (place : String) (got : Json)
  | negationNotASinglePair (place : Option String) (got : Json)
  | notComparable (place : String) (operator : Operator) (nested : Bool) (got : Json)
  | notAMembershipList (place : String) (got : Json)
  | groupAsOperator (place : String) (aggregator : Aggregator)
  | groupNotAList (place : String) (got : Json)

/-- The ways in which a comparison meets values that it cannot compare. -/
inductive Mismatch where
  | operandNotANumber (operator : Operator) (operand : Json)
  | valueNotANumber (operator : Operator) (value : Json)
  | notAList (got : Json)

inductive RecordFault where
  | unknownObject (name : String)
  | notAnObject (name : String) (got : Json)

inductive Fault where
  | malformed (cause : Malformation)
  | unknownOperator (name place : String)
  | typeMismatch (cause : Mismatch)
  | unsupportedNesting (place : Option String) (aggregator : Aggregator)
  | invalidResolution (text : String)
  | invalidRecord (cause : RecordFault)

def ticked (s : String) : String := "`" ++ s ++ "`"

def invalidResolutionText (text : String) : String := "Invalid resolution " ++ ticked text

def placed : Option String → String → String
  | none, text => text
  | some place, text => ticked place ++ ": " ++ text

namespace Malformation

def message : Malformation → String
  | notAnObject place got => ticked place ++ " must be an object, got " ++ got.compact
  | notAList place => ticked place ++ " must be a list of rules"
  | missingCondition place => ticked place ++ " is missing `rule`"
  | missingResult place => ticked place ++ " is missing a string `result`"
  | unknownResult place text =>
    placed (some (place ++ ".result")) (invalidResolutionText text)
  | maskEntry place got => ticked (place ++ ".mask") ++ " entries must be strings, got " ++ got.compact
  | maskNotAList place got => ticked (place ++ ".mask") ++ " must be a list, got " ++ got.compact
  | notASinglePair place got =>
    ticked place ++ " must hold a single \x7b\"<operator>\": value\x7d pair, got " ++ got.compact
  | negationNotASinglePair place got =>
    placed place ("`not` expects a scalar or a single \x7b\"<operator>\": value\x7d pair, got "
      ++ got.compact)
  | notComparable place operator nested got =>
    let expected := if nested then "a number" else "a number or a `sbj.`/`ctx.` reference"
    placed (some place)
      (ticked operator.name ++ " expects " ++ expected ++ ", got " ++ got.compact)
  | notAMembershipList place got =>
    placed (some place) ("`in` expects a list or a `sbj.`/`ctx.` reference, got " ++ got.compact)
  | groupAsOperator place aggregator =>
    placed (some place) (ticked aggregator.name ++ " must be used as a key, e.g. \x7b\""
      ++ aggregator.name ++ "\": [...]\x7d")
  | groupNotAList place got => ticked place ++ " must be a list of conditions, got " ++ got.compact

end Malformation

namespace Mismatch

def operatorName : Mismatch → String
  | operandNotANumber operator _ | valueNotANumber operator _ => operator.name
  | notAList _ => Aggregator.oneOf.name

def detail : Mismatch → String
  | operandNotANumber _ operand => "operand " ++ operand.compact ++ " is not a number"
  | valueNotANumber _ value => "value " ++ value.compact ++ " is not a number"
  | notAList got => "expected a list, got " ++ got.compact

end Mismatch

def RecordFault.message : RecordFault → String
  | unknownObject name => "unknown object " ++ ticked name
  | notAnObject name got => ticked name ++ " record must be an object, got " ++ got.compact

namespace Fault

/-- A fault of a nested operator, told where it stands in the document. -/
def locate (place : String) : Fault → Fault
  | malformed (.negationNotASinglePair _ got) => malformed (.negationNotASinglePair (some place) got)
  | unknownOperator name _ => unknownOperator name place
  | unsupportedNesting _ aggregator => unsupportedNesting (some place) aggregator
  | fault => fault

def message : Fault → String
  | malformed cause => "Malformed rule: " ++ cause.message
  | unknownOperator name place => "Unknown operator " ++ ticked name ++ " at " ++ ticked place
  | typeMismatch cause => "Type mismatch in " ++ ticked cause.operatorName ++ ": " ++ cause.detail
  | unsupportedNesting place aggregator =>
    "Unsupported nesting: "
      ++ placed place ("`not` cannot wrap the " ++ ticked aggregator.name ++ " aggregator")
  | invalidResolution text => invalidResolutionText text
  | invalidRecord cause => "Invalid record: " ++ cause.message

def code : Fault → String
  | malformed _ => "gatekeeper::abac::malformed_rule"
  | unknownOperator .. => "gatekeeper::abac::unknown_operator"
  | typeMismatch _ => "gatekeeper::abac::type_mismatch"
  | unsupportedNesting .. => "gatekeeper::abac::unsupported_nesting"
  | invalidResolution _ => "gatekeeper::abac::invalid_resolution"
  | invalidRecord _ => "gatekeeper::abac::invalid_record"

def help : Fault → String
  | malformed _ =>
    "Rules look like \x7b\"result\": \"allow\"|\"deny\", \"rule\": \x7b...\x7d, "
      ++ "\"mask\": [\"field\", ...]\x7d and live under "
      ++ "\x7b\"<resource>\": \x7b\"<action>\": [...]\x7d\x7d"
  | unknownOperator .. =>
    "Supported operators: eq, not, lt, gt, in, and, or. Set engine.unknown_operators = "
      ++ "\"permissive\" to let unknown operators pass"
  | typeMismatch _ => "`lt` and `gt` need numbers on both sides; `in` needs a list"
  | unsupportedNesting .. =>
    "`not` may only wrap eq, not, lt or gt, e.g. \x7b\"sbj.age\": "
      ++ "\x7b\"not\": \x7b\"lt\": 18\x7d\x7d\x7d"
  | invalidResolution _ => "Resolutions are either \"allow\" or \"deny\""
  | invalidRecord _ => "Records are JSON objects whose object name is declared in the schema"

end Fault
end AccessControl
