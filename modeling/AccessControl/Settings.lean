import AccessControl.Json.Structure
import AccessControl.Rule

/-! Settings of a guard: the resolution where no rule passes, and what becomes of operators that are
not in the vocabulary. -/
namespace AccessControl

structure Settings where
  fallback : Resolution
  operators : OperatorPolicy
deriving DecidableEq

namespace Settings

/-- Without any settings requests are denied and rule documents are read strictly. -/
def initial : Settings := ⟨.deny, .strict⟩

def fallbackKey : String := "default_resolution"

def operatorsKey : String := "unknown_operators"

/-- A setting that is absent keeps its initial value; one that is there must be readable. -/
def choose {α β : Type} (read? : β → Option α) (initial : α) : Option β → Option α
  | none => some initial
  | some value => read? value

def ofJson? (value : Json) : Option Settings :=
  match value.structure? [[fallbackKey], [operatorsKey]] with
  | some [fallback, operators] => do
    return ⟨← choose (fun (v : Json) => v.choice?.bind Resolution.ofName?) initial.fallback fallback,
      ← choose (fun (v : Json) => v.choice?.bind OperatorPolicy.ofName?) initial.operators operators⟩
  | _ => none

def toJson (settings : Settings) : Json :=
  .object [(fallbackKey, .string settings.fallback.name),
    (operatorsKey, .string settings.operators.name)]

end Settings
end AccessControl
