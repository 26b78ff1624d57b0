import AccessControl.Proofs.Cascade
import AccessControl.Proofs.Reading
import AccessControl.Proofs.Rulebook
import AccessControl.Proofs.Spelling
import AccessControl.Proofs.Visited

/-! Which faults are left to a request once its rulebook has been read. Reading refuses every literal
value that `not` cannot be applied to. It does not see what a reference will stand for: under `not`,
an attribute that is an object is taken for a chain of operators. -/
namespace AccessControl

theorem Json.Negated.negatable {value : Json} (h : value.Negated) : value.negatable = true := by
  induction h with
  | @plain value free =>
    refine negatable_of_ne_object fun members same => ?_
    rw [same] at free
    cases free
  | eq value => exact negatable_pair_iff.2 ⟨.eq, rfl, by simp⟩
  | lt bound => exact negatable_pair_iff.2 ⟨.lt, rfl, by simp⟩
  | gt bound => exact negatable_pair_iff.2 ⟨.gt, rfl, by simp⟩
  | not _ ih => exact negatable_pair_iff.2 ⟨.not, rfl, fun _ => ih⟩

/-- A literal value is refused by reading if `not` cannot be applied to it. -/
theorem negatable_of_checkComparable {place : String} {nested : Bool} {operator : Operator}
    {value : Json} (h : checkComparable place nested operator value = .ok ()) :
    operator = .not → value.negatable = true := by
  rintro rfl
  have negated : value.Negated := checkComparable_eq_ok_iff.1 h
  exact negated.negatable

def Entry.Sound : Entry → Prop
  | .compare _ .not value => value.negatable = true
  | _ => True

theorem Entry.Checked.sound {entry : Entry} (checked : entry.Checked) : entry.Sound := by
  cases entry with
  | compare operand operator value =>
    obtain ⟨place, comparable⟩ := checked
    have negatable := negatable_of_checkComparable comparable
    cases operator with
    | not => exact negatable rfl
    | eq | lt | gt => trivial
  | oneOf | all | any | unknown => trivial

theorem Rule.sound_ofJson {policy : OperatorPolicy} {place : String} {document : Json} {rule : Rule}
    (h : Rule.ofJson policy place document = .ok rule) : rule.condition.Everywhere Entry.Sound := by
  cases document with
  | object members =>
    rw [Rule.ofJson] at h
    cases found : Keyed.get? "rule" members with
    | none =>
      rw [found] at h
      cases h
    | some value =>
      simp only [found, bind_eq_ok_iff, pure_eq_ok_iff] at h
      obtain ⟨condition, hc, result, -, mask, -, rfl⟩ := h
      exact (Condition.checked_ofJson policy value hc).mono fun _ => Entry.Checked.sound
  | null | bool _ | number _ | string _ | array _ => cases h

namespace Rulebook

variable {policy : OperatorPolicy}

theorem sound_ofJson {document : Json} {book : Rulebook} (h : ofJson policy document = .ok book) :
    ∀ rule ∈ book.rules, rule.condition.Everywhere Entry.Sound := by
  intro rule hm
  obtain ⟨listed, -, read⟩ := exists_of_mem_right (rules_ofJson h) hm
  exact Rule.sound_ofJson read

end Rulebook

namespace Guard

variable {guard : Guard}

/-- Which requests are tame once a rulebook has been read: those where no reference under `not`, of
all entries that the request comes to, stands for an object that is no chain of operators. Matching
records adds no fault, and masking has none that one of the records in it would not have. -/
theorem request_tame_iff {policy : OperatorPolicy} {document : Json}
    (read : Rulebook.ofJson policy document = .ok guard.rulebook) (action : String) :
    (∀ resource, Tame (guard.check resource action) ↔
      ∀ operand value, .compare operand .not value ∈ guard.visited resource action →
        value.reference?.isSome → (guard.attributes.substitute value).negatable = true) ∧
    (∀ record, Tame (guard.checkRecord record action) ↔
      Tame (guard.check record.type.name action)) ∧
    (∀ record : Record, (record.Everywhere fun inner => Tame (guard.check inner.type.name action)) →
      Tame (guard.mask action record)) := by
  refine ⟨fun resource => ?_, fun record => tame_checkRecord_iff guard record action,
    fun record => tame_mask⟩
  have sound : ∀ rule ∈ guard.rulebook.candidates resource action,
      rule.condition.Everywhere Entry.Sound :=
    fun rule hm => Rulebook.sound_ofJson read rule (Rulebook.mem_rules_of_mem_candidates hm)
  rw [tame_check_iff]
  constructor
  · intro tame operand value hm _
    exact Entry.tame_compare_iff.1 (tame _ hm) rfl
  · intro resolves entry hm
    obtain ⟨literal, leaf⟩ := forall_visitedEntries sound entry hm
    cases entry with
    | compare operand operator value =>
      refine Entry.tame_compare_iff.2 fun negated => ?_
      subst negated
      cases refers : value.reference? with
      | some target => exact resolves operand value hm (by rw [refers]; rfl)
      | none =>
        rw [Attributes.substitute, refers]
        exact literal
    | oneOf operand values => exact Entry.tame_oneOf operand values
    | all conditions => cases leaf
    | any conditions => cases leaf
    | unknown operand operator value => exact tame_ok _

def rivalGuard (team : Json) : Guard where
  attributes := ⟨.object [("role", .string "lead"), ("team", team)], .null⟩
  rulebook := ⟨[("task", [("get", [⟨[.compare "sbj.role" .not (.string "sbj.team")], [], .allow⟩])])]⟩
  fallback := .deny

def rivalRules : Json :=
  .object [("task", .object [("get", .array [.object [("result", .string "allow"),
    ("rule", .object [("sbj.role", .object [("not", .string "sbj.team")])])]])])]

theorem ofJson_rivalRules (policy : OperatorPolicy) (team : Json) :
    Rulebook.ofJson policy rivalRules = .ok (rivalGuard team).rulebook := by
  cbv

def twoNames : Json := .object [("first", .null), ("last", .null)]

def emptyTask : Record := .empty ⟨"task", []⟩

theorem request_tame_iff_rivals :
    Rulebook.ofJson .strict rivalRules = .ok (rivalGuard (.string "red")).rulebook ∧
      Tame ((rivalGuard (.string "red")).check "task" "get") ∧
      Tame ((rivalGuard (.string "red")).checkRecord emptyTask "get") ∧
      Tame ((rivalGuard (.string "red")).mask "get" emptyTask) ∧
      Rulebook.ofJson .strict rivalRules = .ok (rivalGuard twoNames).rulebook ∧
      ¬ Tame ((rivalGuard twoNames).check "task" "get") := by
  have read (team : Json) := ofJson_rivalRules .strict team
  obtain ⟨checks, checksRecord, masks⟩ := request_tame_iff (read (.string "red")) "get"
  have visited : (rivalGuard (.string "red")).visited "task" "get" =
      [.compare "sbj.role" .not (.string "sbj.team")] := by cbv
  have tame : Tame ((rivalGuard (.string "red")).check "task" "get") := by
    refine (checks "task").2 fun operand value hm _ => ?_
    obtain ⟨rfl, rfl⟩ : operand = "sbj.role" ∧ value = .string "sbj.team" := by
      simpa [visited] using hm
    cbv
  refine ⟨read _, tame, (checksRecord emptyTask).2 tame, masks emptyTask ?_, read _, ?_⟩
  · exact .intro tame (by simp [emptyTask, Record.empty])
  · intro wrong
    have visited : (rivalGuard twoNames).visited "task" "get" =
        [.compare "sbj.role" .not (.string "sbj.team")] := by cbv
    have negatable := ((request_tame_iff (read twoNames) "get").1 "task").1 wrong
      "sbj.role" (.string "sbj.team") (by simp [visited]) (by cbv)
    have stuck :
        ((rivalGuard twoNames).attributes.substitute (.string "sbj.team")).negatable = false := by cbv
    rw [stuck] at negatable
    cases negatable

/-- The rulebook has been read, and still requests fail with each fault of the shape of a rule. -/
theorem shape_faults_of_requests :
    Rulebook.ofJson .strict rivalRules = .ok (rivalGuard twoNames).rulebook ∧
      (rivalGuard twoNames).check "task" "get" =
        .error (.malformed (.negationNotASinglePair none twoNames)) ∧
      (rivalGuard twoNames).checkRecord emptyTask "get" =
        .error (.malformed (.negationNotASinglePair none twoNames)) ∧
      (rivalGuard twoNames).mask "get" emptyTask =
        .error (.malformed (.negationNotASinglePair none twoNames)) ∧
      (rivalGuard (.object [("near", .null)])).check "task" "get" =
        .error (.unknownOperator "near" "not") ∧
      (rivalGuard (.object [("in", .null)])).check "task" "get" =
        .error (.unsupportedNesting none .oneOf) :=
  ⟨ofJson_rivalRules .strict twoNames, by cbv, by cbv, by cbv, by cbv, by cbv⟩

end Guard
end AccessControl
