import AccessControl.Proofs.QueryText

/-! What filters with one query text match. The text of a comparison leaves open the kind of its value, and
under which operator a negated wildcard stands. Filters that agree on that match alike; single comparisons
that do not are told apart by some data. -/
namespace AccessControl
namespace Json

variable {value : Json}

theorem sameValue_string (text : String) : (string text).sameValue (.string text) = true := by
  simp [sameValue, number?, alike]

theorem sameValue_string_array (text : String) (items : List Json) :
    (string text).sameValue (.array items) = false := by
  simp [sameValue, number?, alike]

theorem sameValue_nil_array (items : List Json) :
    (array []).sameValue (.array items) = items.isEmpty := by
  cases items <;> simp [sameValue, number?, alike, itemsAlike]

theorem OfWords.number?_eq_none (words : value.OfWords) : value.number? = none := by
  cases value with
  | string | array => rfl
  | _ => cases words

theorem OfWords.compareNumbers_number (words : value.OfWords) {operator : Operator}
    {test : Int → Int → Bool} {number : Number} :
    compareNumbers operator test (.number number) value =
      .error (.typeMismatch (.valueNotANumber operator value)) := by
  rw [compareNumbers, words.number?_eq_none]
  rfl

theorem OneKind.refl (words : value.OfWords) : value.OneKind value := by
  cases value with
  | string => trivial
  | array items => exact Iff.rfl
  | _ => cases words

end Json

namespace Filter

variable {f g : Filter} {operand : String} {value value' : Json} {data : Json}

mutual

def comparisons : Filter → List Filter
  | negate inner => inner.comparisons
  | all children | any children => listComparisons children
  | comparison => [comparison]

def listComparisons : List Filter → List Filter
  | [] => []
  | child :: rest => child.comparisons ++ listComparisons rest

end

/-- What the text of a comparison leaves open: the kind of its value, and, for the wildcard, which
operator it stands under. -/
def SameSense (f g : Filter) : Prop :=
  f.payload.OneKind g.payload ∧ (f.payload.string? = some wildcard → f.operatorName = g.operatorName)

mutual

theorem length_comparisons : (f : Filter) → {g : Filter} → f.Lookalike g →
    f.comparisons.length = g.comparisons.length
  | .compare .., _, .compare .. | .compare .., _, .plain .. | .oneOf .., _, .oneOf .. => rfl
  | .negate _, _, .nested .. => rfl
  | .negate inner, _, .negate alike => by simpa [comparisons] using length_comparisons inner alike
  | .all children, _, .all each | .any children, _, .any each => by
    simpa [comparisons] using length_listComparisons children each

theorem length_listComparisons : (children : List Filter) → {others : List Filter} →
    List.Forall₂ Lookalike children others →
      (listComparisons children).length = (listComparisons others).length
  | [], _, .nil => rfl
  | child :: rest, _, .cons alike each => by
    simp [listComparisons, length_comparisons child alike, length_listComparisons rest each]

end

theorem holds_not_of_words (words : value.OfWords) :
    (compare .not operand value).holds data = .ok !(attributeAt data operand).sameValue value := by
  have plain : value.isObject = false := by
    cases value with
    | object => cases words
    | _ => rfl
  rw [holds, Operator.apply_not_of_not_isObject plain]

/-- The wildcard apart, a word is negated alike by one operator and by two. -/
theorem holds_nested (words : value.OfWords) (literal : value.string? ≠ some wildcard) :
    (compare .not operand value).holds data = (negate (compare .eq operand value)).holds data := by
  have equality : agrees (attributeAt data operand) value =
      (attributeAt data operand).sameValue value := by simp [agrees, literal]
  rw [holds_not_of_words words, holds, holds, Operator.apply, equality]
  rfl

theorem forall₂_comparisons {r : Filter → Filter → Prop} {children others : List Filter}
    (each : List.Forall₂ Lookalike children others)
    (told : List.Forall₂ r (listComparisons children) (listComparisons others)) :
    List.Forall₂ (fun child other => child.Lookalike other ∧
      List.Forall₂ r child.comparisons other.comparisons) children others := by
  induction each with
  | nil => exact .nil
  | @cons child other children others alike each ih =>
    have long := length_comparisons child alike
    have first := List.forall₂_take_append _ _ _ told
    have behind := List.forall₂_drop_append _ _ _ told
    rw [listComparisons, ← long, List.take_left] at first
    rw [listComparisons, ← long, List.drop_left] at behind
    exact .cons ⟨alike, first⟩ (ih behind)

theorem allHold_eq {children others : List Filter}
    (each : List.Forall₂ (fun child other => child.holds data = other.holds data) children others) :
    allHold data children = allHold data others := by
  induction each with
  | nil => rfl
  | cons same _ ih => rw [allHold, allHold, same, ih]

theorem anyHolds_eq {children others : List Filter}
    (each : List.Forall₂ (fun child other => child.holds data = other.holds data) children others) :
    anyHolds data children = anyHolds data others := by
  induction each with
  | nil => rfl
  | cons same _ ih => rw [anyHolds, anyHolds, same, ih]

/-- One text and one sense make for one meaning. -/
theorem holds_eq_of_lookalike (hf : f.Everywhere OfWords) (hg : g.Everywhere OfWords)
    (alike : f.Lookalike g) (told : List.Forall₂ SameSense f.comparisons g.comparisons) :
    f.holds data = g.holds data := by
  have apart : Operator.not.name ≠ Operator.eq.name := by decide
  induction hf generalizing g with
  | @intro f here below ih =>
    cases alike with
    | compare operator operand text =>
      obtain ⟨⟨kind, _⟩, -⟩ := List.forall₂_cons.1 told
      rw [Json.eq_of_queryText_eq here.2 hg.here.2 kind text]
    | plain operand text =>
      obtain ⟨⟨kind, wild⟩, -⟩ := List.forall₂_cons.1 told
      have words := (everywhere_negate_iff.1 hg).2.here
      obtain rfl := Json.eq_of_queryText_eq here.2 words.2 kind text
      exact holds_nested here.2 fun star => apart (wild star)
    | nested operand text =>
      obtain ⟨⟨kind, wild⟩, -⟩ := List.forall₂_cons.1 told
      have words := (below _ (List.mem_singleton_self _)).here
      obtain rfl := Json.eq_of_queryText_eq words.2 hg.here.2 kind text
      exact (holds_nested words.2 fun star => apart (wild star).symm).symm
    | oneOf operand text =>
      obtain ⟨⟨kind, _⟩, -⟩ := List.forall₂_cons.1 told
      rw [Json.eq_of_queryText_eq here.2 hg.here.2 kind text]
    | negate alike =>
      have inner := ih _ (List.mem_singleton_self _) (everywhere_negate_iff.1 hg).2 alike told
      rw [holds, holds, inner]
    | all each =>
      have same := forall₂_imp_of_mem (fun child hc other ho both =>
        ih child hc (hg.of_parts other ho) both.1 both.2) (forall₂_comparisons each told)
      exact allHold_eq same
    | any each =>
      have same := forall₂_imp_of_mem (fun child hc other ho both =>
        ih child hc (hg.of_parts other ho) both.1 both.2) (forall₂_comparisons each told)
      exact anyHolds_eq same

/-- One comparison under negations. -/
def Single : Filter → Prop
  | compare .. | oneOf .. => True
  | negate inner => inner.Single
  | all _ | any _ => False

/-- Some data has any given attribute. -/
theorem exists_attributeAt (operand : String) (value : Json) :
    ∃ data, attributeAt data operand = value := by
  refine ⟨.object [(operand, value)], ?_⟩
  have flat : (Json.object [(operand, value)]).get? operand = some value := by
    simp [Json.get?, Keyed.get?]
  cases cut : Path.cut? operand with
  | none =>
    have whole : Path.ofText operand = [operand] := Path.ofText_of_cut?_eq_none cut
    simp [attributeAt, whole, Json.getPath?, flat]
  | some parts =>
    obtain ⟨head, rest⟩ := parts
    have whole := Path.ofText_of_cut?_eq_some cut
    have short : operand ≠ head := by
      rintro rfl
      have long := congrArg List.length (Path.cut?_eq_some cut)
      simp at long
    have missing : (Json.object [(operand, value)]).get? head = none := by
      simp [Json.get?, Keyed.get?, short]
    simp [attributeAt, whole, Json.getPath?, missing, flat]

/-- A test that knows strings from lists, and lists by their items. -/
structure Telling (test : Json → Json → Bool) : Prop where
  lists : ∀ operand items, test operand (.array items) = operand.sameValue (.array items)
  words : ∀ text, test (.string text) (.string text) = true

theorem telling_sameValue : Telling Json.sameValue where
  lists _ _ := rfl
  words := Json.sameValue_string

theorem telling_agrees : Telling agrees where
  lists operand items := by simp [agrees, Json.string?]
  words text := by simp [agrees, Json.sameValue_string]

theorem Telling.oneKind {test test' : Json → Json → Bool} (ht : Telling test) (ht' : Telling test')
    (hv : value.OfWords) (hv' : value'.OfWords)
    (same : ∀ operand, test operand value = test' operand value') : value.OneKind value' := by
  cases value with
  | string text =>
    cases value' with
    | string => trivial
    | array items =>
      have found := same (.string text)
      rw [ht.words, ht'.lists, Json.sameValue_string_array] at found
      cases found
    | _ => cases hv'
  | array items =>
    cases value' with
    | string text =>
      have found := same (.string text)
      rw [ht'.words, ht.lists, Json.sameValue_string_array] at found
      cases found
    | array others =>
      have both := same (.array [])
      rw [ht.lists, ht'.lists, Json.sameValue_nil_array, Json.sameValue_nil_array] at both
      simp [Json.OneKind, ← List.isEmpty_iff, both]
    | _ => cases hv'
  | _ => cases hv

theorem oneKind_of_compare {operator : Operator} (hv : value.OfWords) (hv' : value'.OfWords)
    (same : ∀ data, (compare operator operand value).holds data =
      (compare operator operand value').holds data) : value.OneKind value' := by
  cases operator with
  | eq =>
    refine telling_agrees.oneKind telling_agrees hv hv' fun given => ?_
    obtain ⟨data, rfl⟩ := exists_attributeAt operand given
    simpa [holds, Operator.apply] using same data
  | not =>
    refine telling_sameValue.oneKind telling_sameValue hv hv' fun given => ?_
    obtain ⟨data, rfl⟩ := exists_attributeAt operand given
    simpa [holds_not_of_words hv, holds_not_of_words hv'] using same data
  | lt | gt =>
    obtain ⟨data, found⟩ := exists_attributeAt operand (.number (.integer 0))
    have fault := same data
    rw [holds, holds, found, Operator.apply, Operator.apply, hv.compareNumbers_number,
      hv'.compareNumbers_number] at fault
    cases fault
    exact .refl hv

theorem eq_nil_of_contains {items : List Json} (words : (Json.array items).OfWords)
    (none : ∀ given, contains (.array items) given = .ok false) : items = [] := by
  cases items with
  | nil => rfl
  | cons item rest =>
    obtain ⟨text, rfl, -⟩ := words item List.mem_cons_self
    have found := none (.string text)
    simp [contains, Json.sameValue_string] at found

theorem oneKind_of_oneOf (hv : value.OfWords) (hv' : value'.OfWords)
    (same : ∀ data, (oneOf operand value).holds data = (oneOf operand value').holds data) :
    value.OneKind value' := by
  have listed (given : Json) : contains value given = contains value' given := by
    obtain ⟨data, rfl⟩ := exists_attributeAt operand given
    exact same data
  cases value with
  | string text =>
    cases value' with
    | string => trivial
    | array items =>
      have refused := listed .null
      cases refused
    | _ => cases hv'
  | array items =>
    cases value' with
    | string text =>
      have refused := listed .null
      cases refused
    | array others =>
      constructor
      · rintro rfl
        exact eq_nil_of_contains hv' fun given => (listed given).symm
      · rintro rfl
        exact eq_nil_of_contains hv listed
    | _ => cases hv'
  | _ => cases hv

theorem eq_of_nested (hv : value.OfWords) (hv' : value'.OfWords)
    (text : value.queryText = value'.queryText)
    (same : ∀ data, (compare .not operand value).holds data =
      (negate (compare .eq operand value')).holds data) :
    value = value' ∧ value.string? ≠ some wildcard := by
  have compared (given : Json) : given.sameValue value = agrees given value' := by
    obtain ⟨data, rfl⟩ := exists_attributeAt operand given
    have both := same data
    rw [holds_not_of_words hv] at both
    simpa [holds, Operator.apply, pure, Except.pure, bind, Except.bind] using both
  have kind : value.OneKind value' := telling_sameValue.oneKind telling_agrees hv hv' compared
  obtain rfl := Json.eq_of_queryText_eq hv hv' kind text
  refine ⟨rfl, fun star => ?_⟩
  have found := compared .null
  cases value with
  | string text => simp [agrees, star, Json.sameValue, Json.number?, Json.alike] at found
  | _ => cases star

theorem holds_eq_of_negate (same : (negate f).holds data = (negate g).holds data) :
    f.holds data = g.holds data := by
  rw [holds, holds] at same
  cases hf : f.holds data <;> cases hg : g.holds data <;>
    simp_all [bind, Except.bind, pure, Except.pure]

theorem sense_of_holds_eq (hf : f.Everywhere OfWords) (hg : g.Everywhere OfWords)
    (alike : f.Lookalike g) (single : f.Single) (same : ∀ data, f.holds data = g.holds data) :
    List.Forall₂ SameSense f.comparisons g.comparisons := by
  induction hf generalizing g with
  | @intro f here below ih =>
    cases alike with
    | compare operator operand text =>
      exact .cons ⟨oneKind_of_compare here.2 hg.here.2 same, fun _ => rfl⟩ .nil
    | plain operand text =>
      have words := (everywhere_negate_iff.1 hg).2.here
      obtain ⟨rfl, literal⟩ := eq_of_nested here.2 words.2 text same
      exact .cons ⟨.refl here.2, fun star => absurd star literal⟩ .nil
    | nested operand text =>
      have words := (below _ (List.mem_singleton_self _)).here
      obtain ⟨rfl, literal⟩ := eq_of_nested hg.here.2 words.2 text.symm fun data => (same data).symm
      exact .cons ⟨.refl words.2, fun star => absurd star literal⟩ .nil
    | oneOf operand text =>
      exact .cons ⟨oneKind_of_oneOf here.2 hg.here.2 same, fun _ => rfl⟩ .nil
    | @negate inner other alike =>
      have words := (everywhere_negate_iff.1 hg).2
      have deeper := ih inner (List.mem_singleton_self inner) words alike single
        fun data => holds_eq_of_negate (same data)
      exact deeper
    | all each | any each => exact single.elim

/-- What a text leaves open is all that its meaning may hang on. Two filters with one text match alike,
up to the faults, if their comparisons have one sense, pair by pair; and a single comparison, under any
number of negations, matches like another one with its text only then. -/
theorem holds_eq_of_queryText_eq (hf : f.Everywhere OfWords) (hg : g.Everywhere OfWords)
    (same : f.queryText = g.queryText) :
    (List.Forall₂ SameSense f.comparisons g.comparisons → ∀ data, f.holds data = g.holds data) ∧
    (f.Single → (∀ data, f.holds data = g.holds data) →
      List.Forall₂ SameSense f.comparisons g.comparisons) := by
  have alike : f.Lookalike g := (queryText_eq_iff hf hg).1 same
  exact ⟨fun told data => holds_eq_of_lookalike hf hg alike told, sense_of_holds_eq hf hg alike⟩

theorem holds_eq_of_queryText_eq_closed :
    (compare .not "state" (.string "closed")).queryText = Condition.notClosed.queryText ∧
    ∀ data, (compare .not "state" (.string "closed")).holds data = Condition.notClosed.holds data := by
  have words : IsWord "state".toList ∧ (Json.string "closed").OfWords := by
    simp [IsWord, isDelimiter, Json.OfWords]
  have one : (compare .not "state" (.string "closed")).Everywhere OfWords := .of_leaf rfl words
  have equality : (compare .eq "state" (.string "closed")).Everywhere OfWords := .of_leaf rfl words
  have two : Condition.notClosed.Everywhere OfWords :=
    everywhere_negate_iff.2 ⟨trivial, equality⟩
  have same : (compare .not "state" (.string "closed")).queryText = Condition.notClosed.queryText := by
    cbv
  have told : List.Forall₂ SameSense (compare .not "state" (.string "closed")).comparisons
      Condition.notClosed.comparisons := .cons ⟨trivial, by simp [payload, Json.string?, wildcard]⟩ .nil
  exact ⟨same, (holds_eq_of_queryText_eq one two same).1 told⟩

/-- The text alone does not tell what a filter matches, not even for filters that conditions leave. The
wildcard is any string where `not` stands before `eq`, and an asterisk where it does not. -/
theorem queryText_ambiguous :
    ¬ ∀ f g : Filter, f.Emitted → g.Emitted → f.Everywhere OfWords → g.Everywhere OfWords →
      f.queryText = g.queryText → ∀ data, f.holds data = g.holds data := by
  intro determined
  have words : IsWord "state".toList ∧ (Json.string "*").OfWords := by
    simp [IsWord, isDelimiter, Json.OfWords]
  have one : (compare .not "state" (.string "*")).Everywhere OfWords := .of_leaf rfl words
  have equality : (compare .eq "state" (.string "*")).Everywhere OfWords := .of_leaf rfl words
  have two : (negate (compare .eq "state" (.string "*"))).Everywhere OfWords :=
    everywhere_negate_iff.2 ⟨trivial, equality⟩
  have emitted : Emitted (compare .not "state" (.string "*")) :=
    ⟨leadOfRed, [.compare "obj.state" .not (.string "*")], ⟨true, [_]⟩, by cbv,
      List.mem_singleton_self _⟩
  have emitted' : Emitted (negate (compare .eq "state" (.string "*"))) :=
    ⟨leadOfRed, [.compare "obj.state" .not (.object [("eq", .string "*")])], ⟨true, [_]⟩, by cbv,
      List.mem_singleton_self _⟩
  have both := determined _ _ emitted emitted' one two (by cbv) (.object [("state", .string "open")])
  have held : (compare .not "state" (.string "*")).holds (.object [("state", .string "open")]) =
      .ok true := by cbv
  have failed : (negate (compare .eq "state" (.string "*"))).holds
      (.object [("state", .string "open")]) = .ok false := by cbv
  rw [held, failed] at both
  cases both

end Filter
end AccessControl
