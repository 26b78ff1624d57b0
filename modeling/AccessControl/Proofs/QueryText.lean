import AccessControl.Filter.Query
import AccessControl.Proofs.FilterJson

/-! How query texts are read. As long as no attribute and no string holds a parenthesis or a comma, a
text can be read in one way, whatever comes behind it. It tells the shape of its filter, the attributes
and the strings, but neither whether a string stands in a list of its own, nor whether a negated equality
is one operator or two. -/
namespace AccessControl

def isDelimiter (c : Char) : Bool := c == '(' || c == ')' || c == ','

def IsWord (text : List Char) : Prop := ∀ c ∈ text, isDelimiter c = false

/-- A word, or a list of words. -/
def Json.OfWords : Json → Prop
  | .string text => IsWord text.toList
  | .array items => ∀ item ∈ items, ∃ text, item = .string text ∧ IsWord text.toList
  | _ => False

/-- Both strings, or lists that are both empty or both not. -/
def Json.OneKind : Json → Json → Prop
  | .string _, .string _ => True
  | .array items, .array others => items = [] ↔ others = []
  | _, _ => False

section Reading

/-- What comes up to a delimiter is read in one way. -/
theorem eq_of_append_delimiter {p : Char → Bool} {word other rest last : List Char} {c d : Char}
    (hw : ∀ e ∈ word, p e = false) (ho : ∀ e ∈ other, p e = false) (hc : p c = true) (hd : p d = true)
    (same : word ++ c :: rest = other ++ d :: last) : word = other ∧ c = d ∧ rest = last := by
  induction word generalizing other with
  | nil =>
    cases other with
    | nil => simpa using same
    | cons e other =>
      obtain ⟨rfl, -⟩ := List.cons.inj same
      simp [hc] at ho
  | cons e word ih =>
    cases other with
    | nil =>
      obtain ⟨rfl, -⟩ := List.cons.inj same
      simp [hd] at hw
    | cons e' other =>
      obtain ⟨rfl, behind⟩ := List.cons.inj same
      rw [List.forall_mem_cons] at hw ho
      obtain ⟨rfl, ends, rests⟩ := ih hw.2 ho.2 behind
      exact ⟨rfl, ends, rests⟩

variable {α : Type}

def separated (text : α → String) (items : List α) : List Char :=
  items.flatMap fun item => ',' :: (text item).toList

/-- What follows an item starts with a comma, or it is what closes the list. -/
theorem exists_delimiter (text : α → String) (items : List α) (rest : List Char) :
    ∃ c behind, isDelimiter c = true ∧ separated text items ++ ')' :: rest = c :: behind := by
  cases items with
  | nil => exact ⟨')', rest, rfl, rfl⟩
  | cons item items => exact ⟨',', _, rfl, rfl⟩

/-- Where delimiters come next, the two have one text only if they are related. -/
def ReadsAs (text : α → String) (r : α → α → Prop) (item other : α) : Prop :=
  ∀ c d rest last, isDelimiter c = true → isDelimiter d = true →
    (text item).toList ++ c :: rest = (text other).toList ++ d :: last →
      r item other ∧ c :: rest = d :: last

variable {text : α → String} {r : α → α → Prop} {items others : List α} {rest last : List Char}

theorem forall₂_of_separated (reads : ∀ item ∈ items, ∀ other ∈ others, ReadsAs text r item other)
    (same : separated text items ++ ')' :: rest = separated text others ++ ')' :: last) :
    List.Forall₂ r items others ∧ rest = last := by
  induction items generalizing others with
  | nil =>
    cases others with
    | nil => exact ⟨.nil, by simpa [separated] using same⟩
    | cons => simp [separated] at same
  | cons item items ih =>
    cases others with
    | nil => simp [separated] at same
    | cons other others =>
      have behind : (text item).toList ++ (separated text items ++ ')' :: rest) =
          (text other).toList ++ (separated text others ++ ')' :: last) := by
        simpa [separated] using same
      obtain ⟨c, rest', hc, hr⟩ := exists_delimiter text items rest
      obtain ⟨d, last', hd, hl⟩ := exists_delimiter text others last
      have first := reads item List.mem_cons_self other List.mem_cons_self
      rw [hr, hl] at behind
      obtain ⟨related, ends⟩ := first c d rest' last' hc hd behind
      rw [← hr, ← hl] at ends
      have deeper := fun x hx y hy => reads x (List.mem_cons_of_mem _ hx) y (List.mem_cons_of_mem _ hy)
      obtain ⟨others, closed⟩ := ih deeper ends
      exact ⟨.cons related others, closed⟩

theorem toList_listed_cons (item : α) (items : List α) :
    (Json.listed ((item :: items).map text)).toList = (text item).toList ++ separated text items := by
  induction items generalizing item with
  | nil => simp [Json.listed, separated]
  | cons next items ih =>
    have behind := ih next
    rw [List.map_cons] at behind
    simp [Json.listed, behind, separated]

theorem forall₂_of_listed (reads : ∀ item ∈ items, ∀ other ∈ others, ReadsAs text r item other)
    (hi : items ≠ []) (ho : others ≠ [])
    (same : (Json.listed (items.map text)).toList ++ ')' :: rest =
      (Json.listed (others.map text)).toList ++ ')' :: last) :
    List.Forall₂ r items others ∧ rest = last := by
  obtain ⟨item, items, rfl⟩ := List.exists_cons_of_ne_nil hi
  obtain ⟨other, others, rfl⟩ := List.exists_cons_of_ne_nil ho
  rw [toList_listed_cons, toList_listed_cons] at same
  exact forall₂_of_separated reads (congrArg (',' :: ·) same)

end Reading

namespace Json

variable {value other : Json}

theorem queryTexts_eq_map (items : List Json) : queryTexts items = items.map queryText := by
  induction items with
  | nil => rfl
  | cons item items ih => simp [queryTexts, ih]

theorem readsAs_words {text text' : String} (hw : IsWord text.toList) (ho : IsWord text'.toList) :
    ReadsAs queryText Eq (.string text) (.string text') := by
  intro c d rest last hc hd same
  obtain ⟨word, rfl, rfl⟩ := eq_of_append_delimiter hw ho hc hd same
  exact ⟨congrArg string (String.toList_inj.1 word), rfl⟩

/-- No value closes the parenthesis around it. -/
theorem OfWords.not_closed (words : value.OfWords) :
    ∀ c ∈ value.queryText.toList, (c == ')') = false := by
  have free (c : Char) (inner : isDelimiter c = false) : (c == ')') = false := by
    simp only [isDelimiter, Bool.or_eq_false_iff] at inner
    exact inner.1.2
  intro c hc
  cases value with
  | string text => exact free c (words c hc)
  | array items =>
    rw [queryText, queryTexts_eq_map] at hc
    by_cases none : items = []
    · simp [none, listed] at hc
    · obtain ⟨item, items, rfl⟩ := List.exists_cons_of_ne_nil none
      rw [toList_listed_cons] at hc
      have behind : c ∈ separated queryText (item :: items) := List.mem_cons_of_mem _ hc
      simp only [separated, List.mem_flatMap, List.mem_cons] at behind
      obtain ⟨item, hi, rfl | inside⟩ := behind
      · rfl
      · obtain ⟨text, rfl, word⟩ := words item (List.mem_cons.2 hi)
        exact free c (word c inside)
  | _ => cases words

theorem eq_of_queryText_eq (hv : value.OfWords) (ho : other.OfWords) (kind : value.OneKind other)
    (same : value.queryText = other.queryText) : value = other := by
  cases value with
  | string text =>
    cases other with
    | string text' => exact congrArg string same
    | _ => cases kind
  | array items =>
    cases other with
    | array others =>
      by_cases none : items = []
      · rw [none, kind.1 none]
      · have reads : ∀ item ∈ items, ∀ other ∈ others, ReadsAs queryText Eq item other := by
          intro item hi other hm
          obtain ⟨text, rfl, hw⟩ := hv item hi
          obtain ⟨text', rfl, ho⟩ := ho other hm
          exact readsAs_words hw ho
        rw [queryText, queryText, queryTexts_eq_map, queryTexts_eq_map] at same
        have closed : (listed (items.map queryText)).toList ++ [')'] =
            (listed (others.map queryText)).toList ++ [')'] := by rw [same]
        obtain ⟨each, -⟩ := forall₂_of_listed reads none (mt kind.2 none) closed
        rw [List.forall₂_eq_eq_eq] at each
        rw [each]
    | _ => cases kind
  | _ => cases hv

end Json

namespace Filter

def OfWords : Filter → Prop
  | compare _ operand value | oneOf operand value => IsWord operand.toList ∧ value.OfWords
  | _ => True

/-- Filters with one text. A negated equality is written like one operator that negates. -/
inductive Lookalike : Filter → Filter → Prop where
  | compare (operator : Operator) (operand : String) {value other : Json}
      (text : value.queryText = other.queryText) :
      Lookalike (compare operator operand value) (compare operator operand other)
  | plain (operand : String) {value other : Json} (text : value.queryText = other.queryText) :
      Lookalike (compare .not operand value) (negate (compare .eq operand other))
  | nested (operand : String) {value other : Json} (text : value.queryText = other.queryText) :
      Lookalike (negate (compare .eq operand value)) (compare .not operand other)
  | oneOf (operand : String) {values others : Json} (text : values.queryText = others.queryText) :
      Lookalike (oneOf operand values) (oneOf operand others)
  | negate {inner other : Filter} (alike : Lookalike inner other) :
      Lookalike (negate inner) (negate other)
  | all {children others : List Filter} (each : List.Forall₂ Lookalike children others) :
      Lookalike (all children) (all others)
  | any {children others : List Filter} (each : List.Forall₂ Lookalike children others) :
      Lookalike (any children) (any others)

def body : Filter → String
  | compare .not operand value => call "eq" (operand ++ "," ++ value.queryText)
  | compare _ operand value => operand ++ "," ++ value.queryText
  | oneOf operand values => operand ++ "," ++ call "" values.queryText
  | negate inner => inner.queryText
  | all children | any children => Json.listed (queryTexts children)

theorem queryText_eq_call (f : Filter) : f.queryText = call f.operatorName f.body := by
  cases f with
  | compare operator => cases operator <;> rfl
  | oneOf | negate | all | any => rfl

theorem isWord_operatorName (f : Filter) : IsWord f.operatorName.toList := by
  cases f with
  | compare operator => cases operator <;> simp [operatorName, Operator.name, IsWord, isDelimiter]
  | oneOf | negate | all | any =>
    simp [operatorName, Operator.name, Aggregator.name, IsWord, isDelimiter]

variable {f g : Filter} {operand operand' : String} {value value' : Json} {rest last : List Char}

theorem toList_queryText_append (f : Filter) (rest : List Char) :
    f.queryText.toList ++ rest = f.operatorName.toList ++ '(' :: (f.body.toList ++ ')' :: rest) := by
  rw [queryText_eq_call]
  simp [call]

theorem split_text (same : f.queryText.toList ++ rest = g.queryText.toList ++ last) :
    f.operatorName = g.operatorName ∧ f.body.toList ++ ')' :: rest = g.body.toList ++ ')' :: last := by
  rw [toList_queryText_append, toList_queryText_append] at same
  obtain ⟨name, -, inside⟩ :=
    eq_of_append_delimiter (isWord_operatorName f) (isWord_operatorName g) rfl rfl same
  exact ⟨String.toList_inj.1 name, inside⟩

/-- A text is read in one way, whatever follows. -/
def Legible (f : Filter) : Prop :=
  ∀ g rest last, g.Everywhere OfWords → f.queryText.toList ++ rest = g.queryText.toList ++ last →
    f.Lookalike g ∧ rest = last

theorem body_compare {operator : Operator} (direct : operator ≠ .not) :
    (compare operator operand value).body = operand ++ "," ++ value.queryText := by
  cases operator with
  | not => exact absurd rfl direct
  | eq | lt | gt => rfl

theorem legible_compare {operator : Operator} (direct : operator ≠ .not)
    (words : (compare operator operand value).OfWords) : (compare operator operand value).Legible := by
  intro g rest last hg same
  obtain ⟨named, inside⟩ := split_text same
  cases g with
  | compare operator' operand' value' =>
    obtain rfl : operator = operator' := Operator.name_inj.1 named
    have opened : operand.toList ++ ',' :: (value.queryText.toList ++ ')' :: rest) =
        operand'.toList ++ ',' :: (value'.queryText.toList ++ ')' :: last) := by
      simpa [body_compare direct] using inside
    obtain ⟨name, -, behind⟩ := eq_of_append_delimiter words.1 hg.here.1 rfl rfl opened
    obtain ⟨text, -, closed⟩ :=
      eq_of_append_delimiter words.2.not_closed hg.here.2.not_closed rfl rfl behind
    obtain rfl := String.toList_inj.1 name
    exact ⟨.compare operator operand (String.toList_inj.1 text), closed⟩
  | negate inner =>
    have negated : operator = .not := Operator.name_inj.1 named
    exact absurd negated direct
  | oneOf | all | any => exact absurd named (operatorName_ne (by simp [aggregator?]))

/-- The text of a filter negates that of another: it is a negation of it, or they are the same comparison
by `not` and by `eq`. -/
inductive Negates : Filter → Filter → Prop where
  | two (inner : Filter) : Negates (negate inner) inner
  | one (operand : String) (value : Json) :
      Negates (compare .not operand value) (compare .eq operand value)

variable {inner inner' : Filter}

theorem Negates.text (negates : f.Negates inner) :
    f.operatorName = Operator.not.name ∧ f.body = inner.queryText := by
  cases negates with
  | two | one => exact ⟨rfl, rfl⟩

theorem Negates.words (negates : f.Negates inner) (words : f.Everywhere OfWords) :
    inner.Everywhere OfWords := by
  cases negates with
  | two => exact (everywhere_negate_iff.1 words).2
  | one => exact .of_leaf rfl words.here

theorem exists_negates (named : f.operatorName = Operator.not.name) : ∃ inner, f.Negates inner := by
  cases f with
  | compare operator operand value =>
    obtain rfl : operator = .not := Operator.name_inj.1 named
    exact ⟨_, .one operand value⟩
  | negate inner => exact ⟨inner, .two inner⟩
  | oneOf | all | any =>
    have negation : (negate (any [])).operatorName = Operator.not.name := rfl
    exact absurd (named.trans negation.symm) (operatorName_ne (by simp [aggregator?]))

theorem Lookalike.of_negates (hf : f.Negates inner) (hg : g.Negates inner')
    (alike : inner.Lookalike inner') : f.Lookalike g := by
  cases hf with
  | two =>
    cases hg with
    | two => exact .negate alike
    | one operand value =>
      cases alike with
      | compare _ _ text => exact .nested operand text
  | one operand value =>
    cases alike with
    | compare _ _ text =>
      cases hg with
      | two => exact .plain operand text
      | one => exact .compare .not operand text

theorem legible_of_negates (negates : f.Negates inner) (ih : inner.Legible) : f.Legible := by
  intro g rest last hg same
  obtain ⟨named, inside⟩ := split_text same
  obtain ⟨name, body⟩ := negates.text
  obtain ⟨inner', negates'⟩ := exists_negates (named.symm.trans name)
  rw [body, negates'.text.2] at inside
  obtain ⟨alike, closed⟩ := ih inner' _ _ (negates'.words hg) inside
  exact ⟨.of_negates negates negates' alike, (List.cons.inj closed).2⟩

theorem queryTexts_eq_map (children : List Filter) : queryTexts children = children.map queryText := by
  induction children with
  | nil => rfl
  | cons child rest ih => simp [queryTexts, ih]

theorem closed_ne_queryText (f : Filter) (behind : List Char) :
    ')' :: rest ≠ f.queryText.toList ++ behind := by
  intro same
  rw [toList_queryText_append, ← List.nil_append (')' :: rest)] at same
  obtain ⟨-, opened, -⟩ :=
    eq_of_append_delimiter (List.forall_mem_nil _) (isWord_operatorName f) rfl rfl same
  cases opened

theorem legible_children {children others : List Filter} (ih : ∀ child ∈ children, child.Legible)
    (words : ∀ other ∈ others, other.Everywhere OfWords)
    (same : (Json.listed (queryTexts children)).toList ++ ')' :: rest =
      (Json.listed (queryTexts others)).toList ++ ')' :: last) :
    List.Forall₂ Lookalike children others ∧ rest = last := by
  have reads : ∀ child ∈ children, ∀ other ∈ others, ReadsAs queryText Lookalike child other :=
    fun child hc other ho c d rest last _ _ => ih child hc other (c :: rest) (d :: last) (words other ho)
  rw [queryTexts_eq_map, queryTexts_eq_map] at same
  cases children with
  | nil =>
    cases others with
    | nil => exact ⟨.nil, by simpa using same⟩
    | cons other others =>
      rw [toList_listed_cons, List.append_assoc] at same
      exact absurd same (closed_ne_queryText other _)
  | cons child children =>
    cases others with
    | nil =>
      rw [toList_listed_cons, List.append_assoc] at same
      exact absurd same.symm (closed_ne_queryText child _)
    | cons other others =>
      exact forall₂_of_listed reads (List.cons_ne_nil child children)
        (List.cons_ne_nil other others) same

theorem legible_oneOf (words : (oneOf operand value).OfWords) : (oneOf operand value).Legible := by
  intro g rest last hg same
  obtain ⟨named, inside⟩ := split_text same
  cases g with
  | oneOf operand' value' =>
    have opened : operand.toList ++ ',' :: '(' :: (value.queryText.toList ++ ')' :: ')' :: rest) =
        operand'.toList ++ ',' :: '(' :: (value'.queryText.toList ++ ')' :: ')' :: last) := by
      simpa [body, call] using inside
    obtain ⟨name, -, behind⟩ := eq_of_append_delimiter words.1 hg.here.1 rfl rfl opened
    obtain ⟨text, -, closed⟩ := eq_of_append_delimiter words.2.not_closed hg.here.2.not_closed rfl rfl
      (List.cons.inj behind).2
    obtain rfl := String.toList_inj.1 name
    exact ⟨.oneOf operand (String.toList_inj.1 text), (List.cons.inj closed).2⟩
  | compare | negate | all | any => exact absurd named (operatorName_ne (by simp [aggregator?]))

theorem legible (words : f.Everywhere OfWords) : f.Legible := by
  induction words with
  | @intro f here below ih =>
    cases f with
    | compare operator operand value =>
      by_cases direct : operator = .not
      · subst direct
        have equality : (compare .eq operand value).Legible := legible_compare (by decide) here
        exact legible_of_negates (.one operand value) equality
      · exact legible_compare direct here
    | oneOf operand values => exact legible_oneOf here
    | negate inner => exact legible_of_negates (.two inner) (ih inner (List.mem_singleton_self inner))
    | all children =>
      intro g rest last hg same
      obtain ⟨named, inside⟩ := split_text same
      cases g with
      | all others =>
        obtain ⟨each, closed⟩ := legible_children ih hg.of_parts inside
        exact ⟨.all each, closed⟩
      | compare | oneOf | negate | any => exact absurd named (operatorName_ne (by simp [aggregator?]))
    | any children =>
      intro g rest last hg same
      obtain ⟨named, inside⟩ := split_text same
      cases g with
      | any others =>
        obtain ⟨each, closed⟩ := legible_children ih hg.of_parts inside
        exact ⟨.any each, closed⟩
      | compare | oneOf | negate | all => exact absurd named (operatorName_ne (by simp [aggregator?]))

mutual

theorem Lookalike.queryText_eq : (f : Filter) → {g : Filter} → f.Lookalike g → f.queryText = g.queryText
  | .compare .., _, .compare operator _ text => by cases operator <;> simp [queryText, text]
  | .compare .., _, .plain _ text => by simp [queryText, text, Operator.name]
  | .negate _, _, .nested _ text => by simp [queryText, text, Operator.name]
  | .oneOf .., _, .oneOf _ text => by simp [queryText, text]
  | .negate inner, _, .negate alike => by simp [queryText, queryText_eq inner alike]
  | .all children, _, .all each | .any children, _, .any each => by
    simp [queryText, queryTexts_eq children each]

theorem Lookalike.queryTexts_eq : (children : List Filter) → {others : List Filter} →
    List.Forall₂ Lookalike children others → queryTexts children = queryTexts others
  | [], _, .nil => rfl
  | child :: rest, _, .cons alike each => by
    simp [queryTexts, queryText_eq child alike, queryTexts_eq rest each]

end

/-- The filters with the text of a filter are its lookalikes. -/
theorem queryText_eq_iff (hf : f.Everywhere OfWords) (hg : g.Everywhere OfWords) :
    f.queryText = g.queryText ↔ f.Lookalike g := by
  refine ⟨fun same => ?_, Lookalike.queryText_eq f⟩
  obtain ⟨alike, -⟩ := legible hf g [] [] hg (congrArg (·.toList ++ []) same)
  exact alike

end Filter
end AccessControl
