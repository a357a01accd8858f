import Grm.Runtime.Conformance
import Grm.Runtime.LexicalInput
import Grm.Runtime.Traversal
import Grm.Runtime.TypedOrder

/-!
# Ordering and paging

The comparisons of `sort_nodes` and `sort_relationships` are total preorders on records
whose values are valid for their fields: a term compares ids, endpoints or the keys of two
values of one kind, a missing value comes last, and a direction and a list of terms keep
these laws.
-/

open Std

set_option autoImplicit false

/-! ## Terms -/

theorem validateOrderFields_ok {special : List String} {modelKind modelName : String} {fields : List RuntimeField}
    {orders : List SessionOrder} (accepted : validateOrderFields special modelKind modelName fields orders = .ok ()) :
    ∀ order ∈ orders, order.field ∈ special ∨ ∃ field, fieldNamed fields order.field = some field := by
  intro order member
  unfold validateOrderFields at accepted
  split at accepted
  · cases accepted
  next known =>
    have kept := List.find?_eq_none.1 known order member
    rw [Bool.and_eq_true, Bool.not_eq_true', Option.isNone_iff_eq_none] at kept
    by_cases word : order.field ∈ special
    · exact .inl word
    · right
      rw [← Option.ne_none_iff_exists']
      intro missing
      exact kept ⟨by simpa using word, missing⟩

theorem transCmp_direction {α : Type} {cmp : α → α → Ordering} (lawful : TransCmp cmp) (direction : SortDirection) :
    TransCmp fun a b => direction.apply (cmp a b) := by
  cases direction with
  | asc => exact lawful
  | desc => exact transCmp_swap lawful

/-- The first term that tells two records apart decides. -/
theorem transCmp_orders {α : Type} {term : SessionOrder → α → α → Ordering} {cmp : List SessionOrder → α → α → Ordering}
    (nil : ∀ a b, cmp [] a b = .eq)
    (cons : ∀ order orders a b, cmp (order :: orders) a b = (order.direction.apply (term order a b)).then (cmp orders a b))
    (orders : List SessionOrder) (lawful : ∀ order ∈ orders, TransCmp (term order)) : TransCmp (cmp orders) := by
  induction orders with
  | nil => exact transCmp_congr transCmp_eq nil
  | cons order orders ih =>
    have first := transCmp_direction (lawful order List.mem_cons_self) order.direction
    have rest := ih fun other member => lawful other (List.mem_cons_of_mem _ member)
    exact transCmp_congr (transCmp_then first rest) (cons order orders)

theorem missingLast_optional {α : Type} (cmp : α → α → Ordering) : MissingLast cmp (SessionState.compareOptional cmp) where
  both _ _ := rfl
  right _ := rfl
  left _ := rfl
  neither := rfl

section Order
variable [Externals] {stamp : UtcInstant → List Char}

/-- Values of one field are compared by their keys, where a missing one comes last. -/
theorem transCmp_field (chrono : Externals.Rfc3339 stamp) {α : Type} {fields : List RuntimeField} {props : α → Props}
    (declared : ∀ a, Declared fields (props a)) {name : String} {field : RuntimeField}
    (named : fieldNamed fields name = some field) :
    TransCmp fun l r : α => compareOptionalValues (props l)[name]? (props r)[name]? := by
  obtain ⟨κ, _, _, key, ordered⟩ := exists_ordersBy chrono field.valueType
  have valid : ∀ a value, (props a)[name]? = some value → validateValueForKind field.valueType value = true := by
    intro a value found
    obtain ⟨other, named', valid⟩ := declared a name value found
    rw [named] at named'
    cases named'
    exact valid
  have lifted : TransCmp (SessionState.compareOptional fun l r : κ => compare l r) :=
    (missingLast_optional _).transCmp inferInstance
  refine transCmp_congr (transCmp_of_key lifted fun a => (props a)[name]?.map key) fun l r => ?_
  cases left : (props l)[name]? with
  | none => cases (props r)[name]? <;> rfl
  | some a =>
    cases right : (props r)[name]? with
    | none => rfl
    | some b =>
      show (compareTypedValueOrder a b).getD .eq = compare (key a) (key b)
      rw [ordered a b (valid l a left) (valid r b right)]
      rfl

/-- The comparison of nodes by accepted terms is lawful on the nodes that fit the model. -/
theorem transCmp_nodes (chrono : Externals.Rfc3339 stamp) {model : RuntimeNodeModel} {orders : List SessionOrder}
    (accepted : validateNodeOrderFields model orders = .ok ()) :
    TransCmp fun l r : {node : StoredNode // Declared model.fields node.props} =>
      compareNodeOrderValues l r model orders := by
  let Fitting := {node : StoredNode // Declared model.fields node.props}
  have ids : TransCmp fun l r : Fitting => compare l.1.id r.1.id :=
    transCmp_of_key (inferInstance : TransCmp fun l r : Int => compare l r) fun node : Fitting => node.1.id
  refine @transCmp_orders Fitting (fun order l r => if order.field = "id" ∨ order.field = model.idFieldName then
    compare l.1.id r.1.id else compareOptionalValues l.1.props[order.field]? r.1.props[order.field]?)
    (fun orders l r => compareNodeOrderValues l r model orders) (fun _ _ => rfl) (fun _ _ _ _ => rfl) orders ?_
  intro order member
  split
  · exact ids
  next other =>
    obtain special | ⟨field, named⟩ := validateOrderFields_ok accepted order member
    · simp only [List.mem_cons, List.not_mem_nil, or_false] at special
      exact absurd special other
    · exact transCmp_field chrono (fun node : Fitting => node.2) named

/-- The comparison of relationships by accepted terms is lawful on those that fit the model. -/
theorem transCmp_rels (chrono : Externals.Rfc3339 stamp) {model : RuntimeRelModel} {orders : List SessionOrder}
    (accepted : validateRelOrderFields model orders = .ok ()) :
    TransCmp fun l r : {rel : StoredRel // Declared model.fields rel.props} =>
      compareRelOrderValues l r model orders := by
  let Fitting := {rel : StoredRel // Declared model.fields rel.props}
  have ids : ∀ key : StoredRel → Int, TransCmp fun l r : Fitting => compare (key l.1) (key r.1) := fun key =>
    transCmp_of_key (inferInstance : TransCmp fun l r : Int => compare l r) fun rel : Fitting => key rel.1
  refine @transCmp_orders Fitting (fun order l r =>
      if order.field = "id" then compare l.1.id r.1.id
      else if order.field = "from" then compare l.1.fromId r.1.fromId
      else if order.field = "to" then compare l.1.toId r.1.toId
      else if order.field = model.idFieldName then compare l.1.id r.1.id
      else compareOptionalValues l.1.props[order.field]? r.1.props[order.field]?)
    (fun orders l r => compareRelOrderValues l r model orders) (fun _ _ => rfl) (fun _ _ _ _ => rfl) orders ?_
  intro order member
  split
  · exact ids StoredRel.id
  next notId =>
    split
    · exact ids StoredRel.fromId
    next notFrom =>
      split
      · exact ids StoredRel.toId
      next notTo =>
        split
        · exact ids StoredRel.id
        next notName =>
          obtain special | ⟨field, named⟩ := validateOrderFields_ok accepted order member
          · simp only [List.mem_cons, List.not_mem_nil, or_false] at special
            obtain same | same | same | same := special
            · exact absurd same notId
            · exact absurd same notName
            · exact absurd same notFrom
            · exact absurd same notTo
          · exact transCmp_field chrono (fun rel : Fitting => rel.2) named

/-! ## Sorting and paging -/

omit [Externals] in
/-- Pages cut out by `apply_offset_limit`, one after the other, are the list. -/
theorem pages_applyOffsetLimit {α : Type} (items : List α) (size pages : Nat) (enough : items.length ≤ pages * size) :
    ((List.range pages).flatMap fun i => applyOffsetLimit items (some (i * size)) (some size)) = items := by
  rw [← flatMap_pages items size enough]
  congr 1
  funext i
  rw [flatMap_pages items size enough]
  unfold applyOffsetLimit
  dsimp only [Option.getD]
  split
  case isTrue past => rw [List.drop_eq_nil_of_le past, List.take_nil]
  case isFalse =>
    rw [List.take_eq_take_iff, List.length_drop]
    omega

/-- Valid records sort stably by a total preorder, and the pages of any size cover the result. -/
structure OrdersSoundly {α : Type} (valid : α → Prop) (cmp : α → α → Ordering) (sort : List α → GrmResult (List α)) :
    Prop where
  preorder : TotalPreorderOn valid cmp
  sorts : ∀ records, (∀ a ∈ records, valid a) → ∃ sorted, sort records = .ok sorted ∧ StablySorted cmp records sorted ∧
    ∀ size, 0 < size → ∀ pages, records.length ≤ pages * size →
      ((List.range pages).flatMap fun i => applyOffsetLimit sorted (some (i * size)) (some size)) = sorted

omit [Externals] in
theorem ordersSoundly_of_sort {α : Type} {valid : α → Prop} {cmp : α → α → Ordering} {sort : List α → GrmResult (List α)}
    (lawful : TransCmp fun l r : {a // valid a} => cmp l r)
    (sorted : ∀ records, (sort records = .ok records ∧ ∀ a b, cmp a b = .eq) ∨ sort records = .ok (sortBy cmp records)) :
    OrdersSoundly valid cmp sort where
  preorder := totalPreorderOn lawful
  sorts records allValid := by
    have paged : ∀ result : List α, StablySorted cmp records result → ∀ size, 0 < size → ∀ pages,
        records.length ≤ pages * size →
          ((List.range pages).flatMap fun i => applyOffsetLimit result (some (i * size)) (some size)) = result := by
      intro result stable size _ pages enough
      apply pages_applyOffsetLimit
      rwa [stable.perm.length_eq]
    obtain ⟨same, ties⟩ | same := sorted records
    · have stable : StablySorted cmp records records :=
        ⟨List.Perm.refl _, List.pairwise_of_forall fun a b => by rw [ties]; decide, fun _ _ => rfl⟩
      exact ⟨records, same, stable, paged records stable⟩
    · have stable := stablySorted_mergeSort (totalPreorderOn lawful) allValid
      exact ⟨_, same, stable, paged _ stable⟩

/-- Records whose values are valid for their fields are ordered by accepted terms as by a
total preorder; they are sorted stably, and the pages of the result make it up. -/
theorem ordering_and_paging_sound (chrono : Externals.Rfc3339 stamp) :
    (∀ (model : RuntimeNodeModel) (orders : List SessionOrder), validateNodeOrderFields model orders = .ok () →
      OrdersSoundly (fun node : StoredNode => Declared model.fields node.props)
        (fun left right => compareNodeOrderValues left right model orders) fun nodes => sortNodes nodes model orders) ∧
    ∀ (model : RuntimeRelModel) (orders : List SessionOrder), validateRelOrderFields model orders = .ok () →
      OrdersSoundly (fun rel : StoredRel => Declared model.fields rel.props)
        (fun left right => compareRelOrderValues left right model orders) fun rels => sortRelationships rels model orders := by
  constructor
  · intro model orders accepted
    refine ordersSoundly_of_sort (transCmp_nodes chrono accepted) fun nodes => ?_
    cases orders with
    | nil => exact .inl ⟨rfl, fun _ _ => rfl⟩
    | cons order orders =>
      right
      unfold sortNodes
      rw [accepted]
      rfl
  · intro model orders accepted
    refine ordersSoundly_of_sort (transCmp_rels chrono accepted) fun rels => ?_
    cases orders with
    | nil => exact .inl ⟨rfl, fun _ _ => rfl⟩
    | cons order orders =>
      right
      unfold sortRelationships
      rw [accepted]
      rfl

end Order

/-- A model of people, whose age may be missing. -/
def personModel : RuntimeNodeModel := ⟨"Person", "Person", "pid", .int64, .declared, [⟨"age", .int, false⟩]⟩

/-- Descending age, then ascending id. -/
def eldestFirst : List SessionOrder := [⟨"age", .desc⟩, ⟨"pid", .asc⟩]

/-- Two people of one age, and one without. -/
def persons : List StoredNode :=
  let aged := (∅ : Props).insert "age" (.number (.int ⟨30, by decide, by decide⟩))
  [⟨1, ["Person"], ∅⟩, ⟨2, ["Person"], aged⟩, ⟨3, ["Person"], aged⟩]

theorem ordering_and_paging_sound_persons :
    letI := leapLibraries
    ∃ sorted, sortNodes persons personModel eldestFirst = .ok sorted ∧
      StablySorted (fun left right => compareNodeOrderValues left right personModel eldestFirst) persons sorted ∧
      applyOffsetLimit sorted (some 0) (some 2) ++ applyOffsetLimit sorted (some 2) (some 2) = sorted := by
  let := leapLibraries
  have fits : ∀ person ∈ persons, Declared personModel.fields person.props := by
    intro person member key value found
    have age : key = "age" ∧ value = .number (.int ⟨30, by decide, by decide⟩) := by
      simp only [persons, List.mem_cons, List.not_mem_nil, or_false] at member
      obtain rfl | rfl | rfl := member
      · simp at found
      all_goals
        rw [BTreeMap.get_insert] at found
        split at found
        case isTrue same => exact ⟨same.symm, (Option.some.inj found).symm⟩
        case isFalse => simp at found
    obtain ⟨rfl, rfl⟩ := age
    exact ⟨⟨"age", .int, false⟩, rfl, rfl⟩
  have accepted : validateNodeOrderFields personModel eldestFirst = .ok () := rfl
  obtain ⟨sorted, ok, stable, pages⟩ :=
    ((ordering_and_paging_sound leapLibraries_rfc3339).1 personModel eldestFirst accepted).sorts persons fits
  have two := pages 2 (by decide) 2 (by decide)
  have offsets : List.range 2 = [0, 1] := rfl
  rw [offsets] at two
  exact ⟨sorted, ok, stable, by simpa using two⟩
