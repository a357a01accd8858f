import Grm.Backend.Cypher

/-!
# Names and values in the text of a Cypher query

The text is read back as Cypher reads it: a name stands between backticks with its own
backticks doubled, a parameter is a dollar sign and an identifier. What is read does not
depend on what the names and the values are.
-/

open Std

set_option autoImplicit false

namespace Cypher

/-- What a text is made of. -/
inductive Lexeme where
  | name (name : String)
  | param (name : String)
  | char (c : Char)
  deriving DecidableEq, Repr

/-- What has been read of the lexeme a reader is in. After a backtick inside a name the name may have ended. -/
inductive Reading where
  | plain
  | quoted (name : List Char)
  | closing (name : List Char)
  | param (name : List Char)

/-- The characters of a parameter's name. -/
def isIdentifier (c : Char) : Bool := c.isAlphanum || c == '_'

/-- The lexemes of a text; `none` where a name does not end. -/
def lex : Reading → List Char → Option (List Lexeme)
  | .plain, [] => some []
  | .quoted _, [] => none
  | .closing name, [] => some [.name (String.ofList name)]
  | .param name, [] => some [.param (String.ofList name)]
  | reading, c :: rest =>
    let fresh := if c = '`' then lex (.quoted []) rest
      else if c = '$' then lex (.param []) rest
      else (lex .plain rest).map (Lexeme.char c :: ·)
    match reading with
    | .plain => fresh
    | .quoted name => if c = '`' then lex (.closing name) rest else lex (.quoted (name ++ [c])) rest
    | .closing name =>
      if c = '`' then lex (.quoted (name ++ ['`'])) rest else fresh.map (Lexeme.name (String.ofList name) :: ·)
    | .param name =>
      if isIdentifier c then lex (.param (name ++ [c])) rest else fresh.map (Lexeme.param (String.ofList name) :: ·)

/-! ## Reading pieces of text -/

/-- The text can follow a name or a parameter. -/
def Ends (text : List Char) : Prop := ∀ c ∈ text.head?, c ≠ '`' ∧ isIdentifier c = false

/-- No character of the text starts a name or a parameter. -/
def Plain (text : List Char) : Prop := ∀ c ∈ text, c ≠ '`' ∧ c ≠ '$'

/-- The text is read as the lexemes, whatever follows it. -/
def Reads (text : List Char) (lexemes : List Lexeme) : Prop :=
  ∀ rest, Ends rest → lex .plain (text ++ rest) = (lex .plain rest).map (lexemes ++ ·)

theorem Ends.append {a b : List Char} (first : Ends a) (second : Ends b) : Ends (a ++ b) := by
  cases a with
  | nil => exact second
  | cons c a => exact first

theorem Plain.append {a b : List Char} (first : Plain a) (second : Plain b) : Plain (a ++ b) := by
  intro c member
  rcases List.mem_append.1 member with left | right
  · exact first c left
  · exact second c right

theorem reads_nil : Reads [] [] := fun rest _ => by simp

/-- A plain text before another. -/
theorem Reads.plain {a b : List Char} {lexemes : List Lexeme} (plain : Plain a) (read : Reads b lexemes) :
    Reads (a ++ b) (a.map Lexeme.char ++ lexemes) := by
  intro rest ends
  induction a with
  | nil => exact read rest ends
  | cons c a ih =>
    obtain ⟨noTick, noDollar⟩ := plain c List.mem_cons_self
    have later := ih fun d member => plain d (List.mem_cons_of_mem c member)
    rw [List.cons_append, List.cons_append, lex]
    rw [if_neg noTick, if_neg noDollar, later, Option.map_map]
    rfl

theorem reads_plain {a : List Char} (plain : Plain a) : Reads a (a.map Lexeme.char) := by
  have read := Reads.plain plain reads_nil
  rwa [List.append_nil, List.append_nil] at read

theorem Reads.append {a b : List Char} {first second : List Lexeme} (left : Reads a first) (right : Reads b second)
    (apart : Ends b) : Reads (a ++ b) (first ++ second) := by
  intro rest ends
  rw [List.append_assoc, left _ (apart.append ends), right rest ends, Option.map_map]
  congr 1
  funext lexemes
  exact (List.append_assoc first second lexemes).symm

/-- Inside a name the escaped characters are read back. -/
theorem lex_quoted (name read rest : List Char) :
    lex (.quoted read) (name.flatMap escape ++ '`' :: rest) = lex (.closing (read ++ name)) rest := by
  induction name generalizing read with
  | nil => simp [lex]
  | cons c name ih =>
    rw [List.flatMap_cons, List.append_assoc]
    by_cases tick : c = '`'
    · subst tick
      rw [show escape '`' = ['`', '`'] from rfl, List.cons_append, List.cons_append, List.nil_append, lex]
      rw [if_pos rfl, lex]
      rw [if_pos rfl, ih, List.append_assoc]
      rfl
    · rw [show escape c = [c] from if_neg tick, List.cons_append, List.nil_append, lex]
      rw [if_neg tick, ih, List.append_assoc]
      rfl

/-- What follows a name that has ended. -/
theorem lex_closing {name rest : List Char} (ends : Ends rest) :
    lex (.closing name) rest = (lex .plain rest).map (Lexeme.name (String.ofList name) :: ·) := by
  cases rest with
  | nil => rfl
  | cons c rest =>
    rw [lex, lex]
    rw [if_neg (ends c rfl).1]

/-- A name in backticks is read as that name. -/
theorem reads_cypherName (name : String) : Reads (cypherName name).toList [.name name] := by
  intro rest ends
  rw [cypherName, String.toList_ofList, List.append_assoc, List.cons_append, lex]
  rw [if_pos rfl, List.cons_append, List.nil_append, lex_quoted, List.nil_append, lex_closing ends, String.ofList_toList]
  rfl

theorem lex_param {name read rest : List Char} (identifier : ∀ c ∈ name, isIdentifier c = true) (ends : Ends rest) :
    lex (.param read) (name ++ rest) = (lex .plain rest).map (Lexeme.param (String.ofList (read ++ name)) :: ·) := by
  induction name generalizing read with
  | nil =>
    rw [List.nil_append, List.append_nil]
    cases rest with
    | nil => rfl
    | cons c rest =>
      rw [lex, lex]
      rw [if_neg (Bool.eq_false_iff.1 (ends c rfl).2)]
  | cons c name ih =>
    rw [List.cons_append, lex]
    rw [if_pos (identifier c List.mem_cons_self), ih fun d member => identifier d (List.mem_cons_of_mem c member),
      List.append_assoc]
    rfl

theorem isIdentifier_paramName (i : Nat) : ∀ c ∈ (paramName i).toList, isIdentifier c = true := by
  intro c member
  rw [paramName, String.toList_append, List.mem_append, Nat.toList_repr] at member
  rcases member with letter | digit
  · rw [show "p".toList = ['p'] from rfl, List.mem_singleton] at letter
    rw [letter]
    decide
  · have digits : c.isDigit = true := Nat.isDigit_of_mem_toDigits (by decide) (by decide) digit
    simp [isIdentifier, Char.isAlphanum, digits]

/-- A dollar sign and a parameter's name are read as that parameter. -/
theorem reads_param (i : Nat) : Reads ('$' :: (paramName i).toList) [.param (paramName i)] := by
  intro rest ends
  rw [List.cons_append, lex]
  rw [if_neg (by decide), if_pos rfl, lex_param (isIdentifier_paramName i) ends, List.nil_append, String.ofList_toList]
  rfl

/-! ## Reading a translation -/

/-- The lexemes of a plain text. -/
def plainText (text : String) : List Lexeme := text.toList.map Lexeme.char

/-- The lexemes of a label or a relationship type. -/
def labelLexemes (label : String) : List Lexeme := [.char ':', .name label]

/-- The lexemes of `node_pattern`. -/
def nodeLexemes (var : VarId) (labels : List String) : List Lexeme :=
  plainText ("(" ++ varName var) ++ (labels.flatMap labelLexemes ++ plainText ")")

/-- The text before and after the variable and the type in `relationship_pattern`. -/
def arrow : Direction → String × String
  | .out => ("-[", "]->")
  | .incoming => ("<-[", "]-")
  | .both => ("-[", "]-")

/-- The lexemes of `relationship_pattern`. -/
def relationshipLexemes (dir : Direction) (var : VarId) (relType : Option String) : List Lexeme :=
  plainText ((arrow dir).1 ++ varName var) ++ (relType.toList.flatMap labelLexemes ++ plainText (arrow dir).2)

/-- The lexemes of the steps. -/
def stepsLexemes (current : VarId) : List TraversalStep → List Lexeme
  | [] => []
  | step :: rest =>
    relationshipLexemes step.dir (current + 1) step.relType ++ (nodeLexemes (current + 2) step.endLabels ++
      stepsLexemes (current + 2) rest)

/-- The lexemes of a predicate. -/
def Condition.lexemes (param : String) : Condition → List Lexeme
  | idIs var _ => plainText ("id(" ++ varName var ++ ") = ") ++ [.param param]
  | property var filter =>
    plainText (varName var ++ ".") ++ (.name filter.key :: (plainText (" " ++ operator filter.op ++ " ") ++ [.param param]))

/-- The lexemes of the predicates after the first. -/
def moreLexemes (number : Nat) : List Condition → List Lexeme
  | [] => []
  | c :: rest => plainText " AND " ++ (c.lexemes (paramName number) ++ moreLexemes (number + 1) rest)

/-- The lexemes of the predicates. -/
def whereLexemes : List Condition → List Lexeme
  | [] => []
  | c :: rest => plainText " WHERE " ++ (c.lexemes (paramName 0) ++ moreLexemes 1 rest)

theorem plain_of_all {text : String} (all : (text.toList.all fun c => c != '`' && c != '$') = true) : Plain text.toList := by
  intro c member
  have both := List.all_eq_true.1 all c member
  simpa using both

theorem plain_repr (n : Nat) : Plain n.repr.toList := by
  intro c member
  rw [Nat.toList_repr] at member
  have digit : c.isDigit = true := Nat.isDigit_of_mem_toDigits (by decide) (by decide) member
  constructor
  · rintro rfl
    exact absurd digit (by decide)
  · rintro rfl
    exact absurd digit (by decide)

theorem plain_varName (var : VarId) : Plain (varName var).toList := by
  rw [varName, String.toList_append]
  exact (plain_of_all (by decide)).append (plain_repr var)

theorem ends_of_head {text : List Char} {c : Char} (head : text.head? = some c)
    (apart : c ≠ '`' ∧ isIdentifier c = false) : Ends text := by
  intro d member
  rw [head] at member
  cases member
  exact apart

theorem reads_labelsText (labels : List String) :
    Reads (labelsText labels).toList (labels.flatMap labelLexemes) ∧ Ends (labelsText labels).toList := by
  unfold labelsText
  induction labels with
  | nil => exact ⟨reads_nil, fun c member => by cases member⟩
  | cons label rest ih =>
    obtain ⟨read, ends⟩ := ih
    rw [List.map_cons, String.join_cons, String.toList_append, String.toList_append, List.flatMap_cons]
    refine ⟨Reads.append ?_ read ends, ends_of_head rfl (by decide)⟩
    exact Reads.plain (plain_of_all (by decide)) (reads_cypherName label)

theorem reads_nodePattern (var : VarId) (labels : List String) :
    Reads (nodePattern var labels).toList (nodeLexemes var labels) := by
  obtain ⟨read, -⟩ := reads_labelsText labels
  have plain : Plain ("(" ++ varName var).toList := by
    rw [String.toList_append]
    exact (plain_of_all (by decide)).append (plain_varName var)
  rw [nodePattern, String.toList_append, String.toList_append, List.append_assoc]
  refine Reads.plain plain (read.append (reads_plain (plain_of_all (by decide))) ?_)
  exact ends_of_head rfl (by decide)

theorem relationshipPattern_eq (dir : Direction) (var : VarId) (relType : Option String) :
    relationshipPattern dir var relType = (arrow dir).1 ++ varName var ++ labelsText relType.toList ++ (arrow dir).2 := by
  have labels : (relType.elim "" fun ty => ":" ++ cypherName ty) = labelsText relType.toList := by
    cases relType with
    | none => rfl
    | some ty =>
      show ":" ++ cypherName ty = String.join [":" ++ cypherName ty]
      rw [String.join_cons]
      exact String.append_empty.symm
  unfold relationshipPattern
  rw [labels]
  cases dir with
  | out => rfl
  | incoming => rfl
  | both => rfl

theorem reads_relationshipPattern (dir : Direction) (var : VarId) (relType : Option String) :
    Reads (relationshipPattern dir var relType).toList (relationshipLexemes dir var relType) ∧
      Ends (relationshipPattern dir var relType).toList := by
  obtain ⟨read, -⟩ := reads_labelsText relType.toList
  have plain : Plain ((arrow dir).1 ++ varName var).toList := by
    rw [String.toList_append]
    exact (plain_of_all (by cases dir <;> decide)).append (plain_varName var)
  rw [relationshipPattern_eq, String.toList_append, String.toList_append, List.append_assoc]
  constructor
  · refine Reads.plain plain (read.append (reads_plain (plain_of_all (by cases dir <;> decide))) ?_)
    cases dir with
    | out => exact ends_of_head rfl (by decide)
    | incoming => exact ends_of_head rfl (by decide)
    | both => exact ends_of_head rfl (by decide)
  · rw [String.toList_append]
    cases dir with
    | out => exact ends_of_head rfl (by decide)
    | incoming => exact ends_of_head rfl (by decide)
    | both => exact ends_of_head rfl (by decide)

theorem reads_stepsPattern (current : VarId) (steps : List TraversalStep) :
    Reads (stepsPattern current steps).toList (stepsLexemes current steps) ∧ Ends (stepsPattern current steps).toList := by
  induction steps generalizing current with
  | nil => exact ⟨reads_nil, fun c member => by cases member⟩
  | cons step rest ih =>
    obtain ⟨read, ends⟩ := ih (current + 2)
    obtain ⟨relationship, start⟩ := reads_relationshipPattern step.dir (current + 1) step.relType
    have node := (reads_nodePattern (current + 2) step.endLabels).append read ends
    have nodeStart : Ends (nodePattern (current + 2) step.endLabels).toList := by
      rw [nodePattern, String.toList_append, String.toList_append, String.toList_append]
      exact ends_of_head rfl (by decide)
    rw [stepsPattern, String.toList_append, String.toList_append, List.append_assoc]
    exact ⟨relationship.append node (nodeStart.append ends), start.append (nodeStart.append ends)⟩

theorem reads_predicate (c : Condition) (i : Nat) :
    Reads (c.predicate (paramName i)).toList (c.lexemes (paramName i)) := by
  cases c with
  | idIs var id =>
    have plain : Plain ("id(" ++ varName var ++ ") = ").toList := by
      rw [String.toList_append, String.toList_append]
      exact ((plain_of_all (by decide)).append (plain_varName var)).append (plain_of_all (by decide))
    have split : ((Condition.idIs var id).predicate (paramName i)).toList =
        ("id(" ++ varName var ++ ") = ").toList ++ '$' :: (paramName i).toList := by
      simp [Condition.predicate]
    rw [split]
    exact Reads.plain plain (reads_param i)
  | property var filter =>
    have first : Plain (varName var ++ ".").toList := by
      rw [String.toList_append]
      exact (plain_varName var).append (plain_of_all (by decide))
    have second : Plain (" " ++ operator filter.op ++ " ").toList := by
      rw [String.toList_append, String.toList_append]
      exact ((plain_of_all (by decide)).append (plain_of_all (by cases filter.op <;> decide))).append
        (plain_of_all (by decide))
    have split : ((Condition.property var filter).predicate (paramName i)).toList =
        (varName var ++ ".").toList ++ ((cypherName filter.key).toList ++
          ((" " ++ operator filter.op ++ " ").toList ++ '$' :: (paramName i).toList)) := by
      simp [Condition.predicate]
    rw [split]
    refine Reads.plain first ((reads_cypherName filter.key).append (Reads.plain second (reads_param i)) ?_)
    rw [String.toList_append, String.toList_append]
    exact ends_of_head rfl (by decide)

theorem intercalate_and (predicate : String) (rest : List String) :
    " AND ".intercalate (predicate :: rest) = predicate ++ String.join (rest.map fun p => " AND " ++ p) := by
  induction rest generalizing predicate with
  | nil => exact String.append_empty.symm
  | cons next rest ih =>
    rw [String.intercalate_cons_cons, ih, List.map_cons, String.join_cons]
    simp only [String.append_assoc]

theorem reads_more (number : Nat) (cs : List Condition) :
    Reads (String.join ((predicates number cs).map fun p => " AND " ++ p)).toList (moreLexemes number cs) ∧
      Ends (String.join ((predicates number cs).map fun p => " AND " ++ p)).toList := by
  induction cs generalizing number with
  | nil => exact ⟨reads_nil, fun c member => by cases member⟩
  | cons c rest ih =>
    obtain ⟨read, ends⟩ := ih (number + 1)
    rw [predicates, List.map_cons, String.join_cons, String.toList_append, String.toList_append, List.append_assoc]
    refine ⟨Reads.plain (plain_of_all (by decide)) ((reads_predicate c number).append read ends), ?_⟩
    exact ends_of_head rfl (by decide)

theorem reads_whereText (cs : List Condition) :
    Reads (whereText (predicates 0 cs)).toList (whereLexemes cs) ∧ Ends (whereText (predicates 0 cs)).toList := by
  cases cs with
  | nil => exact ⟨reads_nil, fun c member => by cases member⟩
  | cons c rest =>
    obtain ⟨read, ends⟩ := reads_more 1 rest
    have text : whereText (predicates 0 (c :: rest)) =
        " WHERE " ++ (c.predicate (paramName 0) ++ String.join ((predicates 1 rest).map fun p => " AND " ++ p)) := by
      rw [predicates, ← intercalate_and]
      rfl
    rw [text, String.toList_append, String.toList_append]
    refine ⟨Reads.plain (plain_of_all (by decide)) ((reads_predicate c 0).append read ends), ?_⟩
    exact ends_of_head rfl (by decide)

theorem plain_vars (vars : List VarId) : Plain (", ".intercalate (vars.map varName)).toList := by
  induction vars with
  | nil => exact fun c member => by simp at member
  | cons var rest ih =>
    cases rest with
    | nil =>
      rw [List.map_singleton, String.intercalate_singleton]
      exact plain_varName var
    | cons next rest =>
      rw [List.map_cons, List.map_cons, String.intercalate_cons_cons, String.toList_append, String.toList_append]
      exact ((plain_varName var).append (plain_of_all (by decide))).append ih

theorem plain_tailText (vars : List VarId) (offset limit : Option Nat) : Plain (tailText vars offset limit).toList := by
  have skip : Plain (offset.elim "" fun n => " SKIP " ++ n.repr).toList := by
    cases offset with
    | none => exact fun c member => by cases member
    | some n =>
      rw [Option.elim_some, String.toList_append]
      exact (plain_of_all (by decide)).append (plain_repr n)
  have last : Plain (limit.elim "" fun n => " LIMIT " ++ n.repr).toList := by
    cases limit with
    | none => exact fun c member => by cases member
    | some n =>
      rw [Option.elim_some, String.toList_append]
      exact (plain_of_all (by decide)).append (plain_repr n)
  unfold tailText
  rw [String.toList_append, String.toList_append, String.toList_append]
  exact (((plain_of_all (by decide)).append (plain_vars vars)).append skip).append last

theorem ends_tailText (vars : List VarId) (offset limit : Option Nat) : Ends (tailText vars offset limit).toList := by
  unfold tailText
  rw [String.toList_append, String.toList_append, String.toList_append]
  exact ends_of_head rfl (by decide)

end Cypher

namespace Query
open Cypher

/-- The lexemes of a query's text. -/
def lexemes (query : Query) (where_ : List PropertyFilter) : List Lexeme :=
  plainText "MATCH " ++ (nodeLexemes 0 query.pattern.labels ++ (stepsLexemes 0 query.pattern.traversals ++
    (whereLexemes (query.conditions where_) ++ plainText (tailText query.cypherVars query.offset query.limit))))

/-- The text of a query is read as its lexemes. -/
theorem lex_cypherText (query : Query) (where_ : List PropertyFilter) :
    lex .plain (query.cypherText where_).toList = some (query.lexemes where_) := by
  obtain ⟨steps, stepsEnds⟩ := reads_stepsPattern 0 query.pattern.traversals
  obtain ⟨conditions, conditionsEnds⟩ := reads_whereText (query.conditions where_)
  have tail := reads_plain (plain_tailText query.cypherVars query.offset query.limit)
  have tailEnds := ends_tailText query.cypherVars query.offset query.limit
  have whole := Reads.plain (@plain_of_all "MATCH " (by decide))
    ((reads_nodePattern 0 query.pattern.labels).append (steps.append (conditions.append tail tailEnds)
      (conditionsEnds.append tailEnds)) (stepsEnds.append (conditionsEnds.append tailEnds)))
  have read := whole [] (fun c member => by cases member)
  rw [List.append_nil] at read
  unfold cypherText cypherPattern
  simp only [String.toList_append, List.append_assoc]
  rw [read]
  simp [lex, lexemes, plainText]

end Query

/-! ## Names and parameters in order -/

namespace Cypher

/-- A name or a parameter. -/
def Lexeme.isMark : Lexeme → Bool
  | .char _ => false
  | .name _ | .param _ => true

/-- The key and the parameter of a condition. -/
def Condition.marks (param : String) : Condition → List Lexeme
  | idIs _ _ => [.param param]
  | property _ filter => [.name filter.key, .param param]

theorem marks_plainText (text : String) : (plainText text).filter Lexeme.isMark = [] := by
  unfold plainText
  rw [List.filter_eq_nil_iff]
  intro l member
  obtain ⟨c, -, rfl⟩ := List.mem_map.1 member
  exact Bool.false_ne_true

theorem marks_labels (labels : List String) :
    (labels.flatMap labelLexemes).filter Lexeme.isMark = labels.map Lexeme.name := by
  induction labels with
  | nil => rfl
  | cons label rest ih =>
    rw [List.flatMap_cons, List.filter_append, ih]
    rfl

theorem marks_steps (current : VarId) (steps : List TraversalStep) :
    (stepsLexemes current steps).filter Lexeme.isMark =
      (steps.flatMap fun step => step.relType.toList ++ step.endLabels).map Lexeme.name := by
  induction steps generalizing current with
  | nil => rfl
  | cons step rest ih =>
    simp only [stepsLexemes, relationshipLexemes, nodeLexemes, List.filter_append, marks_plainText, marks_labels, ih,
      List.flatMap_cons, List.map_append, List.nil_append, List.append_assoc]

theorem marks_condition (c : Condition) (param : String) : (c.lexemes param).filter Lexeme.isMark = c.marks param := by
  cases c with
  | idIs var id =>
    rw [Condition.lexemes, List.filter_append, marks_plainText]
    rfl
  | property var filter =>
    simp only [Condition.lexemes, List.filter_append, List.filter_cons, marks_plainText]
    rfl

theorem marks_more (number : Nat) (cs : List Condition) :
    (moreLexemes number cs).filter Lexeme.isMark = (cs.zipIdx number).flatMap fun c => c.1.marks (paramName c.2) := by
  induction cs generalizing number with
  | nil => rfl
  | cons c rest ih =>
    rw [moreLexemes, List.filter_append, List.filter_append, marks_plainText, marks_condition, ih, List.zipIdx_cons,
      List.flatMap_cons]
    rfl

theorem marks_where (cs : List Condition) :
    (whereLexemes cs).filter Lexeme.isMark = cs.zipIdx.flatMap fun c => c.1.marks (paramName c.2) := by
  cases cs with
  | nil => rfl
  | cons c rest =>
    rw [whereLexemes, List.filter_append, List.filter_append, marks_plainText, marks_condition, marks_more,
      List.zipIdx_cons, List.flatMap_cons]
    rfl

end Cypher

/-! ## Other names and values -/

/-- Another key and value. -/
def PropertyFilter.rename (f : String → String) (g : Value → Value) (filter : PropertyFilter) : PropertyFilter :=
  { filter with key := f filter.key, value := g filter.value }

def TraversalStep.rename (f : String → String) (g : Value → Value) (step : TraversalStep) : TraversalStep :=
  { step with
    relType := step.relType.map f
    endLabels := step.endLabels.map f
    endFilters := step.endFilters.map (PropertyFilter.rename f g) }

namespace Query
open Cypher

/-- The query with other names, values and ids. -/
def rename (f : String → String) (g : Value → Value) (h : Int → Int) (query : Query) : Query :=
  { query with
    pattern :=
      { labels := query.pattern.labels.map f
        id := query.pattern.id.map h
        propertyFilters := query.pattern.propertyFilters.map (PropertyFilter.rename f g)
        traversals := query.pattern.traversals.map (TraversalStep.rename f g) } }

end Query

namespace Cypher

def Condition.rename (f : String → String) (g : Value → Value) (h : Int → Int) : Condition → Condition
  | idIs var id => .idIs var (h id)
  | property var filter => .property var (filter.rename f g)

def Lexeme.rename (f : String → String) : Lexeme → Lexeme
  | .name label => .name (f label)
  | .param label => .param label
  | .char c => .char c

variable (f : String → String) (g : Value → Value) (h : Int → Int)

theorem rename_plainText (text : String) : (plainText text).map (Lexeme.rename f) = plainText text := by
  rw [plainText, List.map_map]
  rfl

theorem rename_labels (labels : List String) :
    ((labels.map f).flatMap labelLexemes) = (labels.flatMap labelLexemes).map (Lexeme.rename f) := by
  induction labels with
  | nil => rfl
  | cons label rest ih =>
    rw [List.map_cons, List.flatMap_cons, List.flatMap_cons, List.map_append, ih]
    rfl

theorem rename_steps (current : VarId) (steps : List TraversalStep) :
    stepsLexemes current (steps.map (TraversalStep.rename f g)) = (stepsLexemes current steps).map (Lexeme.rename f) := by
  induction steps generalizing current with
  | nil => rfl
  | cons step rest ih =>
    have types : (step.relType.map f).toList = step.relType.toList.map f := by cases step.relType <;> rfl
    rw [List.map_cons, stepsLexemes, stepsLexemes, ih]
    simp only [TraversalStep.rename, relationshipLexemes, nodeLexemes, types, rename_labels, List.map_append,
      rename_plainText]

theorem rename_condition (c : Condition) (param : String) :
    (c.rename f g h).lexemes param = (c.lexemes param).map (Lexeme.rename f) := by
  cases c with
  | idIs var id =>
    simp only [Condition.rename, Condition.lexemes, List.map_append, rename_plainText]
    rfl
  | property var filter =>
    simp only [Condition.rename, Condition.lexemes, List.map_append, List.map_cons, rename_plainText]
    rfl

theorem rename_more (number : Nat) (cs : List Condition) :
    moreLexemes number (cs.map (Condition.rename f g h)) = (moreLexemes number cs).map (Lexeme.rename f) := by
  induction cs generalizing number with
  | nil => rfl
  | cons c rest ih =>
    rw [List.map_cons, moreLexemes, moreLexemes, ih, rename_condition, List.map_append, List.map_append, rename_plainText]

theorem rename_where (cs : List Condition) :
    whereLexemes (cs.map (Condition.rename f g h)) = (whereLexemes cs).map (Lexeme.rename f) := by
  cases cs with
  | nil => rfl
  | cons c rest =>
    rw [List.map_cons, whereLexemes, whereLexemes, rename_more, rename_condition, List.map_append, List.map_append,
      rename_plainText]

/-- The predicates of conditions with other values are the same. -/
theorem predicates_rename (number : Nat) (cs : List Condition) :
    predicates number (cs.map (Condition.rename id g h)) = predicates number cs := by
  induction cs generalizing number with
  | nil => rfl
  | cons c rest ih =>
    rw [List.map_cons, predicates, predicates, ih]
    cases c with
    | idIs var id => rfl
    | property var filter => rfl

theorem stepsPattern_rename (current : VarId) (steps : List TraversalStep) :
    stepsPattern current (steps.map (TraversalStep.rename id g)) = stepsPattern current steps := by
  induction steps generalizing current with
  | nil => rfl
  | cons step rest ih =>
    rw [List.map_cons, stepsPattern, stepsPattern, ih]
    simp only [TraversalStep.rename, Option.map_id, List.map_id, id_eq]

theorem clauseVars_rename (current : VarId) (steps : List TraversalStep) :
    (Query.stepClauses current (steps.map (TraversalStep.rename f g))).flatMap GraphQuery.clauseVars =
      (Query.stepClauses current steps).flatMap GraphQuery.clauseVars := by
  induction steps generalizing current with
  | nil => rfl
  | cons step rest ih =>
    rw [List.map_cons, Query.stepClauses, Query.stepClauses, List.flatMap_cons, List.flatMap_cons, List.flatMap_cons,
      List.flatMap_cons, ih]
    rfl

end Cypher

namespace Query
open Cypher
variable (f : String → String) (g : Value → Value) (h : Int → Int)

theorem stepConditions_rename (current : VarId) (steps : List TraversalStep) :
    stepConditions current (steps.map (TraversalStep.rename f g)) =
      (stepConditions current steps).map (Condition.rename f g h) := by
  induction steps generalizing current with
  | nil => rfl
  | cons step rest ih =>
    rw [List.map_cons, stepConditions, stepConditions, ih, List.map_append, List.map_map]
    simp only [TraversalStep.rename, List.map_map]
    rfl

theorem conditions_rename (query : Query) (where_ : List PropertyFilter) :
    (query.rename f g h).conditions (where_.map (PropertyFilter.rename f g)) =
      (query.conditions where_).map (Condition.rename f g h) := by
  have ids : ((query.pattern.id.map h).map (Condition.idIs 0)).toList =
      ((query.pattern.id.map (Condition.idIs 0)).toList).map (Condition.rename f g h) := by
    cases query.pattern.id with
    | none => rfl
    | some id => rfl
  unfold conditions
  simp only [rename, stepConditions_rename f g h, List.map_append, List.map_map, ids]
  rfl

theorem cypherVars_rename (query : Query) : (query.rename f g h).cypherVars = query.cypherVars := by
  unfold cypherVars
  rw [List.flatMap_cons, List.flatMap_cons]
  simp only [rename, clauseVars_rename]
  rfl

/-- Other names only rename the names that are read. -/
theorem lexemes_rename (query : Query) (where_ : List PropertyFilter) :
    (query.rename f g h).lexemes (where_.map (PropertyFilter.rename f g)) =
      (query.lexemes where_).map (Lexeme.rename f) := by
  unfold lexemes
  rw [conditions_rename, cypherVars_rename]
  simp only [rename, nodeLexemes, rename_labels, rename_steps, rename_where, List.map_append, rename_plainText]

/-- Other values leave the text as it is. -/
theorem cypherText_rename (query : Query) (where_ : List PropertyFilter) :
    (query.rename id g h).cypherText (where_.map (PropertyFilter.rename id g)) = query.cypherText where_ := by
  unfold cypherText cypherPattern
  rw [conditions_rename, cypherVars_rename, predicates_rename]
  simp only [rename, List.map_id, stepsPattern_rename]

/-- The two queries, each with filters on its root, differ in filter values only. -/
def SameButValues (query query' : Query) (where_ where_' : List PropertyFilter) : Prop :=
  query.rename id (fun _ => .null) (fun _ => 0) = query'.rename id (fun _ => .null) (fun _ => 0) ∧
    where_.map (PropertyFilter.rename id fun _ => .null) = where_'.map (PropertyFilter.rename id fun _ => .null)

/-- The two queries, each with filters on its root, differ in names and filter values only. -/
def SameOutline (query query' : Query) (where_ where_' : List PropertyFilter) : Prop :=
  query.rename (fun _ => "") (fun _ => .null) (fun _ => 0) = query'.rename (fun _ => "") (fun _ => .null) (fun _ => 0) ∧
    where_.map (PropertyFilter.rename (fun _ => "") fun _ => .null) =
      where_'.map (PropertyFilter.rename (fun _ => "") fun _ => .null)

theorem SameButValues.cypherText {query query' : Query} {where_ where_' : List PropertyFilter}
    (same : SameButValues query query' where_ where_') : query'.cypherText where_' = query.cypherText where_ := by
  rw [← cypherText_rename (fun _ => .null) (fun _ => 0) query, ← cypherText_rename (fun _ => .null) (fun _ => 0) query',
    same.1, same.2]

/-- Outside of the names, texts of one outline are the same. -/
theorem SameOutline.lexemes {query query' : Query} {where_ where_' : List PropertyFilter}
    (same : SameOutline query query' where_ where_') :
    (query'.lexemes where_').map (Lexeme.rename fun _ => "") = (query.lexemes where_).map (Lexeme.rename fun _ => "") := by
  rw [← lexemes_rename (fun _ => "") (fun _ => .null) (fun _ => 0) query,
    ← lexemes_rename (fun _ => "") (fun _ => .null) (fun _ => 0) query', same.1, same.2]

/-- The names of the pattern: labels and relationship types. -/
def patternNames (query : Query) : List String :=
  query.pattern.labels ++ query.pattern.traversals.flatMap fun step => step.relType.toList ++ step.endLabels

theorem marks_lexemes (query : Query) (where_ : List PropertyFilter) :
    (query.lexemes where_).filter Lexeme.isMark = query.patternNames.map Lexeme.name ++
      (query.conditions where_).zipIdx.flatMap fun c => c.1.marks (paramName c.2) := by
  unfold lexemes patternNames nodeLexemes
  simp only [List.filter_append, marks_plainText, marks_labels, marks_steps, marks_where, List.map_append, List.nil_append,
    List.append_nil, List.append_assoc]

/-- The translation of a compiled query, with any filters on its root. The predicates are those of
its conditions, each with the parameter of its number; exactly these parameters are bound, each to
the value of its condition. Read as Cypher the text has the names of the pattern, and then for each
condition its key and its parameter, each as it is. Filter values do not show in the text, and
outside of the names the names do not. -/
theorem cypher_names_and_values {query : Query} {g : GraphQuery} (compiled : query.compileToGraph = some g)
    (where_ : List PropertyFilter) :
    ∃ cypher lexemes,
      graphQueryToCypher { g with where_ } = .ok cypher ∧
      cypher.text = "MATCH " ++ query.cypherPattern ++ whereText (predicates 0 (query.conditions where_)) ++
        tailText query.cypherVars query.offset query.limit ∧
      (∀ i, i < (query.conditions where_).length →
        cypher.params[paramName i]? = ((query.conditions where_).map Condition.value)[i]?) ∧
      (∀ name ∈ cypher.params, ∃ i, i < (query.conditions where_).length ∧ name = paramName i) ∧
      lex .plain cypher.text.toList = some lexemes ∧
      lexemes.filter Lexeme.isMark = query.patternNames.map Lexeme.name ++
        ((query.conditions where_).zipIdx.flatMap fun c => c.1.marks (paramName c.2)) ∧
      ∀ query' g' where_', query'.compileToGraph = some g' →
        (SameButValues query query' where_ where_' →
          ∃ cypher', graphQueryToCypher { g' with where_ := where_' } = .ok cypher' ∧ cypher'.text = cypher.text) ∧
        (SameOutline query query' where_ where_' →
          ∃ cypher' lexemes', graphQueryToCypher { g' with where_ := where_' } = .ok cypher' ∧
            lex .plain cypher'.text.toList = some lexemes' ∧
            lexemes'.map (Lexeme.rename fun _ => "") = lexemes.map (Lexeme.rename fun _ => "")) := by
  have translates : ∀ {query : Query} {g : GraphQuery}, query.compileToGraph = some g → ∀ where_ : List PropertyFilter,
      graphQueryToCypher { g with where_ } = .ok {
        text := query.cypherText where_
        params := (pushAll {} ((query.conditions where_).map Condition.value)).params } := by
    intro query g compiled where_
    obtain ⟨clauses, -, limit, offset⟩ := compileToGraph_eq compiled
    refine graphQueryToCypher_eq ?_ ?_ ?_
    · exact clauses
    · exact limit
    · exact offset
  refine ⟨_, _, translates compiled where_, rfl, fun i less => ?_, fun name bound => ?_, query.lex_cypherText where_,
    query.marks_lexemes where_, fun query' g' where_' compiled' => ⟨fun same => ?_, fun same => ?_⟩⟩
  · have params := pushAll_params {} ((query.conditions where_).map Condition.value) i (by rw [List.length_map]; exact less)
    rwa [show ({} : Translator).nextParam + i = i from Nat.zero_add i] at params
  · rcases mem_pushAll_params bound with before | ⟨i, less, named⟩
    · exact absurd before ExtTreeMap.not_mem_empty
    · rw [List.length_map] at less
      rw [show ({} : Translator).nextParam + i = i from Nat.zero_add i] at named
      exact ⟨i, less, named⟩
  · exact ⟨_, translates compiled' where_', same.cypherText⟩
  · exact ⟨_, _, translates compiled' where_', query'.lex_cypherText where_', same.lexemes⟩

end Query

/-- The friends of user 7, for a label with a backtick and a value that looks like a parameter. -/
def friendsQuery : Query where
  pattern :=
    { labels := ["User`s"], id := some 7, propertyFilters := [⟨"name", .eq, .string "$p0"⟩]
      traversals := [⟨.out, some "KNOWS", ["User"], [⟨"name", .contains, .string "`"⟩]⟩] }
  limit := some 3
  offset := none
  returnMode := .endNode

theorem friends_names_and_values :
    ∃ g, friendsQuery.compileToGraph = some g ∧ ∃ cypher, Cypher.graphQueryToCypher { g with where_ := [] } = .ok cypher ∧
      cypher.text = "MATCH (v0:`User``s`)-[v1:`KNOWS`]->(v2:`User`) WHERE id(v0) = $p0 AND v0.`name` = $p1 AND " ++
        "v2.`name` CONTAINS $p2 RETURN v0, v1, v2 LIMIT 3" ∧
      cypher.params["p1"]? = some (.string "$p0") := by
  refine ⟨_, rfl, ?_⟩
  obtain ⟨cypher, -, translated, text, params, -⟩ := @Query.cypher_names_and_values friendsQuery _ rfl []
  refine ⟨cypher, translated, text.trans (by decide +kernel), params 1 (by decide)⟩
