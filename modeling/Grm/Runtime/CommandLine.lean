import Grm.Lib.ByteText
import Grm.Lib.Panics
import Grm.Runtime.QueryTerms

/-!
# The command line

`parser.rs`: the tokenizer and the commands. Offsets are byte offsets as the source has
them, and cutting a text or the arguments where that is not possible panics.
-/

open Split ByteText

set_option autoImplicit false

/-- A computation of the parser. -/
abbrev Parse (α : Type) : Type := Panics GrmError α

/-- `ParsedToken`. -/
structure ParsedToken where
  text : List Char
  start : Nat
  deriving DecidableEq, Repr

/-- `KeyValueArg`. -/
structure KeyValueArg where
  key : String
  value : String
  deriving DecidableEq, Repr

/-- `QueryTerm`. -/
structure QueryTerm where
  key : String
  value : String
  deriving DecidableEq, Repr

/-- `SessionCommand`. -/
inductive SessionCommand where
  | help
  | exit
  | sessionDescribe (verbose : Bool)
  | sessionIndexes (verbose : Bool)
  | txBegin
  | txCommit
  | modelDefine (args : List String)
  | modelList
  | modelShow (name : String)
  | linkDefine (args : List String)
  | linkList
  | linkShow (name : String)
  | nodeCreate (binding : Option String) (modelName : String) (assignments : List KeyValueArg)
  | nodeFind (modelName : String) (terms : List QueryTerm)
  | sessionExplainNodeFind (modelName : String) (terms : List QueryTerm) (verbose : Bool)
  | sessionProfileNodeFind (modelName : String) (terms : List QueryTerm) (verbose : Bool)
  | nodeUpdate (modelName id : String) (assignments : List KeyValueArg)
  | nodeDelete (modelName id : String)
  | edgeCreate (modelName : String) (assignments : List KeyValueArg)
  | edgeFind (modelName : String) (terms : List QueryTerm)
  | sessionExplainEdgeFind (modelName : String) (terms : List QueryTerm) (verbose : Bool)
  | sessionProfileEdgeFind (modelName : String) (terms : List QueryTerm) (verbose : Bool)
  | edgeUpdate (modelName id : String) (assignments : List KeyValueArg)
  | edgeDelete (modelName id : String)
  | sessionSave (args : List String)
  | sessionLoad (args : List String)
  | sessionImport (args : List String)
  | sessionExport (args : List String)
  | sessionCompact
  | sessionAutocommit (args : List String)
  | unknown (raw : String)
  deriving DecidableEq, Repr

namespace CommandLine

/-! ## Errors -/

/-- `constraint_at`, at a byte offset. -/
def constraintAtOffset (input : List Char) (offset : Nat) (message : String) : Option GrmError := do
  let offset := min offset (byteLength input)
  let lineStart := ((rfind '\n' (← upTo input offset)).map (· + 1)).getD 0
  let lineEnd := ((find '\n' (← startingAt input offset)).map (offset + ·)).getD (byteLength input)
  let line ← slice input lineStart lineEnd
  let lineNumber := (← upTo input offset).count '\n' + 1
  let column := (← slice input lineStart offset).length + 1
  return .constraint (message ++ " at line " ++ toString lineNumber ++ ", column " ++ toString column ++ "\n" ++
    String.ofList line ++ "\n" ++ String.ofList (List.replicate (column - 1) ' ') ++ "^")

/-- A failure with the error of `constraint_at`. -/
def failAt {α : Type} (input : List Char) (offset : Nat) (message : String) : Parse α := do
  let error ← (liftM (constraintAtOffset input offset message) : Parse GrmError)
  throw error

/-! ## Tokens -/

/-- The variables of the loop of `tokenize_command_line_internal`. -/
structure Tokenizing where
  tokens : List ParsedToken := []
  current : List Char := []
  currentStart : Nat := 0
  quote : Option Char := none
  quoteStart : Option Nat := none
  deriving DecidableEq, Repr

namespace Tokenizing

def push (st : Tokenizing) (c : Char) : Tokenizing := { st with current := st.current ++ [c] }

/-- The start of the current token, which an empty one takes from the index. -/
def mark (st : Tokenizing) (index : Nat) : Tokenizing :=
  if st.current.isEmpty then { st with currentStart := index } else st

/-- The end of the current token, if there is one. -/
def flush (st : Tokenizing) : Tokenizing :=
  if st.current.isEmpty then st
  else { st with tokens := st.tokens ++ [⟨st.current, st.currentStart⟩], current := [] }

def openQuote (st : Tokenizing) (q : Char) (index : Nat) : Tokenizing :=
  { st with quote := some q, quoteStart := some index }

def closeQuote (st : Tokenizing) : Tokenizing := { st with quote := none, quoteStart := none }

end Tokenizing

/-- The character of an escape sequence. -/
def unescape (c : Char) : Option Char :=
  if c = 'n' then some '\n'
  else if c = 't' then some '\t'
  else if c = '\\' ∨ c = '\'' ∨ c = '"' then some c
  else none

/-- One character outside of quotes. -/
def plainStep (st : Tokenizing) (index : Nat) (c : Char) : Tokenizing :=
  if c = '"' ∨ c = '\'' then (st.mark index).openQuote c index
  else if Text.isWhitespace c then st.flush
  else (st.mark index).push c

/-- What `tokenize_command_line_internal` does after its loop. -/
def finishTokens (input : List Char) (st : Tokenizing) : Parse (List ParsedToken) :=
  if st.quote.isSome then
    failAt input (st.quoteStart.getD (byteLength input - 1)) "unterminated quoted string"
  else pure st.flush.tokens

/-- The loop of `tokenize_command_line_internal`, at a byte offset with what is left of the input. -/
def tokenizeLoop (input : List Char) : Nat → List Char → Tokenizing → Parse (List ParsedToken)
  | _, [], st => finishTokens input st
  | index, c :: rest, st =>
    match st.quote with
    | none => tokenizeLoop input (index + c.utf8Size) rest (plainStep st index c)
    | some q =>
      if c = '\\' then
        match rest with
        | [] => failAt input index "unterminated escape sequence in quoted string"
        | next :: rest =>
          match unescape next with
          | some d => tokenizeLoop input (index + c.utf8Size + next.utf8Size) rest (st.push d)
          | none =>
            failAt input index ("invalid escape sequence '\\" ++ String.singleton next ++ "' in quoted string")
      else if c = q then tokenizeLoop input (index + c.utf8Size) rest st.closeQuote
      else tokenizeLoop input (index + c.utf8Size) rest (st.push c)

theorem tokenizeLoop_plain {st : Tokenizing} (outside : st.quote = none) (input : List Char) (index : Nat) (c : Char)
    (rest : List Char) :
    tokenizeLoop input index (c :: rest) st = tokenizeLoop input (index + c.utf8Size) rest (plainStep st index c) := by
  rw [tokenizeLoop.eq_def]
  simp only [outside]

theorem tokenizeLoop_quoted {st : Tokenizing} {q c : Char} (inside : st.quote = some q) (plain : c ≠ '\\')
    (input : List Char) (index : Nat) (rest : List Char) :
    tokenizeLoop input index (c :: rest) st =
      tokenizeLoop input (index + c.utf8Size) rest (if c = q then st.closeQuote else st.push c) := by
  rw [tokenizeLoop.eq_def]
  simp only [inside, if_neg plain]
  split <;> rfl

theorem tokenizeLoop_sequence {st : Tokenizing} {q d c : Char} (inside : st.quote = some q)
    (meaning : unescape d = some c) (input : List Char) (index : Nat) (rest : List Char) :
    tokenizeLoop input index ('\\' :: d :: rest) st =
      tokenizeLoop input (index + '\\'.utf8Size + d.utf8Size) rest (st.push c) := by
  rw [tokenizeLoop.eq_def]
  simp only [inside, if_true, meaning]

/-- `tokenize_command_line_internal`. -/
def tokenizeCommandLine (input : List Char) : Parse (List ParsedToken) := tokenizeLoop input 0 input {}

/-! ## Arguments -/

/-- `&args[k..]`. -/
def argsFrom (args : List ParsedToken) (k : Nat) : Parse (List ParsedToken) :=
  liftM (if k ≤ args.length then some (args.drop k) else none)

/-- `required_positional`. -/
def requiredPositional (command : String) (args : List ParsedToken) (index : Nat) : Parse String :=
  match args[index]? with
  | some token => pure (String.ofList token.text)
  | none => throw (.constraint ("missing required argument for " ++ command))

/-- `expect_single_arg`. -/
def expectSingleArg (command : String) (args : List ParsedToken) : Parse String := do
  if args.length ≠ 1 then throw (.constraint ("usage: " ++ command ++ " <name>"))
  let token ← (liftM args[0]? : Parse ParsedToken)
  return String.ofList token.text

/-- `parse_assignments`. -/
def parseAssignments (args : List ParsedToken) (input : List Char) : Parse (List KeyValueArg) :=
  args.mapM fun arg =>
    match splitOnce ['='] arg.text with
    | some (key, value) => pure ⟨String.ofList key, String.ofList value⟩
    | none => failAt input arg.start ("expected key=value argument, got '" ++ String.ofList arg.text ++ "'")

/-! ## Query terms -/

/-- `validate_format_term_shape`. -/
def validateFormatTermShapeAt (raw input : List Char) (start : Nat) : Parse Unit :=
  if raw = "default".toList ∨ raw = "jsonl".toList ∨ raw = "table".toList ∨ raw = "graph".toList then pure ()
  else failAt input start "format must be one of: default, jsonl, table, graph"

/-- The loop of `validate_order_term_shape`. -/
def validateOrderSegments (input : List Char) (start : Nat) : List (List Char) → Parse Unit
  | [] => pure ()
  | segment :: rest =>
    match splitOnce [':'] segment with
    | none => failAt input start "order must use order=<field>:asc|desc[,<field>:asc|desc ...]"
    | some (field, direction) =>
      if field = [] then failAt input start "order must use order=<field>:asc|desc[,<field>:asc|desc ...]"
      else if direction = "asc".toList ∨ direction = "desc".toList then validateOrderSegments input start rest
      else failAt input start "order direction must be asc or desc"

/-- `validate_order_term_shape`. -/
def validateOrderTermShapeAt (raw input : List Char) (start : Nat) : Parse Unit :=
  validateOrderSegments input start (raw.splitOn ',')

/-- The error of a term that has no operator, no field or no value. -/
def invalidQueryTermAt {α : Type} (arg input : List Char) (start : Nat) : Parse α :=
  failAt input start ("invalid query term '" ++ String.ofList arg ++ "'")

/-- The part of a term that `split_query_term` returns for its key. -/
def resultKey (operator arg key : List Char) : Option (List Char) :=
  if operator = "=".toList then some key
  else if operator = "!=".toList then upTo arg (byteLength key + 1)
  else if operator = ">=".toList ∨ operator = "<=".toList then upTo arg (byteLength key + 2)
  else if operator = ">".toList ∨ operator = "<".toList ∨ operator = "~".toList then upTo arg (byteLength key + 1)
  else some key

/-- The loop of `split_query_term` over the operators. -/
def splitAtOperatorsAt (arg input : List Char) (start : Nat) : List (List Char) → Parse (List Char × List Char)
  | [] => invalidQueryTermAt arg input start
  | operator :: operators =>
    match splitOnce operator arg with
    | none => splitAtOperatorsAt arg input start operators
    | some (key, value) =>
      if key = [] ∨ value = [] then invalidQueryTermAt arg input start
      else do
        let key ← (liftM (resultKey operator arg key) : Parse (List Char))
        if key = "order".toList then validateOrderTermShapeAt value input start
        if key = "format".toList then validateFormatTermShapeAt value input start
        return (key, value)

/-- `split_query_term`, at a byte offset. -/
def splitQueryTermAt (arg input : List Char) (start : Nat) : Parse (List Char × List Char) :=
  if ">>".toList <:+: arg ∨ "<<".toList <:+: arg then invalidQueryTermAt arg input start
  else splitAtOperatorsAt arg input start termOperators

/-- One term. -/
def parseQueryTerm (arg input : List Char) (start : Nat) : Parse QueryTerm := do
  let (key, value) ← splitQueryTermAt arg input start
  return ⟨String.ofList key, String.ofList value⟩

/-- `parse_query_terms`. -/
def parseQueryTerms (args : List ParsedToken) (input : List Char) : Parse (List QueryTerm) :=
  args.mapM fun arg => parseQueryTerm arg.text input arg.start

/-- `parse_query_terms_from_strs`. -/
def parseQueryTermsFromStrs (args : List String) : Parse (List QueryTerm) :=
  args.mapM fun arg => parseQueryTerm arg.toList arg.toList 0

/-! ## Commands -/

/-- `parse_optional_verbose_flag`. -/
def parseOptionalVerboseFlag (command : String) : List ParsedToken → Parse Bool
  | [] => pure false
  | [arg] =>
    if arg.text = "--verbose".toList then pure true
    else throw (.constraint ("usage: " ++ command ++ " [--verbose]"))
  | _ => throw (.constraint ("usage: " ++ command ++ " [--verbose]"))

/-- `strip_optional_verbose_flag`. -/
def stripOptionalVerboseFlag (args : List ParsedToken) : Parse (Bool × List ParsedToken) :=
  if args.head?.map ParsedToken.text = some "--verbose".toList then do
    let rest ← argsFrom args 1
    return (true, rest)
  else pure (false, args)

/-- `validate_binding_name`. -/
def validateBindingName (name : String) (input : List Char) (start : Nat) : Parse Unit :=
  match name.toList with
  | [] => failAt input start "binding name cannot be empty"
  | first :: _ =>
    if !(first.isAlpha || first == '_') then
      failAt input start "binding name must start with a letter or underscore"
    else if !(name.toList.all fun c => c.isAlphanum || c == '_') then
      failAt input start "binding name must contain only ASCII letters, digits, or underscores"
    else pure ()

/-- `parse_node_create`. -/
def parseNodeCreate (command : String) (args : List ParsedToken) (input : List Char) (binding : Option String) :
    Parse SessionCommand := do
  let modelName ← requiredPositional command args 0
  let rest ← argsFrom args 1
  let assignments ← parseAssignments rest input
  return .nodeCreate binding modelName assignments

/-- `parse_let_command`. -/
def parseLetCommand (args : List ParsedToken) (input : List Char) : Parse SessionCommand := do
  let binding ← requiredPositional "let" args 0
  let first ← (liftM args[0]? : Parse ParsedToken)
  validateBindingName binding input first.start
  let equals ← requiredPositional "let" args 1
  if equals ≠ "=" then
    failAt input ((args[1]?.map ParsedToken.start).getD (byteLength input))
      "usage: let <name> = node.create <ModelName> [field=value ...]"
  else
    let nestedCommand ← requiredPositional "let" args 2
    if nestedCommand = "node.create" then
      let rest ← argsFrom args 3
      parseNodeCreate nestedCommand rest input (some binding)
    else
      failAt input ((args[2]?.map ParsedToken.start).getD (byteLength input)) "let currently supports node.create only"

/-- `parse_session_introspection`. -/
def parseSessionIntrospection (command : String) (args : List ParsedToken) (input : List Char) (profile : Bool) :
    Parse SessionCommand := do
  let (verbose, args) ← stripOptionalVerboseFlag args
  let nested ← requiredPositional command args 0
  if nested = "node.find" then
    let modelName ← requiredPositional command args 1
    let rest ← argsFrom args 2
    let terms ← parseQueryTerms rest input
    return if profile then .sessionProfileNodeFind modelName terms verbose
      else .sessionExplainNodeFind modelName terms verbose
  else if nested = "edge.find" then
    let modelName ← requiredPositional command args 1
    let rest ← argsFrom args 2
    let terms ← parseQueryTerms rest input
    return if profile then .sessionProfileEdgeFind modelName terms verbose
      else .sessionExplainEdgeFind modelName terms verbose
  else
    failAt input ((args.head?.map ParsedToken.start).getD (byteLength input))
      ("usage: " ++ command ++ " node.find <ModelName> [terms...] | " ++ command ++ " edge.find <LinkName> [terms...]")

/-- A command without arguments. -/
def withoutArgs (usage : String) (args : List ParsedToken) (command : SessionCommand) : Parse SessionCommand :=
  if args.isEmpty then pure command else throw (.constraint ("usage: " ++ usage))

/-- A command of a model name and query terms. -/
def findCommand (command : String) (args : List ParsedToken) (input : List Char)
    (make : String → List QueryTerm → SessionCommand) : Parse SessionCommand := do
  let modelName ← requiredPositional command args 0
  let rest ← argsFrom args 1
  let terms ← parseQueryTerms rest input
  return make modelName terms

/-- A command of a model name, an id and assignments. -/
def updateCommand (command : String) (args : List ParsedToken) (input : List Char)
    (make : String → String → List KeyValueArg → SessionCommand) : Parse SessionCommand := do
  let modelName ← requiredPositional command args 0
  let id ← requiredPositional command args 1
  let rest ← argsFrom args 2
  let assignments ← parseAssignments rest input
  return make modelName id assignments

/-- A command of a model name and an id. -/
def deleteCommand (command : String) (args : List ParsedToken) (make : String → String → SessionCommand) :
    Parse SessionCommand := do
  let modelName ← requiredPositional command args 0
  let id ← requiredPositional command args 1
  return make modelName id

/-- The branches of `parse_command_line`. -/
def parseCommand (command : String) (args : List ParsedToken) (trimmed : List Char) : Parse SessionCommand :=
  let texts := args.map fun token => String.ofList token.text
  match command with
  | "?" | "help" | "session.help" => pure .help
  | "exit" | "session.exit" => pure .exit
  | "session.describe" => return .sessionDescribe (← parseOptionalVerboseFlag command args)
  | "session.indexes" => return .sessionIndexes (← parseOptionalVerboseFlag command args)
  | "tx.begin" | "transaction.begin" => withoutArgs "tx.begin" args .txBegin
  | "tx.commit" | "transaction.commit" => withoutArgs "tx.commit" args .txCommit
  | "model.define" => pure (.modelDefine texts)
  | "model.list" => pure .modelList
  | "model.show" => return .modelShow (← expectSingleArg command args)
  | "link.define" => pure (.linkDefine texts)
  | "link.list" => pure .linkList
  | "link.show" => return .linkShow (← expectSingleArg command args)
  | "let" => parseLetCommand args trimmed
  | "node.create" => parseNodeCreate command args trimmed none
  | "node.find" => findCommand command args trimmed .nodeFind
  | "node.update" | "node.edit" => updateCommand command args trimmed .nodeUpdate
  | "node.delete" => deleteCommand command args .nodeDelete
  | "edge.create" => do
    let modelName ← requiredPositional command args 0
    let rest ← argsFrom args 1
    return .edgeCreate modelName (← parseAssignments rest trimmed)
  | "edge.find" => findCommand command args trimmed .edgeFind
  | "session.explain" => parseSessionIntrospection command args trimmed false
  | "session.profile" => parseSessionIntrospection command args trimmed true
  | "edge.update" | "edge.edit" => updateCommand command args trimmed .edgeUpdate
  | "edge.delete" => deleteCommand command args .edgeDelete
  | "session.save" => pure (.sessionSave texts)
  | "session.load" => pure (.sessionLoad texts)
  | "session.import" => pure (.sessionImport texts)
  | "session.export" => pure (.sessionExport texts)
  | "session.compact" => withoutArgs "session.compact" args .sessionCompact
  | "session.autocommit" => pure (.sessionAutocommit texts)
  | _ => pure (.unknown (String.ofList trimmed))

/-- `parse_command_line`. -/
def parseCommandLine (input : String) : Parse SessionCommand := do
  let trimmed := Text.trim input.toList
  let tokens ← tokenizeCommandLine trimmed
  if tokens.isEmpty then return .unknown ""
  else
    let first ← (liftM tokens[0]? : Parse ParsedToken)
    let args ← argsFrom tokens 1
    parseCommand (String.ofList first.text) args trimmed

end CommandLine
