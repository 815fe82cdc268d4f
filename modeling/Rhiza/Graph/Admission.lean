import Mathlib.Logic.Relation
import Rhiza.Graph.Layout
import Rhiza.Library.Assoc

/-! # The admission of graph queries

A query is admitted by rules on its tokens: no clause that administers, loads or calls,
no node pattern without a label, and no result without a bound that is known beforehand.
-/

namespace Rhiza.Graph

open Core Library

def maxGraphQueryBytes : Nat := 64 * 1024
def maxGraphParameterNameBytes : Nat := 256
def usizeMax : Nat := 2 ^ 64 - 1
def i128Max : Int := 2 ^ 127 - 1

def invalidCommand {α : Type} (message : String) : Result α := .error (.invalidCommand message)

def checkedUsize (n : Nat) : Option Nat := if n ≤ usizeMax then some n else none

def orInvalid {α : Type} (message : String) (o : Option α) : Result α :=
  o.elim (invalidCommand message) .ok

def toAsciiUppercase (s : String) : String := String.ofList (s.toList.map Char.toUpper)

def toAsciiLowercase (s : String) : String := String.ofList (s.toList.map Char.toLower)

inductive GraphParameterValue
  | null
  | bool (value : Bool)
  | i64 (value : Int)
  | u64 (value : Nat)
  | f64 (bits : Nat)
  | string (value : String)
  | bytes (value : Bytes)
  | list (values : List GraphParameterValue)
  | struct (fields : List (String × GraphParameterValue))

abbrev Parameters := List (String × GraphParameterValue)

def tokenIsKeyword (token : Option Lexeme) (keyword : String) : Bool :=
  match token with
  | some ⟨.identifier value false, _⟩ => toAsciiUppercase value = toAsciiUppercase keyword
  | _ => false

def tokenIsSymbol (token : Option Lexeme) (symbol : Char) : Bool :=
  match token with
  | some ⟨.symbol value, _⟩ => value = symbol
  | _ => false

def tokenIsIdentifier (token : Option Lexeme) : Bool :=
  match token with
  | some ⟨.identifier _ _, _⟩ => true
  | _ => false

/-- The open brackets of each kind, which every loop over the tokens counts. -/
structure Depth where
  round : Nat
  square : Nat
  curly : Nat
  deriving DecidableEq

def Depth.zero : Depth := ⟨0, 0, 0⟩

def Depth.next (depth : Depth) : QueryTokenKind → Depth
  | .symbol '(' => { depth with round := depth.round + 1 }
  | .symbol ')' => { depth with round := depth.round - 1 }
  | .symbol '[' => { depth with square := depth.square + 1 }
  | .symbol ']' => { depth with square := depth.square - 1 }
  | .symbol '{' => { depth with curly := depth.curly + 1 }
  | .symbol '}' => { depth with curly := depth.curly - 1 }
  | _ => depth

def Depth.after (tokens : List Lexeme) : Depth :=
  tokens.foldl (fun depth token => depth.next token.kind) .zero

/-- The loop over `.name` in `call_clause_starts_at`. -/
def afterQualifiedName : List Lexeme → List Lexeme
  | ⟨.symbol '.', _⟩ :: ⟨.identifier _ _, _⟩ :: rest => afterQualifiedName rest
  | rest => rest

def callClauseStartsAt (tokens : List Lexeme) (index : Nat) : Bool :=
  match tokens.drop (index + 1) with
  | ⟨.identifier _ _, _⟩ :: rest => tokenIsSymbol (afterQualifiedName rest).head? '('
  | _ => false

/-- The loop over the headers in `load_from_clause_starts_at`. -/
def headersBeforeFrom : Nat → List Lexeme → Bool
  | _, [] => false
  | depth, ⟨.symbol '(', _⟩ :: rest => headersBeforeFrom (depth + 1) rest
  | depth, ⟨.symbol ')', _⟩ :: rest =>
    if depth - 1 = 0 then tokenIsKeyword rest.head? "FROM" else headersBeforeFrom (depth - 1) rest
  | depth, _ :: rest => headersBeforeFrom depth rest

def loadFromClauseStartsAt (tokens : List Lexeme) (index : Nat) : Bool :=
  let rest := tokens.drop (index + 1)
  tokenIsKeyword rest[0]? "FROM" ||
    (tokenIsKeyword rest[0]? "WITH" && tokenIsKeyword rest[1]? "HEADERS" &&
      tokenIsSymbol rest[2]? '(' && headersBeforeFrom 0 (rest.drop 2))

def isForbiddenAt (tokens : List Lexeme) (index : Nat) (keyword : String) : Bool :=
  let atStatementStart : Bool := index = 0
  if keyword = "CALL" then callClauseStartsAt tokens index
  else if keyword ∈ ["BEGIN", "COMMIT", "ROLLBACK", "CHECKPOINT", "COPY", "ATTACH", "DETACH",
      "INSTALL"] then atStatementStart
  else if keyword = "TRANSACTION" then 0 < index && tokenIsKeyword tokens[index - 1]? "BEGIN"
  else if keyword = "LOAD" then loadFromClauseStartsAt tokens index || atStatementStart
  else if keyword ∈ ["IMPORT", "EXPORT"] then
    atStatementStart && tokenIsKeyword tokens[index + 1]? "DATABASE"
  else false

def rejectAdminExternalOrTransactionQueries (tokens : List Lexeme) : Result Unit :=
  tokens.zipIdx.forM fun (token, index) =>
    match token.kind with
    | .identifier value false =>
      ensure (isForbiddenAt tokens index (toAsciiUppercase value) = false) (.invalidCommand
        ("graph query cannot execute admin, external I/O, or transaction clause: " ++ value))
    | _ => .ok ()

def matchingBrackets : List (Lexeme × Nat) → List Nat → List (Nat × Nat)
  | [], _ => []
  | (⟨.symbol '(', _⟩, index) :: rest, stack => matchingBrackets rest (index :: stack)
  | (⟨.symbol ')', _⟩, index) :: rest, opening :: stack =>
    (opening, index) :: matchingBrackets rest stack
  | _ :: rest, stack => matchingBrackets rest stack

def matchPatternDepths : List (Lexeme × Nat) → Depth → List (Nat × Depth)
  | [], _ => []
  | (token, index) :: rest, depth =>
    let later := matchPatternDepths rest (depth.next token.kind)
    if tokenIsKeyword (some token) "MATCH" then (index, depth) :: later else later

def endsMatchClause : QueryTokenKind → Bool
  | .identifier value false => toAsciiUppercase value ∈ ["WHERE", "RETURN", "WITH", "UNWIND",
      "ORDER", "SKIP", "LIMIT", "UNION", "MATCH", "OPTIONAL", "CALL"]
  | _ => false

/-- The loop of `node_pattern_is_in_match_clause`. -/
def reachesOpening (opening : Nat) (base : Depth) : Depth → List (Lexeme × Nat) → Bool
  | _, [] => false
  | depth, (token, index) :: rest =>
    if depth = base ∧ index ≠ opening ∧ endsMatchClause token.kind then false
    else if token.kind = .symbol '(' ∧ index = opening then depth = base
    else reachesOpening opening base (depth.next token.kind) rest

def nodePatternIsInMatchClause (tokens : List Lexeme) (matchIndex opening : Nat) (base : Depth) :
    Bool :=
  reachesOpening opening base base ((tokens.zipIdx.take (opening + 1)).drop (matchIndex + 1))

/-- The loop of `node_pattern_has_static_label`, with the token after the colon. -/
def labelAfterColon : Depth → List Lexeme → Option Lexeme → Bool
  | _, [], _ => false
  | depth, token :: rest, close =>
    if token.kind = .symbol ':' ∧ depth = .zero then tokenIsIdentifier (rest.head?.or close)
    else labelAfterColon (depth.next token.kind) rest close

def nodePatternHasStaticLabel (tokens : List Lexeme) (opening close : Nat) : Bool :=
  labelAfterColon .zero ((tokens.take close).drop (opening + 1)) tokens[close]?

def pathConnectorAfter (tokens : List Lexeme) (close : Nat) : Bool :=
  (tokenIsSymbol tokens[close + 1]? '-' &&
    (tokenIsSymbol tokens[close + 2]? '-' || tokenIsSymbol tokens[close + 2]? '[' ||
      tokenIsSymbol tokens[close + 2]? '>')) ||
    (tokenIsSymbol tokens[close + 1]? '<' && tokenIsSymbol tokens[close + 2]? '-')

def pathConnectorBefore (tokens : List Lexeme) : Nat → Bool
  | 0 => false
  | previous + 1 =>
    let beforePrevious : Option Lexeme := if previous = 0 then none else tokens[previous - 1]?
    (tokenIsSymbol tokens[previous]? '-' &&
      (tokenIsSymbol beforePrevious '-' || tokenIsSymbol beforePrevious ']' ||
        tokenIsSymbol beforePrevious '<')) ||
      (tokenIsSymbol tokens[previous]? '>' && tokenIsSymbol beforePrevious '-')

def isFunctionWrapper (tokens : List Lexeme) : Nat → Bool
  | 0 => false
  | previous + 1 =>
    match tokens[previous]? with
    | some ⟨.identifier value _, _⟩ => toAsciiUppercase value ≠ "MATCH"
    | _ => false

def rejectUnlabeledNodePatterns (tokens : List Lexeme) : Result Unit :=
  let matchDepths := matchPatternDepths tokens.zipIdx .zero
  (matchingBrackets tokens.zipIdx []).forM fun (opening, close) =>
    let inMatchPattern := !isFunctionWrapper tokens opening &&
      matchDepths.any fun (matchIndex, base) =>
        matchIndex < opening && nodePatternIsInMatchClause tokens matchIndex opening base
    ensure (¬ ((pathConnectorAfter tokens close || pathConnectorBefore tokens opening ||
        inMatchPattern) && !nodePatternHasStaticLabel tokens opening close))
      (.invalidCommand "graph node patterns must use an explicit non-reserved label")

def unionClauseStartsAt (tokens : List Lexeme) (index : Nat) : Bool :=
  let next := if tokenIsKeyword tokens[index + 1]? "ALL" then index + 2 else index + 1
  tokenIsKeyword tokens[index]? "UNION" &&
    !(0 < index && tokenIsKeyword tokens[index - 1]? "AS") &&
    match tokens[next]? with
    | some ⟨.identifier value false, _⟩ => toAsciiUppercase value ∉ ["ALL", "AS", "LIMIT", "SKIP",
        "ORDER", "BY", "WHERE", "ASC", "DESC", "AND", "OR", "XOR", "IN", "IS", "NULL"]
    | _ => false

def trailingLimitIndex (tokens : List Lexeme) (start stop : Nat) : Option Nat :=
  let limitIndex := stop - 2
  if 2 ≤ stop ∧ start ≤ limitIndex ∧ tokenIsKeyword tokens[limitIndex]? "LIMIT" ∧
      Depth.after ((tokens.take limitIndex).drop start) = .zero then some limitIndex
  else none

def parseDigits (value : String) : Nat :=
  value.toList.foldl (fun n c => n * 10 + (c.toNat - '0'.toNat)) 0

def requestedLimit (tokens : List Lexeme) (limitIndex branchEnd : Nat) (parameters : Parameters) :
    Result Nat :=
  match (tokens.take branchEnd).drop (limitIndex + 1) with
  | [⟨.integer value, _⟩] => orInvalid "graph LIMIT is too large" (checkedUsize (parseDigits value))
  | [⟨.parameter name, _⟩] =>
    match Assoc.get parameters name with
    | some (.u64 value) => .ok value
    | some (.i64 value) =>
      if 0 ≤ value then .ok value.toNat
      else invalidCommand "graph LIMIT parameter must be a nonnegative integer"
    | some _ => invalidCommand "graph LIMIT parameter must be a nonnegative integer"
    | none => invalidCommand ("graph LIMIT parameter is missing: " ++ name)
  | _ => invalidCommand "graph LIMIT must be one nonnegative integer or parameter"

def staticExecutionRowBound (tokens : List Lexeme) (parameters : Parameters) (maxRows : Nat) :
    Result Nat := do
  let overflowProbe ← orInvalid "graph query row limit overflow" (checkedUsize (maxRows + 1))
  if (List.range tokens.length).any (unionClauseStartsAt tokens) then .ok maxRows
  else
    match trailingLimitIndex tokens 0 tokens.length with
    | none => .ok overflowProbe
    | some limitIndex => do
      let requested ← requestedLimit tokens limitIndex tokens.length parameters
      .ok (if requested ≤ maxRows then requested else overflowProbe)

/-- What `bounded_read_statement` does to the statement. -/
inductive ReadBound
  | asWritten
  | appended (limit : Nat)
  | replaced (limitValue : Nat) (limit : Nat)
  deriving DecidableEq

def unionIndices (tokens : List Lexeme) : List Nat :=
  (List.range tokens.length).filter fun index =>
    Depth.after (tokens.take index) = .zero ∧ unionClauseStartsAt tokens index

/-- The loop over the branches of a `UNION`, up to the places where they end. -/
def totalLimit (tokens : List Lexeme) (parameters : Parameters) :
    Nat → Nat → List Nat → Result Nat
  | total, _, [] => .ok total
  | total, branchStart, branchEnd :: rest =>
    match trailingLimitIndex tokens branchStart branchEnd with
    | none => invalidCommand
        "UNION queries require exactly one explicit bounded LIMIT in every branch"
    | some limitIndex => do
      let requested ← requestedLimit tokens limitIndex branchEnd parameters
      let total ← orInvalid "graph UNION LIMIT sum overflow" (checkedUsize (total + requested))
      let next := branchEnd + 1
      totalLimit tokens parameters total
        (if tokenIsKeyword tokens[next]? "ALL" then next + 1 else next) rest

def boundedReadStatement (tokens : List Lexeme) (parameters : Parameters) (maxRows : Nat) :
    Result ReadBound := do
  let executionLimit ← orInvalid "graph query row limit overflow" (checkedUsize (maxRows + 1))
  if unionIndices tokens ≠ [] then do
    let total ← totalLimit tokens parameters 0 0 (unionIndices tokens ++ [tokens.length])
    ensure (total ≤ maxRows) (.invalidCommand ("graph UNION branch LIMIT sum " ++ toString total ++
      " exceeds max_rows " ++ toString maxRows))
    .ok .asWritten
  else
    match trailingLimitIndex tokens 0 tokens.length with
    | none => .ok (.appended executionLimit)
    | some limitIndex => do
      let requested ← requestedLimit tokens limitIndex tokens.length parameters
      if requested ≤ maxRows then .ok .asWritten
      else
        match tokens[limitIndex + 1]? with
        | some ⟨.parameter _, _⟩ =>
          invalidCommand ("graph LIMIT parameter exceeds max_rows " ++ toString maxRows)
        | _ => .ok (.replaced (limitIndex + 1) executionLimit)

def resultClauseAt (tokens : List Lexeme) (stop : Nat) : Option String :=
  let clauses := ["MATCH", "WHERE", "WITH", "UNWIND", "RETURN", "ORDER", "SKIP", "LIMIT", "UNION"]
  ((tokens.take stop).foldl (fun (clause, depth) token =>
    let found := clauses.find? (tokenIsKeyword (some token))
    (if depth = .zero then found.or clause else clause, depth.next token.kind))
    ((none : Option String), Depth.zero)).1

def isResultClauseAt (tokens : List Lexeme) (index : Nat) : Bool :=
  resultClauseAt tokens index = some "RETURN" || resultClauseAt tokens index = some "WITH"

def resultExpansionMultiplier (tokens : List Lexeme) (index rowBound : Nat) : Nat :=
  if isResultClauseAt tokens index then max rowBound 1 else 1

def reserveStaticExpansion (remaining bytes maxBytes : Nat) : Result Nat := do
  ensure (bytes ≤ remaining) (.invalidCommand
    ("graph statically expanded values exceed " ++ toString maxBytes ++ " result bytes"))
  .ok (remaining - bytes)

mutual

def graphParameterExpansionBytes : GraphParameterValue → Result Nat
  | .null => .ok 1
  | .bool _ => .ok 1
  | .i64 _ => .ok 16
  | .u64 _ => .ok 16
  | .f64 _ => .ok 16
  | .string value => orInvalid "graph parameter expansion size overflow"
      (checkedUsize ((utf8 value).length + 16))
  | .bytes value => orInvalid "graph parameter expansion size overflow"
      (checkedUsize (value.length + 16))
  | .list values => listExpansionBytes 16 values
  | .struct fields => structExpansionBytes 16 fields

def listExpansionBytes (size : Nat) : List GraphParameterValue → Result Nat
  | [] => .ok size
  | value :: values => do
    let valueSize ← graphParameterExpansionBytes value
    let size ← orInvalid "graph parameter expansion size overflow" (checkedUsize (size + valueSize))
    listExpansionBytes size values

def structExpansionBytes (size : Nat) : List (String × GraphParameterValue) → Result Nat
  | [] => .ok size
  | (name, value) :: fields => do
    let valueSize ← graphParameterExpansionBytes value
    let size ← orInvalid "graph parameter expansion size overflow"
      (checkedUsize (size + (utf8 name).length + valueSize))
    structExpansionBytes size fields

end

/-- The loop of `function_arguments` from behind the opening bracket. -/
def argumentsFrom (depth : Depth) (current : List Lexeme) (arguments : List (List Lexeme)) :
    List Lexeme → Result (List (List Lexeme))
  | [] => invalidCommand "graph query contains an unterminated function call"
  | token :: rest =>
    if token.kind = .symbol ')' ∧ depth.round - 1 = 0 then
      .ok (if current ≠ [] ∨ arguments ≠ [] then arguments ++ [current] else arguments)
    else if token.kind = .symbol ',' ∧ depth = ⟨1, 0, 0⟩ then
      argumentsFrom depth [] (arguments ++ [current]) rest
    else argumentsFrom (depth.next token.kind) (current ++ [token]) arguments rest

def functionArguments (tokens : List Lexeme) (opening : Nat) : Result (List (List Lexeme)) :=
  argumentsFrom ⟨1, 0, 0⟩ [] [] (tokens.drop (opening + 1))

def staticInteger (tokens : List Lexeme) (parameters : Parameters) : Result Int :=
  let bounded (value : Int) : Result Int :=
    if value ≤ i128Max then .ok value else invalidCommand "graph RANGE integer is too large"
  match tokens with
  | [⟨.integer value, _⟩] => bounded (parseDigits value)
  | [⟨.symbol '-', _⟩, ⟨.integer value, _⟩] => do
    let value ← bounded (parseDigits value)
    .ok (-value)
  | [⟨.parameter name, _⟩] =>
    match Assoc.get parameters name with
    | some (.i64 value) => .ok value
    | some (.u64 value) => .ok value
    | some _ => invalidCommand "graph RANGE parameters must be integers"
    | none => invalidCommand ("graph RANGE parameter is missing: " ++ name)
  | _ => invalidCommand
      "graph RANGE cardinality must be statically bounded by integer literals or parameters"

def rangeCardinality (start stop step : Int) : Result Nat := do
  ensure (step ≠ 0) (.invalidCommand "graph RANGE step must not be zero")
  let distance := if 0 < step then stop - start else start - stop
  if distance < 0 then .ok 0
  else do
    ensure (distance ≤ i128Max) (.invalidCommand "graph RANGE distance overflow")
    orInvalid "graph RANGE cardinality is too large"
      (checkedUsize (distance.natAbs / step.natAbs + 1))

def staticRangeCardinality (arguments : List (List Lexeme)) (parameters : Parameters) :
    Result Nat :=
  match arguments with
  | [start, stop] => do
    let start ← staticInteger start parameters
    let stop ← staticInteger stop parameters
    rangeCardinality start stop 1
  | [start, stop, step] => do
    let start ← staticInteger start parameters
    let stop ← staticInteger stop parameters
    let step ← staticInteger step parameters
    rangeCardinality start stop step
  | _ => invalidCommand "graph RANGE must have static start, end, and optional step arguments"

def staticStringBytes (tokens : List Lexeme) (parameters : Parameters) (function : String) :
    Result Nat :=
  match tokens with
  | [⟨.stringLiteral, text⟩] => .ok (utf8Length text.tail.dropLast)
  | [⟨.parameter name, _⟩] =>
    match Assoc.get parameters name with
    | some (.string value) => .ok (utf8 value).length
    | some _ => invalidCommand ("graph " ++ function ++ " string parameter must be a string")
    | none => invalidCommand ("graph " ++ function ++ " parameter is missing: " ++ name)
  | _ => invalidCommand ("graph " ++ function ++
      " result bytes must be statically bounded by a string literal or parameter")

def repeatExpansionBytes (tokens : List Lexeme) (function : Nat) (parameters : Parameters) :
    Result Nat := do
  match ← functionArguments tokens (function + 1) with
  | [string, count] => do
    let stringBytes ← staticStringBytes string parameters "REPEAT"
    let count ← staticInteger count parameters
    ensure (0 ≤ count ∧ count ≤ usizeMax)
      (.invalidCommand "graph REPEAT count must be a nonnegative integer")
    orInvalid "graph REPEAT result size overflow" (checkedUsize (stringBytes * count.toNat))
  | _ => invalidCommand "graph REPEAT must have statically bounded string and count arguments"

def padExpansionBytes (tokens : List Lexeme) (function : Nat) (parameters : Parameters) :
    Result Nat := do
  match ← functionArguments tokens (function + 1) with
  | [_, count, _] => do
    let count ← staticInteger count parameters
    ensure (0 ≤ count ∧ count ≤ usizeMax)
      (.invalidCommand "graph LPAD/RPAD count must be a nonnegative integer")
    orInvalid "graph LPAD/RPAD result size overflow" (checkedUsize (count.toNat * 4))
  | _ => invalidCommand "graph LPAD/RPAD must have string, count, and padding arguments"

def unboundedContainerFunction (function : String) : Bool :=
  function ∈ ["COLLECT", "NODES", "RELS", "RELATIONSHIPS", "PROPERTIES", "LABELS", "KEYS", "MAP",
    "MAP_KEYS", "MAP_VALUES", "LIST_CONCAT", "LIST_CAT", "LIST_APPEND", "LIST_PREPEND",
    "LIST_SLICE", "LIST_SORT", "LIST_REVERSE_SORT", "LIST_DISTINCT", "LIST_REVERSE",
    "LIST_TRANSFORM", "LIST_FILTER", "ARRAY_VALUE", "ARRAY_CONCAT", "ARRAY_CAT", "ARRAY_APPEND",
    "ARRAY_PUSH_BACK", "ARRAY_PREPEND", "ARRAY_PUSH_FRONT", "ARRAY_SLICE", "REGEXP_EXTRACT_ALL",
    "REGEXP_SPLIT_TO_ARRAY", "STRING_SPLIT", "STR_SPLIT", "STRING_TO_ARRAY"]

def reserveLiteral (tokens : List Lexeme) (maxBytes rowBound index : Nat) (token : Lexeme)
    (remaining : Nat) : Result Nat :=
  if isResultClauseAt tokens index then do
    let literalBytes := if token.kind = .stringLiteral then utf8Length token.text else 0
    let projected ← orInvalid "graph projected expression size overflow"
      ((checkedUsize (literalBytes + 8)).bind fun bytes => checkedUsize (bytes * max rowBound 1))
    reserveStaticExpansion remaining projected maxBytes
  else .ok remaining

def reserveFunction (tokens : List Lexeme) (parameters : Parameters) (maxBytes rowBound index : Nat)
    (value : String) (remaining : Nat) : Result Nat :=
  let function := toAsciiUppercase value
  let multiplier := resultExpansionMultiplier tokens index rowBound
  if function = "RANGE" then do
    let arguments ← functionArguments tokens (index + 1)
    let cardinality ← staticRangeCardinality arguments parameters
    let bytes ← orInvalid "graph RANGE result cardinality overflow"
      (((checkedUsize (cardinality * 16)).bind fun bytes => checkedUsize (bytes + 16)).bind
        fun bytes => checkedUsize (bytes * multiplier))
    reserveStaticExpansion remaining bytes maxBytes
  else if function = "REPEAT" then do
    let bytes ← repeatExpansionBytes tokens index parameters
    let bytes ← orInvalid "graph REPEAT result size overflow" (checkedUsize (bytes * multiplier))
    reserveStaticExpansion remaining bytes maxBytes
  else if function ∈ ["LPAD", "RPAD"] then do
    let bytes ← padExpansionBytes tokens index parameters
    let bytes ← orInvalid "graph LPAD/RPAD result size overflow" (checkedUsize (bytes * multiplier))
    reserveStaticExpansion remaining bytes maxBytes
  else if function ∈ ["REPLACE", "REGEXP_REPLACE"] then
    invalidCommand ("graph expansion function " ++ value ++ " has no statically bounded result size")
  else if unboundedContainerFunction function then
    invalidCommand ("graph container function " ++ value ++
      " has no statically bounded result cardinality")
  else .ok remaining

/-- One turn of the loop in `reject_unbounded_result_containers`. -/
def reserveToken (tokens : List Lexeme) (parameters : Parameters) (maxBytes rowBound : Nat)
    (remaining : Nat) : Lexeme × Nat → Result Nat
  | (token, index) => do
    let remaining ← reserveLiteral tokens maxBytes rowBound index token remaining
    match token.kind with
    | .parameter name => do
      let value ← orInvalid ("graph query parameter is missing: " ++ name)
        (Assoc.get parameters name)
      let size ← graphParameterExpansionBytes value
      let bytes ← orInvalid "graph parameter expansion size overflow"
        (checkedUsize (size * resultExpansionMultiplier tokens index rowBound))
      reserveStaticExpansion remaining bytes maxBytes
    | .identifier value _ =>
      if tokenIsSymbol tokens[index + 1]? '(' then
        reserveFunction tokens parameters maxBytes rowBound index value remaining
      else .ok remaining
    | _ => .ok remaining

/-- The loop over the square brackets in `reject_list_comprehensions`. -/
def rejectComprehensions (tokens : List Lexeme) : List (Lexeme × Nat) → List Nat → Result Unit
  | [], _ => .ok ()
  | (⟨.symbol '[', _⟩, index) :: rest, stack => rejectComprehensions tokens rest (index :: stack)
  | (⟨.symbol ']', _⟩, index) :: rest, opening :: stack => do
    let body := (tokens.take index).drop (opening + 1)
    ensure (¬ ((body.any fun token => tokenIsKeyword (some token) "IN") &&
        body.any fun token => tokenIsSymbol (some token) '|'))
      (.invalidCommand
        "graph list comprehensions have no statically bounded result cardinality")
    rejectComprehensions tokens rest stack
  | _ :: rest, stack => rejectComprehensions tokens rest stack

def rejectUnboundedResultContainers (tokens : List Lexeme) (parameters : Parameters)
    (maxBytes rowBound : Nat) : Result Unit := do
  let _ ← tokens.zipIdx.foldlM (reserveToken tokens parameters maxBytes rowBound) maxBytes
  rejectComprehensions tokens tokens.zipIdx []

def isReservedName (name : String) : Bool :=
  "__rhiza".toList.isPrefixOf (toAsciiLowercase name).toList

def validateParameterName (name : String) : Result Unit := do
  ensure (name ≠ "" ∧ (utf8 name).length ≤ maxGraphParameterNameBytes) (.invalidCommand
    ("graph parameter name must contain 1..=" ++ toString maxGraphParameterNameBytes ++ " bytes"))
  ensure (name.toList.head?.any (fun c => c.isAlpha || c = '_') ∧ name.toList.tail.all isNameByte)
    (.invalidCommand "graph parameter names must be ASCII identifiers")
  ensure (isReservedName name = false)
    (.invalidCommand "graph parameter names cannot use the reserved __Rhiza namespace")

def checkName (token : Lexeme) : Result Unit :=
  let reserved : Error :=
    .invalidCommand "graph query cannot access the reserved __Rhiza namespace"
  match token.kind with
  | .parameter name => do
    validateParameterName name
    ensure (isReservedName name = false) reserved
  | .identifier value _ => ensure (isReservedName value = false) reserved
  | _ => .ok ()

/-- The checks of `admit_read_only_query` on the tokens, with what becomes of the statement. -/
def admitTokens (tokens : List Lexeme) (parameters : Parameters) (maxRows maxBytes : Nat) :
    Result ReadBound := do
  ensure (tokens ≠ [] ∧ ∀ token ∈ tokens, token.kind ≠ .semicolon)
    (.invalidCommand "graph query must contain exactly one statement")
  tokens.forM checkName
  rejectAdminExternalOrTransactionQueries tokens
  rejectUnlabeledNodePatterns tokens
  let executionRowBound ← staticExecutionRowBound tokens parameters maxRows
  rejectUnboundedResultContainers tokens parameters maxBytes executionRowBound
  boundedReadStatement tokens parameters maxRows

structure AdmittedQuery where
  statement : List Char
  referencedParameters : List String
  deriving DecidableEq

def bytePrefix : Nat → List Char → List Char
  | _, [] => []
  | n, c :: rest => if c.utf8Size ≤ n then c :: bytePrefix (n - c.utf8Size) rest else []

def trimEnd (chars : List Char) : List Char := (chars.reverse.dropWhile isWhitespace).reverse

def ReadBound.apply (body : List Char) (tokens : List QueryToken) : ReadBound → List Char
  | .asWritten => body
  | .appended limit => body ++ ("\nLIMIT " ++ toString limit).toList
  | .replaced limitValue limit =>
    match tokens[limitValue]? with
    | none => body
    | some token =>
      bytePrefix token.start body ++ (toString limit).toList ++
        body.drop (bytePrefix (token.start + utf8Length token.text) body).length

def withoutSemicolon (tokens : List Lexeme) : List Lexeme :=
  if tokens.getLast?.any (·.kind = .semicolon) then tokens.dropLast else tokens

def bodyEnd (statement : List Char) (tokens : List QueryToken) : Nat :=
  match tokens.getLast? with
  | some token => if token.kind = .semicolon then token.start else utf8Length statement
  | none => utf8Length statement

def admitReadOnlyQuery [UnicodeTables] (statement : List Char) (parameters : Parameters)
    (maxRows maxBytes : Nat) : Result AdmittedQuery := do
  ensure (statement.all isWhitespace = false ∧ utf8Length statement ≤ maxGraphQueryBytes)
    (.invalidCommand ("graph query must contain 1..=" ++ toString maxGraphQueryBytes ++ " bytes"))
  ensure ('\x00' ∉ statement) (.invalidCommand "graph query must not contain NUL")
  let tokens ← lexQuery statement
  let lexemes := withoutSemicolon (tokens.map (·.toLexeme))
  let bound ← admitTokens lexemes parameters maxRows maxBytes
  let body := trimEnd (bytePrefix (bodyEnd statement tokens) statement)
  .ok
    { statement := bound.apply body tokens
      referencedParameters := lexemes.filterMap fun token =>
        match token.kind with
        | .parameter name => some name
        | _ => none }

section Verdict

variable [UnicodeTables]

theorem admitReadOnlyQuery_iff {statement : List Char} {parameters : Parameters}
    {maxRows maxBytes : Nat} :
    (∃ admitted, admitReadOnlyQuery statement parameters maxRows maxBytes = .ok admitted) ↔
      statement.all isWhitespace = false ∧ utf8Length statement ≤ maxGraphQueryBytes ∧
      '\x00' ∉ statement ∧ ∃ lexemes bound, Reads statement lexemes ∧
        admitTokens (withoutSemicolon lexemes) parameters maxRows maxBytes = .ok bound := by
  constructor
  · rintro ⟨admitted, h⟩
    obtain ⟨hSize, h⟩ := unit_bind_ok_iff.mp h
    obtain ⟨hNul, h⟩ := unit_bind_ok_iff.mp h
    obtain ⟨tokens, hTokens, h⟩ := bind_ok_iff.mp h
    obtain ⟨bound, hBound, -⟩ := bind_ok_iff.mp h
    obtain ⟨hBlank, hBytes⟩ := ensure_ok_iff.mp hSize
    exact ⟨hBlank, hBytes, ensure_ok_iff.mp hNul, _, bound,
      lexQuery_iff.mp ⟨tokens, hTokens, rfl⟩, hBound⟩
  · rintro ⟨hBlank, hBytes, hNul, lexemes, bound, hReads, hBound⟩
    obtain ⟨tokens, hTokens, rfl⟩ := lexQuery_iff.mpr hReads
    exact ⟨_, unit_bind_ok_iff.mpr ⟨ensure_of ⟨hBlank, hBytes⟩, unit_bind_ok_iff.mpr
      ⟨ensure_of hNul, bind_ok_iff.mpr ⟨tokens, hTokens, bind_ok_iff.mpr ⟨bound, hBound, rfl⟩⟩⟩⟩⟩

omit [UnicodeTables] in
theorem admitTokens_nil {parameters : Parameters} {maxRows maxBytes : Nat} {bound : ReadBound} :
    admitTokens (withoutSemicolon []) parameters maxRows maxBytes ≠ .ok bound := by
  intro h
  obtain ⟨hSome, -⟩ := unit_bind_ok_iff.mp h
  exact (ensure_ok_iff.mp hSome).1 rfl

abbrev RelaidOften : List Char → List Char → Prop := Relation.ReflTransGen Relaid

theorem RelaidOften.reads_iff {statement statement' : List Char} (h : RelaidOften statement statement')
    (lexemes : List Lexeme) : Reads statement lexemes ↔ Reads statement' lexemes := by
  induction h with
  | refl => exact Iff.rfl
  | tail _ hLast ih => exact ih.trans hLast.reads_iff

theorem RelaidOften.nul_iff {statement statement' : List Char} (h : RelaidOften statement statement') :
    '\x00' ∈ statement ↔ '\x00' ∈ statement' := by
  induction h with
  | refl => exact Iff.rfl
  | tail _ hLast ih => exact ih.trans hLast.nul_iff

theorem Reads.not_blank {statement : List Char} {lexemes : List Lexeme} {parameters : Parameters}
    {maxRows maxBytes : Nat} {bound : ReadBound} (h : Reads statement lexemes)
    (hTab : ∀ lexeme ∈ lexemes, lexeme.kind ≠ .symbol '\x0b')
    (hBound : admitTokens (withoutSemicolon lexemes) parameters maxRows maxBytes = .ok bound) :
    statement.all isWhitespace = false := by
  refine Bool.eq_false_of_not_eq_true fun hBlank => ?_
  have hNone := h.of_blank (List.all_eq_true.mp hBlank) hTab
  subst hNone
  exact admitTokens_nil hBound

/-- Two statements of an admissible size that differ in their layout are admitted alike. -/
theorem admission_ignores_layout {statement statement' : List Char}
    (h : RelaidOften statement statement')
    (hBytes : utf8Length statement ≤ maxGraphQueryBytes)
    (hBytes' : utf8Length statement' ≤ maxGraphQueryBytes)
    (hTab : ∀ lexemes, Reads statement lexemes → ∀ lexeme ∈ lexemes, lexeme.kind ≠ .symbol '\x0b')
    (parameters : Parameters) (maxRows maxBytes : Nat) :
    (∃ admitted, admitReadOnlyQuery statement parameters maxRows maxBytes = .ok admitted) ↔
      ∃ admitted, admitReadOnlyQuery statement' parameters maxRows maxBytes = .ok admitted := by
  rw [admitReadOnlyQuery_iff, admitReadOnlyQuery_iff]
  constructor
  · rintro ⟨-, -, hNul, lexemes, bound, hReads, hBound⟩
    have hReads' := (h.reads_iff lexemes).mp hReads
    exact ⟨hReads'.not_blank (hTab lexemes hReads) hBound, hBytes', mt h.nul_iff.mpr hNul,
      lexemes, bound, hReads', hBound⟩
  · rintro ⟨-, -, hNul, lexemes, bound, hReads', hBound⟩
    have hReads := (h.reads_iff lexemes).mpr hReads'
    exact ⟨hReads.not_blank (hTab lexemes hReads) hBound, hBytes, mt h.nul_iff.mp hNul,
      lexemes, bound, hReads, hBound⟩

end Verdict

namespace Called

@[reducible] def tables : UnicodeTables := ⟨fun _ => false, fun _ _ => rfl⟩

attribute [local instance] tables

def before : List Char := "CALL".toList

def behind : List Char := "show_tables() RETURN *".toList

def isGrammarWhitespace (c : Char) : Bool :=
  (9 ≤ c.toNat && c.toNat ≤ 13) || (28 ≤ c.toNat && c.toNat ≤ 31) || c = ' '

/-- Behind a vertical tab the procedure is not seen as called. -/
theorem vertical_tab_hides_call : ∃ c c' : Char,
    isGrammarWhitespace c = true ∧ isGrammarWhitespace c' = true ∧
    (admitReadOnlyQuery (before ++ [c] ++ behind) [] 10 4096).isOk = false ∧
    (admitReadOnlyQuery (before ++ [c'] ++ behind) [] 10 4096).isOk = true :=
  ⟨' ', '\x0b', by decide, by decide, by decide +kernel, by decide +kernel⟩

def returned : List Char := "RETURN".toList ++ [] ++ " 1".toList

def commented : List Char := "RETURN".toList ++ "/* one */".toList ++ " 1".toList

theorem returned_commented : Relaid returned commented := by
  have hStep : lexStep ("RETURN".toList ++ ([] ++ ([] ++ " 1".toList))) =
      .ok (some ⟨.identifier "RETURN" false, "RETURN".toList⟩, [] ++ ([] ++ " 1".toList)) := by
    decide +kernel
  have hAt := At.turn (by decide) hStep (.start ([] ++ " 1".toList))
  have hGap : Gap (" 1".toList = []) "/* one */".toList :=
    .blockComment " one ".toList (by decide) .none
  exact .intro [] _ hAt (.inl rfl) hGap (by decide) (by decide) (by decide) (by decide)

theorem returned_tokens {lexemes : List Lexeme} (h : Reads returned lexemes) :
    ∀ lexeme ∈ lexemes, lexeme.kind ≠ .symbol '\x0b' := by
  obtain ⟨tokens, hTokens, rfl⟩ := lexQuery_iff.mpr h
  have hRead : (lexQuery returned).toOption.any (fun tokens =>
      (tokens.map (·.toLexeme)).all (·.kind ≠ .symbol '\x0b')) = true := by
    decide +kernel
  rw [hTokens] at hRead
  exact fun lexeme hMem => of_decide_eq_true (List.all_eq_true.mp hRead lexeme hMem)

/-- A comment behind the first token leaves the statement admitted. -/
theorem comment_is_ignored : ∃ admitted, admitReadOnlyQuery commented [] 10 4096 = .ok admitted := by
  have hReturned : (admitReadOnlyQuery returned [] 10 4096).isOk = true := by decide +kernel
  refine (admission_ignores_layout (.single returned_commented) (by decide +kernel)
    (by decide +kernel) (fun _ => returned_tokens) [] 10 4096).mp ?_
  cases hAdmitted : admitReadOnlyQuery returned [] 10 4096 with
  | error error =>
    rw [hAdmitted] at hReturned
    cases hReturned
  | ok admitted => exact ⟨admitted, rfl⟩

end Called

end Rhiza.Graph
