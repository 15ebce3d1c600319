import Nsl.Ast
import Nsl.Base.Run
import Nsl.Tokens
/-!
# Parser — tokens to trees

`Parser` of `syntax.py`. It walks over the tokens with one cursor and builds the tree as it goes; the cursor of the model
also keeps what each token behind it was taken for. Recursion and loops have fuel; the fuel of `parse` is more than any
token sequence needs (`ParserDepth`).
-/
namespace Nsl

open Stateful (Run)

/-- What a token was taken for: the word it spells, or its kind. -/
inductive Role | word | kind
  deriving DecidableEq, Repr

/-- `tokens` and `index`: the tokens behind the cursor, the last one first, and those ahead of it. -/
structure Cursor where
  taken : List (Token × Role)
  ahead : List Token

/-- What the parser raises: its diagnostics, and the exceptions nothing catches. -/
inductive ParseError
  /-- `PAR_EXPECTED_TOKEN` -/
  | expectedToken (word : String) (got : Token)
  /-- `PAR_EXPECTED_TOKEN_KIND` -/
  | expectedTokenKind (kind : TokenKind) (got : Token)
  /-- `PAR_UNKNOWN_TYPE`: `unknown type: …` -/
  | unknownType (name : String)
  /-- `PAR_UNKNOWN_TYPE`: `invalid Money currency: …` -/
  | invalidCurrency (currency : String)
  /-- `PAR_UNKNOWN_CLASSIFICATION` -/
  | unknownClassification (value : String)
  /-- `PAR_REQUIRED_METADATA` -/
  | requiredMetadata
  /-- `PAR_UNEXPECTED_FRAGMENT_DECLARATION` -/
  | unexpectedFragmentDeclaration (got : Token)
  /-- `PAR_INVALID_LIMIT_FIELDS`: `duplicate limit field: …` -/
  | duplicateLimit (name : String)
  /-- `PAR_INVALID_LIMIT_FIELDS` -/
  | invalidLimitFields
  /-- `PAR_NON_POSITIVE_LIMIT` -/
  | nonPositiveLimit
  /-- `PAR_NON_POSITIVE_FOREACH_LIMIT` -/
  | nonPositiveForeachLimit
  /-- `PAR_UNEXPECTED_STATEMENT` -/
  | unexpectedStatement (got : Token)
  /-- `PAR_EXPECTED_EXPRESSION` -/
  | expectedExpression (got : Token)
  /-- the `IndexError` of `tokens[index]` -/
  | pastTheEnd
  /-- the `ValueError` of `int(lexeme)` -/
  | notAnInteger (digits : Digits)
  /-- the `InvalidOperation` of `Decimal(lexeme)` -/
  | notADecimal (whole fraction : Digits)
  /-- out of fuel -/
  | depth
  deriving DecidableEq

abbrev Parse (α : Type) := Run Cursor ParseError α

namespace Parser

/-! ## Tokens -/

def current : Parse Token := do
  let ahead ← Run.look (·.ahead)
  match ahead with
  | []     => Run.fail .pastTheEnd
  | t :: _ => Run.done t

/-- `_advance` -/
def advance (role : Role) : Parse Unit := do
  let t ← current
  Run.write (fun c => ⟨(t, role) :: c.taken, c.ahead.tail⟩)

/-- `self.current.value == word` -/
def atWord (word : String) : Parse Bool := do
  let t ← current
  Run.done (decide (t.text = some word))

/-- `_accept` -/
def accept (word : String) : Parse Bool := do
  if ← atWord word then do
    advance .word
    Run.done true
  else Run.done false

/-- `_expect` -/
def expect (word : String) : Parse Unit := do
  let t ← current
  if t.text = some word then advance .word else Run.fail (.expectedToken word t)

/-- `_expect_kind(kind).value` -/
def expectKind {α : Type} (kind : TokenKind) (payload : Token → Option α) : Parse α := do
  let t ← current
  match payload t with
  | some a => do
    advance .kind
    Run.done a
  | none   => Run.fail (.expectedTokenKind kind t)

def expectIdentifier : Parse String := expectKind .identifier Token.asIdentifier?

def expectString : Parse String := expectKind .string Token.asString?

/-- `while` a step gives something. -/
def many {α : Type} (step : Parse (Option α)) : Nat → Parse (List α)
  | 0     => Run.fail .depth
  | n + 1 => do
    match ← step with
    | none   => Run.done []
    | some a => do
      let as ← many step n
      Run.done (a :: as)

/-- `int(value)` of an integer token. -/
def integerValue (digits : Digits) : Parse Nat :=
  match Text.natOf digits.chars with
  | some n => Run.done n
  | none   => Run.fail (.notAnInteger digits)

/-! ## Names and types -/

/-- One more part of a dotted name. -/
def nextPart : Parse (Option String) := do
  if ← accept "." then do
    let part ← expectIdentifier
    Run.done (some part)
  else Run.done none

/-- `_qualified_name` -/
def qualifiedName (fuel : Nat) : Parse String := do
  let first ← expectIdentifier
  let rest ← many nextPart fuel
  Run.done (Text.join "." (first :: rest))

/-- `_TYPE_NAMES` -/
def typeNames : List (String × TypeRef) :=
  [("String", STRING), ("Int", INT), ("Bool", BOOL), ("Date", DATE), ("DateTime", DATETIME), ("Decimal", DECIMAL),
   ("Year", YEAR), ("TeamId", domain "TeamId"), ("EmployeeId", domain "EmployeeId"), ("AccountCode", domain "AccountCode"),
   ("ProjectCode", domain "ProjectCode"), ("AccountingPeriod", domain "AccountingPeriod"),
   ("OrganizationId", domain "OrganizationId"), ("CheckStatus", CHECK_STATUS)]

/-- `_type` -/
def typeRef : Nat → Parse TypeRef
  | 0     => Run.fail .depth
  | n + 1 => do
    let name ← expectIdentifier
    if name = "Money" then do
      expect "<"
      let currency ← expectIdentifier
      expect ">"
      if h : isCurrencyCode currency = true then Run.done (moneyType currency h)
      else Run.fail (.invalidCurrency currency)
    else if name = "List" then do
      expect "<"
      let item ← typeRef n
      expect ">"
      Run.done (listType item)
    else
      match typeNames.lookup name with
      | some t => Run.done t
      | none   => Run.fail (.unknownType name)

/-- `_classification` -/
def classification : Parse DataClassification := do
  if ← accept "classification" then do
    let value ← expectIdentifier
    match StrEnum.ofValue? value with
    | some c => Run.done c
    | none   => Run.fail (.unknownClassification value)
  else Run.done .internal

/-! ## Sections -/

/-- `_include` -/
def includePath : Parse String := do
  expect "include"
  let path ← expectString
  expect ";"
  Run.done path

/-- One `tool … version …;` of `_requires`. -/
def nextTool (fuel : Nat) : Parse (Option AstRequiredTool) := do
  if ← accept "\x7d" then Run.done none
  else do
    expect "tool"
    let toolId ← qualifiedName fuel
    expect "version"
    let version ← expectString
    expect ";"
    Run.done (some ⟨toolId, version⟩)

/-- `_requires` -/
def requires (fuel : Nat) : Parse (List AstRequiredTool) := do
  expect "requires"
  expect "\x7b"
  many (nextTool fuel) fuel

/-- The value of one limit. -/
def limitValue (name : String) : Parse Nat :=
  if name = "duration" then expectKind .duration Token.asDuration?
  else do
    let digits ← expectKind .integer Token.asInteger?
    integerValue digits

/-- The fields of a limits block, after those seen before. -/
def limitFields : Nat → List (String × Nat) → Parse (List (String × Nat))
  | 0,     _      => Run.fail .depth
  | n + 1, values => do
    if ← atWord "\x7d" then Run.done values
    else do
      let name ← expectIdentifier
      if (values.map Prod.fst).contains name then Run.fail (.duplicateLimit name)
      else do
        let value ← limitValue name
        expect ";"
        limitFields n (values ++ [(name, value)])

def requiredLimits : List String := ["tool_calls", "loop_iterations", "emitted_rows", "collection_size"]

/-- The limits of the fields, with the default duration. -/
def limitsOf (values : List (String × Nat)) : AstLimits :=
  let value (name : String) := (values.lookup name).getD 0
  ⟨value "tool_calls", value "loop_iterations", value "emitted_rows", value "collection_size",
    (values.lookup "duration").getD 60000⟩

/-- `_limits`, up to the object made of the fields. -/
def limits (fuel : Nat) : Parse (List (String × Nat)) := do
  expect "limits"
  expect "\x7b"
  let values ← limitFields fuel []
  expect "\x7d"
  let names := values.map Prod.fst
  if requiredLimits.all names.contains && names.all ("duration" :: requiredLimits).contains then
    if values.any (fun v => v.2 = 0) then do
      let _ ← current
      Run.fail .nonPositiveLimit
    else Run.done values
  else do
    let _ ← current
    Run.fail .invalidLimitFields

/-- The `from "…"` of a context field. -/
def fieldPath (withPath : Bool) : Parse (List String) :=
  if withPath then do
    expect "from"
    let path ← expectString
    Run.done (Text.split '.' path)
  else Run.done []

/-- One field of `_fields`. -/
def nextField (withPath : Bool) (fuel : Nat) : Parse (Option AstFieldSpec) := do
  if ← accept "\x7d" then Run.done none
  else do
    let name ← expectIdentifier
    expect ":"
    let typeInfo ← typeRef fuel
    let path ← fieldPath withPath
    let classification ← classification
    expect ";"
    Run.done (some ⟨name, typeInfo, classification, path⟩)

/-- `_fields` -/
def fields (keyword : String) (withPath : Bool) (fuel : Nat) : Parse (List AstFieldSpec) := do
  expect keyword
  expect "\x7b"
  many (nextField withPath fuel) fuel

/-! ## Expressions -/

/-- `_PRECEDENCE` -/
def precedence (operator : String) : Option Nat :=
  [("==", 10), ("!=", 10), ("<", 20), ("<=", 20), (">", 20), (">=", 20), ("+", 30), ("-", 30), ("*", 40), ("/", 40)].lookup
    operator

/-- The operator a token spells, with its precedence. -/
def operatorOf (t : Token) : Option (String × Nat) := t.text.bind (fun o => (precedence o).map (fun p => (o, p)))

/-- `AstLiteral` of a number, a text or a truth value; none for the other tokens. -/
def literalOf : Token → Option (Except ParseError AstExpression)
  | .integer digits     =>
    some (match Text.natOf digits.chars with
      | some n => .ok (.literal (.int n) INT)
      | none   => .error (.notAnInteger digits))
  | .decimal whole frac =>
    some (match Decimal.parse (String.ofList (whole.chars ++ '.' :: frac.chars)) with
      | some d => .ok (.literal (.decimal d) DECIMAL)
      | none   => .error (.notADecimal whole frac))
  | .string content     => some (.ok (.literal (.str content) STRING))
  | .boolean truth      => some (.ok (.literal (.bool truth) BOOL))
  | _                   => none

/-- Further parts of a path. -/
def pathOf (name : String) (fuel : Nat) : Parse AstExpression := do
  let rest ← many nextPart fuel
  Run.done (.path (name :: rest))

mutual
/-- `_expression` -/
def expression (v02 : Bool) : Nat → Nat → Parse AstExpression
  | 0,     _       => Run.fail .depth
  | n + 1, minimum => do
    let left ← primary v02 n
    operators v02 n minimum left
/-- The loop of `_expression` over the operators. -/
def operators (v02 : Bool) : Nat → Nat → AstExpression → Parse AstExpression
  | 0,     _,       _    => Run.fail .depth
  | n + 1, minimum, left => do
    let t ← current
    match operatorOf t with
    | none                        => Run.done left
    | some (operator, precedence) =>
      if precedence < minimum then Run.done left
      else do
        advance .word
        let right ← expression v02 n (precedence + 1)
        operators v02 n minimum (.binary operator left right)
/-- `_primary` -/
def primary (v02 : Bool) : Nat → Parse AstExpression
  | 0     => Run.fail .depth
  | n + 1 => do
    let t ← current
    match literalOf t with
    | some value => do
      advance .kind
      Run.ofExcept value
    | none =>
      if t.text = some "read" then do
        advance .word
        let toolId ← qualifiedName n
        expect "("
        let arguments ← namedArguments v02 ":" n
        Run.done (.read toolId arguments)
      else if t = .keyword .write ∧ v02 = true then do
        advance .word
        let toolId ← qualifiedName n
        expect "("
        let arguments ← namedArguments v02 "=" n
        expect "approved_by"
        let approvalId ← expectIdentifier
        Run.done (.write toolId arguments approvalId)
      else
        match t.asIdentifier? with
        | some name => do
          advance .kind
          if ← accept "(" then do
            let arguments ← callArguments v02 n
            Run.done (.call name arguments)
          else pathOf name n
        | none => do
          if ← accept "(" then do
            let e ← expression v02 n 0
            expect ")"
            Run.done e
          else Run.fail (.expectedExpression t)
/-- `name: e` or `name = e` up to the closing parenthesis. -/
def namedArguments (v02 : Bool) (separator : String) : Nat → Parse (List (String × AstExpression))
  | 0     => Run.fail .depth
  | n + 1 => do
    if ← accept ")" then Run.done [] else moreNamedArguments v02 separator n
def moreNamedArguments (v02 : Bool) (separator : String) : Nat → Parse (List (String × AstExpression))
  | 0     => Run.fail .depth
  | n + 1 => do
    let name ← expectIdentifier
    expect separator
    let e ← expression v02 n 0
    if ← accept ")" then Run.done [(name, e)]
    else do
      expect ","
      let rest ← moreNamedArguments v02 separator n
      Run.done ((name, e) :: rest)
/-- The arguments of a call up to the closing parenthesis. -/
def callArguments (v02 : Bool) : Nat → Parse (List AstExpression)
  | 0     => Run.fail .depth
  | n + 1 => do
    if ← accept ")" then Run.done [] else moreCallArguments v02 n
def moreCallArguments (v02 : Bool) : Nat → Parse (List AstExpression)
  | 0     => Run.fail .depth
  | n + 1 => do
    let e ← expression v02 n 0
    if ← accept ")" then Run.done [e]
    else do
      expect ","
      let rest ← moreCallArguments v02 n
      Run.done (e :: rest)
end

/-! ## Statements -/

/-- `approve …` after its keyword. -/
def approveRest : Parse AstStatement := do
  let approvalId ← expectIdentifier
  expect "\x7b"
  expect "message"
  let message ← expectString
  expect ";"
  expect "\x7d"
  Run.done (.approve approvalId message)

/-- `let …` after its keyword. -/
def letRest (v02 : Bool) (fuel : Nat) : Parse AstStatement := do
  let name ← expectIdentifier
  expect "="
  let value ← expression v02 fuel 0
  expect ";"
  Run.done (.letBind name value)

/-- `check …` after its keyword. -/
def checkRest (v02 : Bool) (fuel : Nat) : Parse AstStatement := do
  let checkId ← expectIdentifier
  expect "\x7b"
  expect "assert"
  let condition ← expression v02 fuel 0
  expect ";"
  expect "severity"
  let severity ← expectIdentifier
  expect ";"
  expect "on_fail"
  let onFail ← expectIdentifier
  expect ";"
  expect "message"
  let message ← expectString
  expect ";"
  expect "\x7d"
  Run.done (.check checkId condition severity onFail message)

/-- One field of an EMIT. -/
def nextEmitField (v02 : Bool) (fuel : Nat) : Parse (Option (String × AstExpression)) := do
  if ← atWord "\x7d" then Run.done none
  else do
    let name ← expectIdentifier
    expect ":"
    let e ← expression v02 fuel 0
    expect ";"
    Run.done (some (name, e))

/-- `emit …` after its keyword. -/
def emitRest (v02 : Bool) (fuel : Nat) : Parse AstStatement := do
  expect "\x7b"
  let fields ← many (nextEmitField v02 fuel) fuel
  expect "\x7d"
  Run.done (.emit fields)

/-- `int(max_token.value)`, a positive one. -/
def maxIterations : Parse Nat := do
  let digits ← expectKind .integer Token.asInteger?
  let n ← integerValue digits
  if n = 0 then Run.fail .nonPositiveForeachLimit else Run.done n

mutual
/-- `_statement` -/
def statement (v02 : Bool) : Nat → Parse AstStatement
  | 0     => Run.fail .depth
  | n + 1 => do
    let t ← current
    if t = .keyword .approve ∧ v02 = true then do
      advance .word
      approveRest
    else if t.text = some "let" then do
      advance .word
      letRest v02 n
    else if t.text = some "foreach" then do
      advance .word
      let iterator ← expectIdentifier
      expect "in"
      let collection ← expression v02 n 0
      expect "max"
      let maximum ← maxIterations
      expect "\x7b"
      let body ← block v02 n
      expect "\x7d"
      Run.done (.foreach iterator collection maximum body)
    else if t.text = some "check" then do
      advance .word
      checkRest v02 n
    else if t.text = some "emit" then do
      advance .word
      emitRest v02 n
    else Run.fail (.unexpectedStatement t)
/-- Statements up to a closing brace. -/
def block (v02 : Bool) : Nat → Parse (List AstStatement)
  | 0     => Run.fail .depth
  | n + 1 => do
    if ← atWord "\x7d" then Run.done []
    else do
      let s ← statement v02 n
      let ss ← block v02 n
      Run.done (s :: ss)
end

/-! ## Skills and fragments -/

/-- One declaration of a skill, as it is written. -/
inductive Section
  | version (text : String)
  | risk (name : String)
  | included (path : String)
  | requires (tools : List AstRequiredTool)
  | limits (values : List (String × Nat))
  | input (fields : List AstFieldSpec)
  | context (fields : List AstFieldSpec)
  | output (fields : List AstFieldSpec)
  | statement (s : AstStatement)

/-- One pass of the loop of `_parse_skill`. -/
def nextSection (v02 : Bool) (fuel : Nat) : Parse (Option Section) := do
  let t ← current
  if t.text = some "\x7d" then Run.done none
  else if t.text = some "version" then do
    advance .word
    let text ← expectString
    expect ";"
    Run.done (some (.version text))
  else if t.text = some "risk" then do
    advance .word
    let name ← expectIdentifier
    expect ";"
    Run.done (some (.risk name))
  else if t.text = some "include" then do
    let path ← includePath
    Run.done (some (.included path))
  else if t.text = some "requires" then do
    let tools ← requires fuel
    Run.done (some (.requires tools))
  else if t.text = some "limits" then do
    let values ← limits fuel
    Run.done (some (.limits values))
  else if t.text = some "input" then do
    let fs ← fields "input" false fuel
    Run.done (some (.input fs))
  else if t.text = some "context" then do
    let fs ← fields "context" true fuel
    Run.done (some (.context fs))
  else if t.text = some "output" then do
    let fs ← fields "output" false fuel
    Run.done (some (.output fs))
  else do
    let s ← statement v02 fuel
    Run.done (some (.statement s))

end Parser

/-- The variables of `_parse_skill`, as an assignment of each pass leaves them. -/
def AstSkill.assign (skill : AstSkill) : Parser.Section → AstSkill
  | .version text    => { skill with skillVersion := text }
  | .risk name       => { skill with risk := name }
  | .included path   => { skill with includes := skill.includes ++ [path] }
  | .requires tools  => { skill with requires := tools }
  | .limits values   => { skill with limits := some (Parser.limitsOf values) }
  | .input fields    => { skill with inputs := fields }
  | .context fields  => { skill with contexts := fields }
  | .output fields   => { skill with outputs := fields }
  | .statement s     => { skill with body := skill.body ++ [s] }

/-- A skill before its first section. -/
def AstSkill.opened (languageVersion skillId : String) : AstSkill :=
  ⟨languageVersion, skillId, "", "", [], [], none, [], [], [], []⟩

namespace Parser

/-- The head of a skill: its language version and its name. -/
def skillHead (fuel : Nat) : Parse (String × String) := do
  expect "language"
  expect "NSL"
  let languageVersion ← expectString
  expect ";"
  expect "skill"
  let skillId ← qualifiedName fuel
  expect "\x7b"
  Run.done (languageVersion, skillId)

/-- The sections of a skill between its braces, and the end of the input. -/
def skillSections (v02 : Bool) (fuel : Nat) : Parse (List Section) := do
  let sections ← many (nextSection v02 fuel) fuel
  expect "\x7d"
  expect "<eof>"
  Run.done sections

/-- `_parse_skill` -/
def parseSkill (fuel : Nat) : Parse AstSkill := do
  let (languageVersion, skillId) ← skillHead fuel
  let sections ← skillSections (languageVersion = "0.2") fuel
  let skill := sections.foldl AstSkill.assign (AstSkill.opened languageVersion skillId)
  if skill.skillVersion = "" ∨ skill.risk = "" ∨ (skill.limits = none ∧ skill.includes = []) then
    Run.fail .requiredMetadata
  else Run.done skill

/-- One declaration of a fragment. -/
inductive FragmentItem
  | included (path : String)
  | requires (tools : List AstRequiredTool)
  | context (fields : List AstFieldSpec)
  | limits (values : List (String × Nat))

/-- One pass of the loop of `_parse_include_fragment`. -/
def nextFragmentItem (fuel : Nat) : Parse (Option FragmentItem) := do
  let t ← current
  if t.kind = .eof then Run.done none
  else if t.text = some "include" then do
    let path ← includePath
    Run.done (some (.included path))
  else if t.text = some "requires" then do
    let tools ← requires fuel
    Run.done (some (.requires tools))
  else if t.text = some "context" then do
    let fs ← fields "context" true fuel
    Run.done (some (.context fs))
  else if t.text = some "limits" then do
    let values ← limits fuel
    Run.done (some (.limits values))
  else Run.fail (.unexpectedFragmentDeclaration t)

end Parser

def AstIncludeFragment.add (f : AstIncludeFragment) : Parser.FragmentItem → AstIncludeFragment
  | .included path  => { f with includes := f.includes ++ [path] }
  | .requires tools => { f with requires := f.requires ++ tools }
  | .context fields => { f with contexts := f.contexts ++ fields }
  | .limits values  => { f with limits := f.limits ++ [Parser.limitsOf values] }

namespace Parser

/-- `_parse_include_fragment` -/
def parseIncludeFragment (fuel : Nat) : Parse AstIncludeFragment := do
  let items ← many (nextFragmentItem fuel) fuel
  expect "<eof>"
  Run.done (items.foldl AstIncludeFragment.add ⟨[], [], [], []⟩)

/-- The cursor before the first token. -/
def start (tokens : List Token) : Cursor := ⟨[], tokens⟩

/-- Fuel enough for any way through the tokens. -/
def fuelFor (tokens : List Token) : Nat := 4 * tokens.length + 4

inductive ParseMode | rootSkill | includeFragment
  deriving DecidableEq, Repr

/-- `parse` -/
def parse (fuel : Nat) : ParseMode → Parse (AstSkill ⊕ AstIncludeFragment)
  | .rootSkill       => do
    let skill ← parseSkill fuel
    Run.done (.inl skill)
  | .includeFragment => do
    let fragment ← parseIncludeFragment fuel
    Run.done (.inr fragment)

/-- `Parser(tokens).parse(ParseMode.ROOT_SKILL)` -/
def parseRoot (tokens : List Token) : Except ParseError AstSkill :=
  (parseSkill (fuelFor tokens) (start tokens)).outcome

/-- `Parser(tokens).parse(ParseMode.INCLUDE_FRAGMENT)` -/
def parseFragment (tokens : List Token) : Except ParseError AstIncludeFragment :=
  (parseIncludeFragment (fuelFor tokens) (start tokens)).outcome

end Parser
end Nsl
