import Nsl.Core
/-!
# Tokens — what the lexer hands to the parser

The tokens of `syntax.py`. Each carries what its kind says: a keyword one of the words of the language, an identifier a
name that is no keyword, a number its digits. `Token.text` is the value of a token where that is a text: the parser asks
for delimiters, operators, keywords and the end of its input by this text alone.
-/
namespace Nsl

/-! ## Words -/

/-- The keywords of language 0.2. -/
inductive Keyword
  | language | skill | version | description | risk | include | requires | limits | input | context | output | tool
  | letWord | read | foreach | inWord | max | check | assert | severity | onFail | message | emit | write | approve
  | approvedBy
  deriving DecidableEq, Repr

instance : StrEnum Keyword where
  members :=
    [.language, .skill, .version, .description, .risk, .include, .requires, .limits, .input, .context, .output, .tool,
     .letWord, .read, .foreach, .inWord, .max, .check, .assert, .severity, .onFail, .message, .emit, .write, .approve,
     .approvedBy]
  value
    | .language => "language" | .skill => "skill" | .version => "version" | .description => "description"
    | .risk => "risk" | .include => "include" | .requires => "requires" | .limits => "limits" | .input => "input"
    | .context => "context" | .output => "output" | .tool => "tool" | .letWord => "let" | .read => "read"
    | .foreach => "foreach" | .inWord => "in" | .max => "max" | .check => "check" | .assert => "assert"
    | .severity => "severity" | .onFail => "on_fail" | .message => "message" | .emit => "emit" | .write => "write"
    | .approve => "approve" | .approvedBy => "approved_by"
  complete := by intro a; cases a <;> decide
  distinct := by intro a b; cases a <;> cases b <;> decide

/-- `_V0_1_KEYWORDS` -/
def Keyword.inV01 (k : Keyword) : Bool := k ≠ .write && k ≠ .approve && k ≠ .approvedBy

/-- `(c.isascii() and c.isalpha()) or c == "_"` -/
def startsName (c : Char) : Bool := c.isAlpha || c = '_'

/-- `(c.isascii() and c.isalnum()) or c == "_"` -/
def continuesName (c : Char) : Bool := c.isAlphanum || c = '_'

/-- The text of a name: no keyword of language 0.1 and no truth value. -/
def isIdentifier (s : String) : Bool :=
  s.toList.head?.any startsName && s.toList.all continuesName && s ≠ "true" && s ≠ "false" &&
    (StrEnum.members : List Keyword).all (fun k => !k.inV01 || StrEnum.value k ≠ s)

structure Identifier where
  text : String
  ok   : isIdentifier text = true
  deriving DecidableEq

/-- A run of digits. -/
structure Digits where
  chars : List Char
  there : chars ≠ []
  ok    : chars.all Text.isDigit = true
  deriving DecidableEq

/-! ## Delimiters and operators -/

inductive Mark
  | lbrace | rbrace | lparen | rparen | colon | semicolon | comma | dot | assign | plus | minus | star | slash | eq | ne
  | lt | le | gt | ge
  deriving DecidableEq, Repr

instance : StrEnum Mark where
  members :=
    [.lbrace, .rbrace, .lparen, .rparen, .colon, .semicolon, .comma, .dot, .assign, .plus, .minus, .star, .slash, .eq, .ne,
     .lt, .le, .gt, .ge]
  value
    | .lbrace => "\x7b" | .rbrace => "\x7d" | .lparen => "(" | .rparen => ")" | .colon => ":" | .semicolon => ";"
    | .comma => "," | .dot => "." | .assign => "=" | .plus => "+" | .minus => "-" | .star => "*" | .slash => "/"
    | .eq => "==" | .ne => "!=" | .lt => "<" | .le => "<=" | .gt => ">" | .ge => ">="
  complete := by intro a; cases a <;> decide
  distinct := by intro a b; cases a <;> cases b <;> decide

/-! ## Tokens -/

inductive TokenKind
  | keyword | identifier | string | integer | decimal | boolean | duration | mark (m : Mark) | eof
  deriving DecidableEq, Repr

/-- `Token`, without its place in the source. -/
inductive Token
  | keyword (k : Keyword)
  | identifier (name : Identifier)
  | string (content : String)
  | integer (digits : Digits)
  | decimal (whole fraction : Digits)
  | boolean (truth : Bool)
  | duration (milliseconds : Nat)
  | mark (m : Mark)
  | eof
  deriving DecidableEq

namespace Token

def kind : Token → TokenKind
  | .keyword _    => .keyword
  | .identifier _ => .identifier
  | .string _     => .string
  | .integer _    => .integer
  | .decimal ..   => .decimal
  | .boolean _    => .boolean
  | .duration _   => .duration
  | .mark m       => .mark m
  | .eof          => .eof

/-- `value`, where it is a text. -/
def text : Token → Option String
  | .keyword k       => some (StrEnum.value k)
  | .identifier name => some name.text
  | .string content  => some content
  | .integer digits  => some (String.ofList digits.chars)
  | .decimal w f     => some (String.ofList (w.chars ++ '.' :: f.chars))
  | .mark m          => some (StrEnum.value m)
  | .eof             => some "<eof>"
  | .boolean _       => none
  | .duration _      => none

def asKeyword? : Token → Option Keyword
  | .keyword k => some k
  | _          => none

def asIdentifier? : Token → Option String
  | .identifier name => some name.text
  | _                => none

def asString? : Token → Option String
  | .string content => some content
  | _               => none

def asInteger? : Token → Option Digits
  | .integer digits => some digits
  | _               => none

def asDuration? : Token → Option Nat
  | .duration milliseconds => some milliseconds
  | _                      => none

def isString (t : Token) : Bool := t.kind = .string

end Token
end Nsl
