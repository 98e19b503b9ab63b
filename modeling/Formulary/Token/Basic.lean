import Formulary.Decimal.Text
import Formulary.Span

namespace Formulary

/-! Tokens: the words and signs of a formula with their places in the source. -/

inductive Symbol where
  | plus
  | minus
  | star
  | slash
  | percent
  | caret
  | doubleCaret
  | ampersand
  | tildeAmpersand
  | bar
  | tildeBar
  | tildeCaret
  | equals
  | tildeEquals
  | less
  | lessEquals
  | greater
  | greaterEquals
  | tilde
  | bang
  | dot
  | comma
  | semicolon
  | prime
  | openParen
  | closeParen
deriving DecidableEq, Inhabited

namespace Symbol

def spelling : Symbol → String
  | plus => "+"
  | minus => "-"
  | star => "*"
  | slash => "/"
  | percent => "%"
  | caret => "^"
  | doubleCaret => "^^"
  | ampersand => "&"
  | tildeAmpersand => "~&"
  | bar => "|"
  | tildeBar => "~|"
  | tildeCaret => "~^"
  | equals => "="
  | tildeEquals => "~="
  | less => "<"
  | lessEquals => "<="
  | greater => ">"
  | greaterEquals => ">="
  | tilde => "~"
  | bang => "!"
  | dot => "."
  | comma => ","
  | semicolon => ";"
  | prime => "'"
  | openParen => "("
  | closeParen => ")"

/-- Every symbol, those of two characters before those of one. -/
def longestFirst : List Symbol :=
  [doubleCaret, tildeAmpersand, tildeBar, tildeCaret, tildeEquals, lessEquals, greaterEquals,
   plus, minus, star, slash, percent, caret, ampersand, bar, equals, less, greater, tilde, bang,
   dot, comma, semicolon, prime, openParen, closeParen]

/-- The longest symbol with which the text begins. -/
def starting? (text : List Char) : Option Symbol :=
  longestFirst.find? fun symbol => symbol.spelling.toList.isPrefixOf text

end Symbol

inductive TokenKind where
  | number (value : Decimal)
  | text (content : String)
  | name (word : String)
  | symbol (sign : Symbol)
  | finish
deriving Inhabited

/-- How a token is named in messages. -/
def TokenKind.description : TokenKind → String
  | number value => "number " ++ value.text
  | text content => "string \"" ++ content ++ "\""
  | name word => "identifier `" ++ word ++ "`"
  | symbol sign => "'" ++ sign.spelling ++ "'"
  | finish => "end of input"

structure Token where
  kind : TokenKind
  span : Span
deriving Inhabited

def Token.isSymbol (token : Token) (symbol : Symbol) : Bool :=
  match token.kind with
  | .symbol found => found == symbol
  | _ => false

end Formulary
