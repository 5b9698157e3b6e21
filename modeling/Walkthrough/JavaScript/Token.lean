import Walkthrough.Number.Layout

/-! Tokens of the JavaScript subset. Line breaks are no tokens: a statement ends where its grammar
ends, with or without a semicolon. -/

namespace Walkthrough.JavaScript

inductive Keyword where
  | letWord
  | constWord
  | ifWord
  | elseWord
  | whileWord
  | forWord
  | ofWord
  | functionWord
  | returnWord
  | breakWord
  | continueWord
  | trueWord
  | falseWord
  | nullWord
  | undefinedWord
deriving DecidableEq, Repr

namespace Keyword

def all : List Keyword :=
  [.letWord, .constWord, .ifWord, .elseWord, .whileWord, .forWord, .ofWord, .functionWord,
   .returnWord, .breakWord, .continueWord, .trueWord, .falseWord, .nullWord, .undefinedWord]

def spelling : Keyword → String
  | .letWord => "let"
  | .constWord => "const"
  | .ifWord => "if"
  | .elseWord => "else"
  | .whileWord => "while"
  | .forWord => "for"
  | .ofWord => "of"
  | .functionWord => "function"
  | .returnWord => "return"
  | .breakWord => "break"
  | .continueWord => "continue"
  | .trueWord => "true"
  | .falseWord => "false"
  | .nullWord => "null"
  | .undefinedWord => "undefined"

def ofSpelling? (word : String) : Option Keyword :=
  all.find? fun k => k.spelling == word

def className : Keyword → String
  | .letWord => "Let"
  | .constWord => "Const"
  | .ifWord => "If"
  | .elseWord => "Else"
  | .whileWord => "While"
  | .forWord => "For"
  | .ofWord => "Of"
  | .functionWord => "Function"
  | .returnWord => "Return"
  | .breakWord => "Break"
  | .continueWord => "Continue"
  | .trueWord => "True"
  | .falseWord => "False"
  | .nullWord => "Null"
  | .undefinedWord => "Undefined"

end Keyword

inductive Mark where
  | plus
  | minus
  | star
  | slash
  | percent
  | plusPlus
  | minusMinus
  | plusAssign
  | minusAssign
  | starAssign
  | slashAssign
  | assign
  | eqEq
  | eqEqEq
  | notEq
  | notEqEq
  | lt
  | le
  | gt
  | ge
  | andAnd
  | orOr
  | bang
  | question
  | colon
  | lParen
  | rParen
  | lBrace
  | rBrace
  | lBracket
  | rBracket
  | semicolon
  | comma
  | dot
deriving DecidableEq, Repr

namespace Mark

def spelling : Mark → String
  | .plus => "+"
  | .minus => "-"
  | .star => "*"
  | .slash => "/"
  | .percent => "%"
  | .plusPlus => "++"
  | .minusMinus => "--"
  | .plusAssign => "+="
  | .minusAssign => "-="
  | .starAssign => "*="
  | .slashAssign => "/="
  | .assign => "="
  | .eqEq => "=="
  | .eqEqEq => "==="
  | .notEq => "!="
  | .notEqEq => "!=="
  | .lt => "<"
  | .le => "<="
  | .gt => ">"
  | .ge => ">="
  | .andAnd => "&&"
  | .orOr => "||"
  | .bang => "!"
  | .question => "?"
  | .colon => ":"
  | .lParen => "("
  | .rParen => ")"
  | .lBrace => "\x7b"
  | .rBrace => "\x7d"
  | .lBracket => "["
  | .rBracket => "]"
  | .semicolon => ";"
  | .comma => ","
  | .dot => "."

def className : Mark → String
  | .plus => "Plus"
  | .minus => "Minus"
  | .star => "Star"
  | .slash => "Slash"
  | .percent => "Percent"
  | .plusPlus => "PlusPlus"
  | .minusMinus => "MinusMinus"
  | .plusAssign => "PlusAssign"
  | .minusAssign => "MinusAssign"
  | .starAssign => "StarAssign"
  | .slashAssign => "SlashAssign"
  | .assign => "Assign"
  | .eqEq => "EqEq"
  | .eqEqEq => "EqEqEq"
  | .notEq => "NotEq"
  | .notEqEq => "NotEqEq"
  | .lt => "Lt"
  | .le => "Le"
  | .gt => "Gt"
  | .ge => "Ge"
  | .andAnd => "AndAnd"
  | .orOr => "OrOr"
  | .bang => "Bang"
  | .question => "Question"
  | .colon => "Colon"
  | .lParen => "LParen"
  | .rParen => "RParen"
  | .lBrace => "LBrace"
  | .rBrace => "RBrace"
  | .lBracket => "LBracket"
  | .rBracket => "RBracket"
  | .semicolon => "Semicolon"
  | .comma => "Comma"
  | .dot => "Dot"

end Mark

inductive Token where
  | number (x : Float)
  | text (s : String)
  | name (s : String)
  | word (k : Keyword)
  | mark (m : Mark)
deriving DecidableEq

namespace Token

def className : Token → String
  | .number _ => "Number"
  | .text _ => "String"
  | .name _ => "Identifier"
  | .word k => k.className
  | .mark m => m.className

def display : Token → String
  | .number x => Number.text x
  | .text s => "\"" ++ s ++ "\""
  | .name s => s
  | .word k => k.spelling
  | .mark m => m.spelling

/-- What messages say was found; nothing is left at the end of the source. -/
def displayFound : Option Token → String
  | some token => token.display
  | none => "end of file"

end Token
end Walkthrough.JavaScript
