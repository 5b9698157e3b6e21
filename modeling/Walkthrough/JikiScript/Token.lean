import Walkthrough.Number.Layout

/-! Tokens of JikiScript. A line break is a token, since it ends a statement. -/

namespace Walkthrough.JikiScript

inductive Keyword where
  | setWord
  | toWord
  | changeWord
  | logWord
  | ifWord
  | elseWord
  | doWord
  | endWord
  | repeatWord
  | timesWord
  | forWord
  | eachWord
  | inWord
  | functionWord
  | withWord
  | returnWord
  | breakWord
  | nextWord
  | continueWord
  | andWord
  | orWord
  | notWord
  | isWord
  | equalsWord
  | trueWord
  | falseWord
  | nullWord
deriving DecidableEq, Repr

namespace Keyword

def all : List Keyword :=
  [.setWord, .toWord, .changeWord, .logWord, .ifWord, .elseWord, .doWord, .endWord, .repeatWord,
   .timesWord, .forWord, .eachWord, .inWord, .functionWord, .withWord, .returnWord, .breakWord,
   .nextWord, .continueWord, .andWord, .orWord, .notWord, .isWord, .equalsWord, .trueWord,
   .falseWord, .nullWord]

def spelling : Keyword → String
  | .setWord => "set"
  | .toWord => "to"
  | .changeWord => "change"
  | .logWord => "log"
  | .ifWord => "if"
  | .elseWord => "else"
  | .doWord => "do"
  | .endWord => "end"
  | .repeatWord => "repeat"
  | .timesWord => "times"
  | .forWord => "for"
  | .eachWord => "each"
  | .inWord => "in"
  | .functionWord => "function"
  | .withWord => "with"
  | .returnWord => "return"
  | .breakWord => "break"
  | .nextWord => "next"
  | .continueWord => "continue"
  | .andWord => "and"
  | .orWord => "or"
  | .notWord => "not"
  | .isWord => "is"
  | .equalsWord => "equals"
  | .trueWord => "true"
  | .falseWord => "false"
  | .nullWord => "null"

def ofSpelling? (word : String) : Option Keyword :=
  all.find? fun k => k.spelling == word

/-- The class of a keyword in token listings; the two words that skip to the next iteration are
of one class. -/
def className : Keyword → String
  | .setWord => "Set"
  | .toWord => "To"
  | .changeWord => "Change"
  | .logWord => "Log"
  | .ifWord => "If"
  | .elseWord => "Else"
  | .doWord => "Do"
  | .endWord => "End"
  | .repeatWord => "Repeat"
  | .timesWord => "Times"
  | .forWord => "For"
  | .eachWord => "Each"
  | .inWord => "In"
  | .functionWord => "Function"
  | .withWord => "With"
  | .returnWord => "Return"
  | .breakWord => "Break"
  | .nextWord => "Continue"
  | .continueWord => "Continue"
  | .andWord => "And"
  | .orWord => "Or"
  | .notWord => "Not"
  | .isWord => "Is"
  | .equalsWord => "Equals"
  | .trueWord => "True"
  | .falseWord => "False"
  | .nullWord => "Null"

end Keyword

inductive Mark where
  | plus
  | minus
  | star
  | slash
  | percent
  | eqEq
  | notEq
  | bang
  | lt
  | le
  | gt
  | ge
  | eq
  | lParen
  | rParen
  | lBracket
  | rBracket
  | lBrace
  | rBrace
  | comma
  | colon
deriving DecidableEq, Repr

namespace Mark

/-- The usual spelling; equality may also be written with three signs. -/
def spelling : Mark → String
  | .plus => "+"
  | .minus => "-"
  | .star => "*"
  | .slash => "/"
  | .percent => "%"
  | .eqEq => "=="
  | .notEq => "!="
  | .bang => "!"
  | .lt => "<"
  | .le => "<="
  | .gt => ">"
  | .ge => ">="
  | .eq => "="
  | .lParen => "("
  | .rParen => ")"
  | .lBracket => "["
  | .rBracket => "]"
  | .lBrace => "\x7b"
  | .rBrace => "\x7d"
  | .comma => ","
  | .colon => ":"

def className : Mark → String
  | .plus => "Plus"
  | .minus => "Minus"
  | .star => "Star"
  | .slash => "Slash"
  | .percent => "Percent"
  | .eqEq => "EqEq"
  | .notEq => "NotEq"
  | .bang => "Bang"
  | .lt => "Lt"
  | .le => "Le"
  | .gt => "Gt"
  | .ge => "Ge"
  | .eq => "Eq"
  | .lParen => "LParen"
  | .rParen => "RParen"
  | .lBracket => "LBracket"
  | .rBracket => "RBracket"
  | .lBrace => "LBrace"
  | .rBrace => "RBrace"
  | .comma => "Comma"
  | .colon => "Colon"

end Mark

inductive Token where
  | number (x : Float)
  | text (s : String)
  | name (s : String)
  | word (k : Keyword)
  | mark (m : Mark)
  | newline
deriving DecidableEq

namespace Token

def className : Token → String
  | .number _ => "Number"
  | .text _ => "String"
  | .name _ => "Identifier"
  | .word k => k.className
  | .mark m => m.className
  | .newline => "Newline"

/-- The token as a learner would write it; a line break as a backslash and an n. -/
def lexeme : Token → String
  | .number x => Number.text x
  | .text s => "\"" ++ s ++ "\""
  | .name s => s
  | .word k => k.spelling
  | .mark m => m.spelling
  | .newline => "\\n"

def display : Token → String
  | .newline => "end of line"
  | token => "'" ++ token.lexeme ++ "'"

/-- What messages say was found; nothing is left at the end of the source. -/
def displayFound : Option Token → String
  | some token => token.display
  | none => "end of file"

end Token
end Walkthrough.JikiScript
