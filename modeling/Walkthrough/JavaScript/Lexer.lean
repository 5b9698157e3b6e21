import Walkthrough.JavaScript.Mistake
import Walkthrough.Number.Reading
import Walkthrough.Stream
import Walkthrough.Text.Blank
import Walkthrough.Text.Quoted

/-! From characters to tokens. Blanks of any alphabet and the two kinds of comments separate tokens
and leave no trace. -/

namespace Walkthrough.JavaScript

def isNameStart (c : Char) : Bool :=
  Text.isLetter c || c == '_' || c == '$'

def isNamePart (c : Char) : Bool :=
  isNameStart c || Number.isDigit c

/-- What is being skipped: blanks between tokens, a comment up to the end of its line, or a comment
up to its closing mark, which began at a place. -/
inductive Gap where
  | blanks
  | lineComment
  | comment (start : Position)
deriving DecidableEq, Repr

/-- Skips blanks and comments up to the next token. A comment that is never closed is a mistake at
its opening mark. -/
def skipGaps : Gap → Position → List Char → Except (Located Mistake) (Position × List Char)
  | .comment start, _, [] => .error { item := .unterminatedComment, position := start }
  | .blanks, p, [] => .ok (p, [])
  | .lineComment, p, [] => .ok (p, [])
  | .comment _, p, '*' :: '/' :: rest => skipGaps .blanks ((p.after '*').after '/') rest
  | .comment start, p, c :: rest => skipGaps (.comment start) (p.after c) rest
  | .lineComment, p, c :: rest =>
    skipGaps (if c = '\n' then .blanks else .lineComment) (p.after c) rest
  | .blanks, p, '/' :: '/' :: rest => skipGaps .lineComment ((p.after '/').after '/') rest
  | .blanks, p, '/' :: '*' :: rest => skipGaps (.comment p) ((p.after '/').after '*') rest
  | .blanks, p, c :: rest =>
    if Text.isBlank c then skipGaps .blanks (p.after c) rest else .ok (p, c :: rest)

/-- The fraction of a number literal: a point and digits, of which there is at least one. -/
def fraction : List Char → List Char
  | '.' :: rest =>
    let digits := rest.takeWhile Number.isDigit
    if digits.isEmpty then [] else '.' :: digits
  | _ => []

/-- The number literal at the start of the characters. -/
def numberLexeme (cs : List Char) : List Char :=
  cs.takeWhile Number.isDigit ++ fraction (cs.dropWhile Number.isDigit)

/-- The token of an operator or bracket and what follows it; the longest spelling wins. -/
def mark? : List Char → Option (Mark × List Char × List Char)
  | '=' :: '=' :: '=' :: rest => some (.eqEqEq, ['=', '=', '='], rest)
  | '!' :: '=' :: '=' :: rest => some (.notEqEq, ['!', '=', '='], rest)
  | '+' :: '+' :: rest => some (.plusPlus, ['+', '+'], rest)
  | '-' :: '-' :: rest => some (.minusMinus, ['-', '-'], rest)
  | '+' :: '=' :: rest => some (.plusAssign, ['+', '='], rest)
  | '-' :: '=' :: rest => some (.minusAssign, ['-', '='], rest)
  | '*' :: '=' :: rest => some (.starAssign, ['*', '='], rest)
  | '/' :: '=' :: rest => some (.slashAssign, ['/', '='], rest)
  | '=' :: '=' :: rest => some (.eqEq, ['=', '='], rest)
  | '!' :: '=' :: rest => some (.notEq, ['!', '='], rest)
  | '<' :: '=' :: rest => some (.le, ['<', '='], rest)
  | '>' :: '=' :: rest => some (.ge, ['>', '='], rest)
  | '&' :: '&' :: rest => some (.andAnd, ['&', '&'], rest)
  | '|' :: '|' :: rest => some (.orOr, ['|', '|'], rest)
  | '+' :: rest => some (.plus, ['+'], rest)
  | '-' :: rest => some (.minus, ['-'], rest)
  | '*' :: rest => some (.star, ['*'], rest)
  | '/' :: rest => some (.slash, ['/'], rest)
  | '%' :: rest => some (.percent, ['%'], rest)
  | '=' :: rest => some (.assign, ['='], rest)
  | '<' :: rest => some (.lt, ['<'], rest)
  | '>' :: rest => some (.gt, ['>'], rest)
  | '!' :: rest => some (.bang, ['!'], rest)
  | '?' :: rest => some (.question, ['?'], rest)
  | ':' :: rest => some (.colon, [':'], rest)
  | '(' :: rest => some (.lParen, ['('], rest)
  | ')' :: rest => some (.rParen, [')'], rest)
  | '{' :: rest => some (.lBrace, ['{'], rest)
  | '}' :: rest => some (.rBrace, ['}'], rest)
  | '[' :: rest => some (.lBracket, ['['], rest)
  | ']' :: rest => some (.rBracket, [']'], rest)
  | ';' :: rest => some (.semicolon, [';'], rest)
  | ',' :: rest => some (.comma, [','], rest)
  | '.' :: rest => some (.dot, ['.'], rest)
  | _ => none

def wordToken (word : String) : Token :=
  match Keyword.ofSpelling? word with
  | some k => .word k
  | none => .name word

/-- The token that starts with `c` at `p`, the place after it, and what follows. -/
def nextToken (p : Position) (c : Char) (rest : List Char) :
    Except Mistake (Token × Position × List Char) :=
  if c = '"' || c = '\'' then
    match Text.quotedBody c (p.after c) [] rest with
    | .ok (contents, stop, rest) => .ok (.text (String.ofList contents), stop, rest)
    | .error contents => .error (.unterminatedText (String.ofList contents))
  else if Number.isDigit c then
    let cs := numberLexeme (c :: rest)
    match Number.read? cs with
    | some x => .ok (.number x, p.afterAll cs, (c :: rest).drop cs.length)
    | none => .error (.invalidNumber (String.ofList cs))
  else if isNameStart c then
    let cs := c :: rest.takeWhile isNamePart
    .ok (wordToken (String.ofList cs), p.afterAll cs, rest.dropWhile isNamePart)
  else match mark? (c :: rest) with
    | some (m, spelling, rest) => .ok (.mark m, p.afterAll spelling, rest)
    | none => .error (.unknownCharacter c)

/-- Reads tokens up to the end. The bound is the number of characters left, and every round reads at
least one. -/
def scan : Nat → Position → List Char →
    Except (Located Mistake) (List (Located Token) × Position)
  | 0, p, _ => .ok ([], p)
  | bound + 1, p, cs => do
    let (p, cs) ← skipGaps .blanks p cs
    match cs with
    | [] => return ([], p)
    | c :: rest =>
      match nextToken p c rest with
      | .error mistake => .error { item := mistake, position := p }
      | .ok (token, next, rest) =>
        let (tokens, stop) ← scan bound next rest
        return ({ item := token, position := p } :: tokens, stop)

def tokenize (source : String) : Except (Located Mistake) (Stream Token) := do
  let cs := source.toList
  let (ahead, stop) ← scan (cs.length + 1) Position.start cs
  return { ahead, stop }

end Walkthrough.JavaScript
