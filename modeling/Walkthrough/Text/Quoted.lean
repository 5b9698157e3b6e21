import Walkthrough.Text.Mark
import Walkthrough.Text.Position
import Walkthrough.Text.Unseen

/-! Quoted texts in program source and in messages, and the letters that names are made of. -/

namespace Walkthrough.Text

/-- A letter without a mark on it. -/
def isLetter (c : Char) : Bool :=
  ('a' ≤ c && c ≤ 'z') || ('A' ≤ c && c ≤ 'Z')

/-- The character that a backslash and `c` stand for. -/
def unescape (c : Char) : Char :=
  if c = 'n' then '\n' else if c = 't' then '\t' else c

/-- The contents of a text after its opening quote, up to the closing one; `read` holds what was
read so far, backwards. A line end or the end of the source leaves the text open, and the contents
up to there are the error. A backslash takes away the meaning of whatever follows it. -/
def quotedBody (quote : Char) (p : Position) (read : List Char) :
    List Char → Except (List Char) (List Char × Position × List Char)
  | [] => .error read.reverse
  | '\\' :: [] => .error read.reverse
  | '\\' :: c :: rest => quotedBody quote ((p.after '\\').after c) (unescape c :: read) rest
  | c :: rest =>
    if c = quote then .ok (read.reverse, p.after c, rest)
    else if c = '\n' then .error read.reverse
    else quotedBody quote (p.after c) (c :: read) rest

/-- A character of a text that is quoted in a message: nothing in it can be mistaken for the end of
the quotation, breaks the line, or goes unseen; marks are spelled out too. -/
def quotedChar (c : Char) : List Char :=
  match c with
  | '"' => ['\\', '"']
  | '\\' => ['\\', '\\']
  | '\n' => ['\\', 'n']
  | '\r' => ['\\', 'r']
  | '\t' => ['\\', 't']
  | '\x00' => ['\\', '0']
  | c =>
    if isUnseen c || isMark c then
      ['\\', 'u', '\x7b'] ++ Nat.toDigits 16 c.toNat ++ ['\x7d']
    else [c]

def inQuotes (s : String) : String :=
  "\"" ++ String.ofList (s.toList.flatMap quotedChar) ++ "\""

/-- Blanks in front, up to a width. -/
def alignRight (width : Nat) (s : String) : String :=
  String.ofList (List.replicate (width - s.length) ' ') ++ s

def alignLeft (width : Nat) (s : String) : String :=
  s ++ String.ofList (List.replicate (width - s.length) ' ')

end Walkthrough.Text
