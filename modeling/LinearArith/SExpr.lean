import LinearArith.Token

/-! S-expressions: numbers, symbols and lists, each with the position of its first token; their text,
and their reading from tokens. -/

namespace LinearArith

inductive SExpr where
  | number (position : Position) (q : Rat)
  | symbol (position : Position) (name : String)
  | list (position : Position) (items : List SExpr)
  deriving Repr

namespace SExpr

instance : Inhabited SExpr := ⟨list .start []⟩

def position : SExpr → Position
  | number p _ => p
  | symbol p _ => p
  | list p _ => p

mutual

def text : SExpr → String
  | number _ q => ratText q
  | symbol _ name => name
  | list _ [] => "()"
  | list _ (e :: es) => "(" ++ e.text ++ spacedText es ++ ")"

/-- The texts of the expressions, a blank before each. -/
def spacedText : List SExpr → String
  | [] => ""
  | e :: es => " " ++ e.text ++ spacedText es

end

def symbol? : SExpr → Option String
  | symbol _ name => some name
  | _ => none

/-- The head and the arguments of a list that starts with a symbol. -/
def application? : SExpr → Option (String × List SExpr)
  | list _ (symbol _ head :: args) => some (head, args)
  | _ => none

/-- A list that has been opened: where, and its items so far, the latest first. -/
structure Open where
  position : Position
  items : List SExpr

/-- What has been read: the open lists, innermost first, and the expressions finished outside of
them, the latest first. -/
structure Unfinished where
  opened : List Open
  finished : List SExpr

namespace Unfinished

def push (e : SExpr) : Unfinished → Unfinished
  | ⟨[], finished⟩ => ⟨[], e :: finished⟩
  | ⟨o :: os, finished⟩ => ⟨{ o with items := e :: o.items } :: os, finished⟩

def enter (p : Position) (u : Unfinished) : Unfinished := { u with opened := ⟨p, []⟩ :: u.opened }

end Unfinished

/-- Reads tokens up to the end of file. On a closing parenthesis that closes nothing it stops before
that token. -/
def readFrom (u : Unfinished) : List Token → Except Error (List SExpr) × List Token
  | [] => (if u.opened.isEmpty then .ok u.finished.reverse else .error .unexpectedEof, [])
  | t :: ts =>
    match t.kind, u.opened with
    | .eof, [] => (.ok u.finished.reverse, t :: ts)
    | .eof, _ :: _ => (.error .unexpectedEof, t :: ts)
    | .leftParen, _ => readFrom (u.enter t.position) ts
    | .rightParen, [] =>
      (.error (.unexpectedToken TokenKind.leftParen.text
        (TokenKind.rightParen.text ++ " at line " ++ t.position.line.repr)), t :: ts)
    | .rightParen, o :: os =>
      readFrom (.push (list o.position o.items.reverse) { u with opened := os }) ts
    | .number q, _ => readFrom (u.push (number t.position q)) ts
    | .symbol name, _ => readFrom (u.push (symbol t.position name)) ts

/-- Reads all expressions, and tells which tokens are left for a further reading. -/
def readAll (tokens : List Token) : Except Error (List SExpr) × List Token :=
  readFrom ⟨[], []⟩ tokens

end SExpr
end LinearArith
