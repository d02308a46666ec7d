namespace Tapewright.C

/-! Tokens of the C dialect that programs are written in.

White space separates tokens and means nothing else, apart from the line end that
closes a preprocessor line.  The dialect has no binary minus, so a minus sign in
front of digits belongs to the number.
-/

inductive Token where
  | directive (text : String)
  | word (text : String)
  | integer (value : Int)
  | symbol (char : Char)
  | addAssign
  | subAssign
deriving DecidableEq, Repr

inductive Partial where
  | none
  | directive (text : String)
  | word (text : String)
  | integer (negative : Bool) (value : Nat)
  | plus
  | minus
deriving DecidableEq, Repr

structure Scanner where
  state : Partial
  /-- The tokens so far, last one first. -/
  tokens : List Token

namespace Scanner

def isBlank (c : Char) : Bool :=
  c == ' ' || c == '\n'

def isWordStart (c : Char) : Bool :=
  c.isAlpha || c == '_'

def isSymbol (c : Char) : Bool :=
  c == '*' || c == '(' || c == ')' || c == ';' || c == ',' || c == '=' || c == '!' ||
    c == '\x7b' || c == '\x7d'

def digit (c : Char) : Nat :=
  c.toNat - 48

def begin (tokens : List Token) (c : Char) : Option Scanner :=
  if isBlank c then some ⟨.none, tokens⟩
  else if isWordStart c then some ⟨.word (String.singleton c), tokens⟩
  else if c.isDigit then some ⟨.integer false (digit c), tokens⟩
  else if c = '#' then some ⟨.directive "#", tokens⟩
  else if c = '+' then some ⟨.plus, tokens⟩
  else if c = '-' then some ⟨.minus, tokens⟩
  else if isSymbol c then some ⟨.none, .symbol c :: tokens⟩
  else none

def signed (negative : Bool) (value : Nat) : Int :=
  if negative then -(value : Int) else value

def step (scanner : Scanner) (c : Char) : Option Scanner :=
  match scanner.state with
  | .none => begin scanner.tokens c
  | .directive text =>
      if c = '\n' then some ⟨.none, .directive text :: scanner.tokens⟩
      else some ⟨.directive (text.push c), scanner.tokens⟩
  | .word text =>
      if isWordStart c || c.isDigit then some ⟨.word (text.push c), scanner.tokens⟩
      else begin (.word text :: scanner.tokens) c
  | .integer negative value =>
      if c.isDigit then some ⟨.integer negative (10 * value + digit c), scanner.tokens⟩
      else if isWordStart c then none
      else begin (.integer (signed negative value) :: scanner.tokens) c
  | .plus => if c = '=' then some ⟨.none, .addAssign :: scanner.tokens⟩ else none
  | .minus =>
      if c = '=' then some ⟨.none, .subAssign :: scanner.tokens⟩
      else if c.isDigit then some ⟨.integer true (digit c), scanner.tokens⟩
      else none

def finish (scanner : Scanner) : Option (List Token) :=
  match scanner.state with
  | .none => some scanner.tokens.reverse
  | _ => none

end Scanner

def tokens? (text : String) : Option (List Token) :=
  (text.toList.foldlM Scanner.step ⟨.none, []⟩).bind Scanner.finish

end Tapewright.C
