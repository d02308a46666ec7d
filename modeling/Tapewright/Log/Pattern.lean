import Tapewright.Text.Character

namespace Tapewright.Log.Pattern

/-! Patterns for the value of a field.

A filter may ask for fields by value, as a number or as a regular expression.  Only
whether the text is well formed matters, since such a directive applies to nothing here.

A pattern stands between braces, so it holds no closing brace: repetitions with a count
and named classes are never closed.  Classes that need a table of characters (word
characters, digits, blanks, letters in either case) exist for ASCII only, and a pattern
that asks for them must first turn Unicode off.  With Unicode off, nothing may match
part of a character.  Patterns are nested up to a limit.

Like the filters that use them, patterns are those of a library and belong to the outer layer.
-/

structure Flags where
  /-- Letters match in either case. -/
  foldCase : Bool
  unicode : Bool
  /-- Blanks and comments are skipped. -/
  spaced : Bool
deriving DecidableEq, Repr

namespace Flags

def initial : Flags :=
  ⟨false, true, false⟩

/-- Whether the flags ask for the letters of all alphabets in either case. -/
def foldsUnicode (flags : Flags) : Bool :=
  flags.foldCase && flags.unicode

def set (flags : Flags) (letter : Char) (value : Bool) : Flags :=
  if letter = 'i' then { flags with foldCase := value }
  else if letter = 'u' then { flags with unicode := value }
  else if letter = 'x' then { flags with spaced := value }
  else flags

end Flags

/-- Drop blanks and comments.  A comment ends with its line. -/
def skipSpaced (inComment : Bool) : List Char → List Char
  | [] => []
  | c :: rest =>
      if inComment then skipSpaced (c != '\n') rest
      else if Text.isBlank c then skipSpaced false rest
      else if c = '#' then skipSpaced true rest
      else c :: rest

def skip (flags : Flags) (text : List Char) : List Char :=
  if flags.spaced then skipSpaced false text else text

/-- What a backslash and the characters behind it stand for. -/
inductive Escape where
  | literal (c : Char)
  | byte (c : Char)
  | anchor
  | wordBoundary
  /-- A class of digits, blanks or word characters, or what is outside of it. -/
  | shorthand (negated : Bool)
deriving DecidableEq, Repr

def hexValue? (c : Char) : Option Nat :=
  if c.isDigit then some (c.toNat - '0'.toNat)
  else if 'a' ≤ c ∧ c ≤ 'f' then some (c.toNat - 'a'.toNat + 10)
  else if 'A' ≤ c ∧ c ≤ 'F' then some (c.toNat - 'A'.toNat + 10)
  else none

def readHex? (flags : Flags) (value : Nat) : Nat → List Char → Option (Nat × List Char)
  | 0, text => some (value, text)
  | digits + 1, text =>
      match skip flags text with
      | [] => none
      | c :: rest => (hexValue? c).bind fun digit => readHex? flags (16 * value + digit) digits rest

def charOf? (code : Nat) : Option Char :=
  if code.isValidChar then some (Char.ofNat code) else none

/-- The control character that a letter behind a backslash stands for. -/
def controlOf? (letter : Char) : Option Char :=
  match letter with
  | 'a' => some '\x07'
  | 't' => some '\t'
  | 'n' => some '\n'
  | 'v' => some '\x0b'
  | 'f' => some '\x0c'
  | 'r' => some '\r'
  | _ => none

/-- Whether a backslash may stand before the character without changing what it means:
signs and control characters, but no letters, digits or angle brackets. -/
def isEscapable (c : Char) : Bool :=
  c.toNat < 0x80 && !c.isAlphanum && c != '<' && c != '>'

def readEscape? (flags : Flags) (text : List Char) : Option (Escape × List Char) :=
  match text with
  | [] => none
  | c :: rest =>
      if c = 'x' then
        (readHex? flags 0 2 rest).bind fun (code, after) =>
          (charOf? code).map fun c => (.byte c, after)
      else if c = 'u' then
        (readHex? flags 0 4 rest).bind fun (code, after) =>
          (charOf? code).map fun c => (.literal c, after)
      else if c = 'U' then
        (readHex? flags 0 8 rest).bind fun (code, after) =>
          (charOf? code).map fun c => (.literal c, after)
      else if c ∈ ['d', 's', 'w'] then some (.shorthand false, rest)
      else if c ∈ ['D', 'S', 'W'] then some (.shorthand true, rest)
      else if c ∈ ['A', 'z'] then some (.anchor, rest)
      else if c ∈ ['b', 'B', '<', '>'] then some (.wordBoundary, rest)
      else if isEscapable c then some (.literal c, rest)
      else (controlOf? c).map fun control => (.literal control, rest)

/-- Whether an escape may stand on its own, outside of a class. -/
def Escape.isItem (flags : Flags) : Escape → Bool
  | .literal _ => !flags.foldsUnicode
  | .byte c => !flags.foldsUnicode && (flags.unicode || c.toNat < 0x80)
  | .anchor => true
  | .wordBoundary => !flags.unicode
  | .shorthand negated => !flags.unicode && !negated

/-- Parts that stand side by side: how many there are, and how deep the deepest and the
last of them are nested. -/
structure Parts where
  count : Nat
  deepest : Nat
  last : Nat
deriving DecidableEq, Repr

namespace Parts

def none : Parts :=
  ⟨0, 0, 0⟩

def add (parts : Parts) (depth : Nat) : Parts :=
  ⟨parts.count + 1, max parts.deepest depth, depth⟩

def wrapLast (parts : Parts) : Parts :=
  ⟨parts.count, max parts.deepest (parts.last + 1), parts.last + 1⟩

/-- Putting several parts together takes a level; a single part is left as it is. -/
def depth (parts : Parts) : Nat :=
  if parts.count ≤ 1 then parts.deepest else parts.deepest + 1

end Parts

/-- One end of a range in a class, or a class inside of it. -/
inductive Member where
  | literal (c : Char)
  | shorthand

def isLiteral (flags : Flags) (c : Char) : Bool :=
  !flags.foldsUnicode && (flags.unicode || c.toNat < 0x80)

def readMember? (flags : Flags) (text : List Char) : Option (Member × List Char) :=
  let literal (c : Char) (rest : List Char) : Option (Member × List Char) :=
    if isLiteral flags c then some (.literal c, rest) else none
  match text with
  | [] => none
  | '\\' :: rest =>
      match readEscape? flags rest with
      | some (.literal c, after) => literal c after
      | some (.byte c, after) => literal c after
      | some (.shorthand negated, after) =>
          if (Escape.shorthand negated).isItem flags then some (.shorthand, after) else none
      | _ => none
  | c :: rest => literal c rest

/-- The next character that is neither a blank nor the sign that starts a comment. -/
def peekSpaced? (text : List Char) : Option Char :=
  match text.dropWhile Text.isBlank with
  | '#' :: comment => (comment.dropWhile Text.isBlank).head?
  | rest => rest.head?

/-- Whether a dash before the text is no range: it ends the class or is one of two. -/
def isPlainDash (flags : Flags) (text : List Char) : Bool :=
  let next := if flags.spaced then peekSpaced? text else text.head?
  next == some ']' || next == some '-'

def readRange? (flags : Flags) (text : List Char) : Option (List Char) :=
  match readMember? flags text with
  | none => none
  | some (first, rest) =>
      match skip flags rest with
      | [] => none
      | '-' :: after =>
          if isPlainDash flags after then some ('-' :: after)
          else
            match first, readMember? flags (skip flags after) with
            | .literal low, some (.literal high, remaining) =>
                if low ≤ high then some remaining else none
            | _, _ => none
      | after => some after

structure ClassFrame where
  /-- The members since the last operator. -/
  members : Parts
  /-- How deep what stands before the last operator is nested. -/
  left : Option Nat

namespace ClassFrame

def depth (frame : ClassFrame) : Nat :=
  match frame.left with
  | none => frame.members.depth
  | some left => max left frame.members.depth + 1

def add (frame : ClassFrame) (depth : Nat) : ClassFrame :=
  { frame with members := frame.members.add depth }

def operator (frame : ClassFrame) : ClassFrame :=
  ⟨.none, some frame.depth⟩

def dashes (flags : Flags) : Nat → ClassFrame → List Char → ClassFrame × List Char
  | 0, frame, text => (frame, text)
  | fuel + 1, frame, text =>
      match skip flags text with
      | '-' :: rest => dashes flags fuel (frame.add 0) rest
      | _ => (frame, text)

/-- Read what follows an opening bracket: a caret, and characters that are only here
taken as they are. -/
def open? (flags : Flags) (text : List Char) : Option (ClassFrame × List Char) :=
  let (negated, text) := match skip flags text with
    | '^' :: rest => (true, rest)
    | text => (false, text)
  if negated && !flags.unicode then none
  else
    let (frame, text) := dashes flags text.length ⟨.none, none⟩ text
    let (frame, text) := match frame.members.count, skip flags text with
      | 0, ']' :: rest => (frame.add 0, rest)
      | _, text => (frame, text)
    if frame.members.count > 0 && flags.foldsUnicode then none else some (frame, text)

end ClassFrame

def asciiClassNames : List String :=
  ["alnum", "alpha", "ascii", "blank", "cntrl", "digit", "graph", "lower", "print", "punct",
    "space", "upper", "word", "xdigit"]

/-- Read the rest of a class by name, such as `[:alpha:]`, behind its opening bracket,
and whether it is negated. -/
def readAsciiClass? (text : List Char) : Option (Bool × List Char) :=
  match text with
  | ':' :: rest =>
      let (negated, rest) := match rest with
        | '^' :: rest => (true, rest)
        | _ => (false, rest)
      let name := rest.takeWhile (· != ':')
      match rest.dropWhile (· != ':') with
      | ':' :: ']' :: after =>
          if String.ofList name ∈ asciiClassNames then some (negated, after) else none
      | _ => none
  | _ => none

/-- Read a class up to the bracket that closes it, with the classes around it and how
deep the whole is nested.  Every round drops a character, so the length of the text is
enough fuel. -/
def readClass? (flags : Flags) :
    Nat → List ClassFrame → ClassFrame → List Char → Option (Nat × List Char)
  | 0, _, _, _ => none
  | fuel + 1, outer, frame, text =>
      match skip flags text with
      | [] => none
      | '[' :: rest =>
          match readAsciiClass? rest with
          | some (negated, after) =>
              if negated && !flags.unicode || flags.foldsUnicode then none
              else readClass? flags fuel outer (frame.add 0) after
          | none =>
              match ClassFrame.open? flags rest with
              | some (inner, after) => readClass? flags fuel (frame :: outer) inner after
              | none => none
      | ']' :: rest =>
          match outer with
          | [] => some (frame.depth + 1, rest)
          | parent :: others => readClass? flags fuel others (parent.add (frame.depth + 1)) rest
      | '&' :: '&' :: rest => readClass? flags fuel outer frame.operator rest
      | '-' :: '-' :: rest => readClass? flags fuel outer frame.operator rest
      | '~' :: '~' :: rest => readClass? flags fuel outer frame.operator rest
      | text => (readRange? flags text).bind (readClass? flags fuel outer (frame.add 0))

/-- How a group with flags goes on: to the end of the group around it, or to its own. -/
inductive FlagsEnd where
  | rest
  | group
deriving DecidableEq, Repr

/-- Read flags up to a closing parenthesis or a colon.  No flag is given twice, and the
dash that turns flags off stands once and before a flag. -/
def readFlags? (flags : Flags) (seen : List Char) : List Char → Option (Flags × FlagsEnd × List Char)
  | [] => none
  | c :: rest =>
      if c = ')' then
        if seen.isEmpty || seen.head? == some '-' then none else some (flags, .rest, rest)
      else if c = ':' then
        if seen.head? == some '-' then none else some (flags, .group, rest)
      else if c ∈ seen then none
      else if c = '-' then readFlags? flags (c :: seen) rest
      else if c ∈ ['i', 'm', 's', 'U', 'u', 'R', 'x'] then
        readFlags? (flags.set c (!seen.contains '-')) (c :: seen) rest
      else none

/-- Whether a character may stand in the name of a group. -/
def isNameChar (first : Bool) (c : Char) : Bool :=
  if first then c == '_' || Text.isLetter c
  else c == '_' || c == '.' || c == '[' || c == ']' || Text.isLetterOrNumber c

/-- Read the name of a group up to the angle bracket that closes it. -/
def readName? (text : List Char) : Option (List Char × List Char) :=
  let name := text.takeWhile (· != '>')
  match name, text.dropWhile (· != '>') with
  | first :: others, _ :: rest =>
      if isNameChar true first && others.all (isNameChar false) then some (name, rest) else none
  | _, _ => none

/-- A group whose closing parenthesis is still to come, or the whole pattern. -/
structure Group where
  flags : Flags
  /-- The branches before the last bar. -/
  branches : Parts
  /-- The items since the last bar. -/
  items : Parts
  repeatable : Bool

namespace Group

def start (flags : Flags) : Group :=
  ⟨flags, .none, .none, false⟩

def depth (group : Group) : Nat :=
  (group.branches.add group.items.depth).depth

/-- Behind an item. -/
def item (group : Group) (depth : Nat) : Group :=
  { group with items := group.items.add depth, repeatable := true }

/-- Behind flags for the rest of the group, which cannot be repeated. -/
def withFlags (group : Group) (flags : Flags) : Group :=
  { group with flags, items := group.items.add 0, repeatable := false }

def branch (group : Group) : Group :=
  { group with branches := group.branches.add group.items.depth, items := .none,
               repeatable := false }

end Group

structure Reader where
  group : Group
  outer : List Group
  names : List (List Char)

namespace Reader

def start : Reader :=
  ⟨.start .initial, [], []⟩

def flags (reader : Reader) : Flags :=
  reader.group.flags

/-- Behind an item. -/
def item (reader : Reader) (depth : Nat) : Reader :=
  { reader with group := reader.group.item depth }

def opened (reader : Reader) (flags : Flags) : Reader :=
  { reader with group := .start flags, outer := reader.group :: reader.outer }

def named? (reader : Reader) (text : List Char) : Option (Reader × List Char) :=
  match readName? text with
  | some (name, rest) =>
      if name ∈ reader.names then none
      else some ({ reader.opened reader.flags with names := name :: reader.names }, rest)
  | none => none

/-- Read what follows an opening parenthesis.  Looking ahead or behind is not
supported. -/
def group? (reader : Reader) (text : List Char) : Option (Reader × List Char) :=
  match skip reader.flags text with
  | '?' :: 'P' :: '<' :: rest => reader.named? rest
  | '?' :: '<' :: '=' :: _ => none
  | '?' :: '<' :: '!' :: _ => none
  | '?' :: '<' :: rest => reader.named? rest
  | '?' :: rest =>
      match readFlags? reader.flags [] rest with
      | some (flags, .rest, after) =>
          some ({ reader with group := reader.group.withFlags flags }, after)
      | some (flags, .group, after) => some (reader.opened flags, after)
      | none => none
  | rest => some (reader.opened reader.flags, rest)

def closed? (reader : Reader) : Option Reader :=
  match reader.outer with
  | [] => none
  | parent :: outer =>
      some { reader with group := parent.item (reader.group.depth + 1), outer }

def repeated? (reader : Reader) : Option Reader :=
  if reader.group.repeatable then
    some { reader with group := { reader.group with items := reader.group.items.wrapLast } }
  else none

def step? (reader : Reader) (c : Char) (rest : List Char) : Option (Reader × List Char) :=
  if c = '(' then reader.group? rest
  else if c = ')' then reader.closed?.map (·, rest)
  else if c = '|' then some ({ reader with group := reader.group.branch }, rest)
  else if c = '[' then
    match ClassFrame.open? reader.flags rest with
    | none => none
    | some (frame, after) =>
        (readClass? reader.flags (rest.length + 1) [] frame after).map fun (depth, after) =>
          (reader.item depth, after)
  else if c = '?' ∨ c = '*' ∨ c = '+' then
    match rest with
    | '?' :: after => reader.repeated?.map (·, after)
    | _ => reader.repeated?.map (·, rest)
  else if c = '\x7b' then none
  else if c = '\\' then
    match readEscape? reader.flags rest with
    | some (escape, after) =>
        if escape.isItem reader.flags then some (reader.item 0, after) else none
    | none => none
  else if c = '.' then
    if reader.flags.unicode then some (reader.item 0, rest) else none
  else if c = '^' ∨ c = '$' then some (reader.item 0, rest)
  else if reader.flags.foldsUnicode then none
  else some (reader.item 0, rest)

/-- How deep a pattern may be nested. -/
def maxDepth : Nat := 250

/-- Read items to the end of the text, where every group has to be closed.  Every item
drops a character, so the length of the text is enough fuel. -/
def accepts : Nat → Reader → List Char → Bool
  | 0, _, _ => false
  | fuel + 1, reader, text =>
      match skip reader.flags text with
      | [] => reader.outer.isEmpty && reader.group.depth ≤ maxDepth
      | c :: rest =>
          match reader.step? c rest with
          | some (next, after) => accepts fuel next after
          | none => false

end Reader

def isExpression (text : List Char) : Bool :=
  Reader.start.accepts (text.length + 1) text

def isDigits (text : List Char) : Bool :=
  !text.isEmpty && text.all Char.isDigit

def isExponent : List Char → Bool
  | [] => true
  | 'e' :: '+' :: digits => isDigits digits
  | 'e' :: '-' :: digits => isDigits digits
  | 'e' :: digits => isDigits digits
  | _ => false

/-- Whether a text is a number: digits with at most one point among them and perhaps an
exponent, or a word for infinity or for no number, all with or without a sign. -/
def isNumber (text : List Char) : Bool :=
  let text := text.map Char.toLower
  let unsigned := match text with
    | '+' :: rest => rest
    | '-' :: rest => rest
    | _ => text
  if String.ofList unsigned ∈ ["inf", "infinity", "nan"] then true
  else
    let whole := unsigned.takeWhile Char.isDigit
    match unsigned.dropWhile Char.isDigit with
    | '.' :: rest =>
        !(whole ++ rest.takeWhile Char.isDigit).isEmpty &&
          isExponent (rest.dropWhile Char.isDigit)
    | rest => !whole.isEmpty && isExponent rest

/-- Whether a text can be asked for as the value of a field. -/
def isValue (text : List Char) : Bool :=
  isNumber text || isExpression text

end Tapewright.Log.Pattern
