namespace Tapewright.Text.Terminal

/-! Removing what a terminal would obey instead of show.

An escape character starts a sequence that sets a style, moves the cursor, or carries a
string for the terminal.  The states are those in which a terminal reads such sequences,
as far as they differ in where the sequence ends.

Only complaints about a command line are shown this way, by a library of the outer layer.
-/

inductive State where
  /-- Outside of any sequence. -/
  | ground
  /-- Right after the escape character. -/
  | escape
  /-- In a sequence of intermediate characters and one final character. -/
  | intermediate
  /-- In a control sequence: parameters, then a final character. -/
  | controlSequence
  /-- In the header of a device control string, before any parameter. -/
  | deviceEntry
  | deviceParameters
  | deviceIntermediate
  /-- Behind the header of a device control string. -/
  | deviceBody
  /-- In an operating system command, which a bell ends. -/
  | systemCommand
  /-- In a start-of-string, privacy or application string. -/
  | plainString
deriving DecidableEq, Repr

/-- Control characters that are shown: tabs, line ends and form feeds. -/
def isShownControl (c : Char) : Bool :=
  c == '\t' || c == '\n' || c == '\x0c' || c == '\r'

/-- Whether the character is shown outside of any sequence. -/
def isShown (c : Char) : Bool :=
  if c.toNat < 0x20 then isShownControl c else c.toNat != 0x7f

/-- Whether the encoding of a character holds the byte that ends a string. -/
def endsString (c : Char) : Bool :=
  (String.utf8EncodeChar c).contains 0x9c

/-- Where a character stands among the columns that sequences are made of. -/
inductive Column where
  | control
  /-- From the blank to the slash. -/
  | intermediate
  /-- Digits, the colon and the semicolon. -/
  | parameter
  /-- From the less-than sign to the question mark. -/
  | privateParameter
  /-- From the at sign to the tilde. -/
  | final
  /-- The delete character and everything outside of ASCII. -/
  | other
deriving DecidableEq, Repr

def Column.ofChar (c : Char) : Column :=
  let code := c.toNat
  if code < 0x20 then .control
  else if code < 0x30 then .intermediate
  else if code < 0x3c then .parameter
  else if code < 0x40 then .privateParameter
  else if code < 0x7f then .final
  else .other

/-- The state after a character that is neither shown nor starts or breaks off a
sequence. -/
def State.next (state : State) (c : Char) : State :=
  match state with
  | .ground => .ground
  | .escape =>
      match Column.ofChar c with
      | .control | .other => .escape
      | .intermediate => .intermediate
      | .parameter | .privateParameter => .ground
      | .final =>
          if c = '[' then .controlSequence
          else if c = ']' then .systemCommand
          else if c = 'P' then .deviceEntry
          else if c = 'X' ∨ c = '^' ∨ c = '_' then .plainString
          else .ground
  | .intermediate =>
      match Column.ofChar c with
      | .control | .other | .intermediate => .intermediate
      | .parameter | .privateParameter | .final => .ground
  | .controlSequence => if Column.ofChar c = .final then .ground else .controlSequence
  | .deviceEntry =>
      match Column.ofChar c with
      | .control | .other => .deviceEntry
      | .intermediate => .deviceIntermediate
      | .parameter | .privateParameter => .deviceParameters
      | .final => .deviceBody
  | .deviceParameters =>
      match Column.ofChar c with
      | .control | .other | .parameter => .deviceParameters
      | .intermediate => .deviceIntermediate
      | .privateParameter | .final => .deviceBody
  | .deviceIntermediate =>
      match Column.ofChar c with
      | .control | .other | .intermediate => .deviceIntermediate
      | .parameter | .privateParameter | .final => .deviceBody
  | .deviceBody => if endsString c then .ground else .deviceBody
  | .systemCommand => if c = '\x07' then .ground else .systemCommand
  | .plainString => if endsString c then .ground else .plainString

/-- Whether a character is shown in a state.  Tabs and line ends are shown even inside
the sequences that are not strings. -/
def State.shows (state : State) (c : Char) : Bool :=
  match state with
  | .ground => isShown c
  | .escape | .intermediate | .controlSequence => isShownControl c
  | _ => false

/-- Remove sequences and control characters.  Once a character is shown, the text is
shown up to the next character that is not, even if a sequence was left unfinished. -/
def stripFrom (showing : Bool) (state : State) : List Char → List Char
  | [] => []
  | c :: rest =>
      if showing && isShown c || state.shows c then
        c :: stripFrom true (if c.toNat < 0x80 then state else .ground) rest
      else if c = '\x1b' then
        stripFrom false .escape rest
      else if c = '\x18' ∨ c = '\x1a' then
        stripFrom false .ground rest
      else
        stripFrom false (state.next c) rest

def strip (text : String) : String :=
  String.ofList (stripFrom false .ground text.toList)

end Tapewright.Text.Terminal
