import Tapewright.Log
import Tapewright.Log.Pattern
import Tapewright.Text.Slice

namespace Tapewright.Log

/-! Log filters.

A filter is a list of directives.  Each names a level, and may narrow itself to
targets that start with some text and to events that carry some fields.  Of the
directives that apply to an event the most specific one decides, and of equals the
last.  An event to which none applies is dropped.

This is the filter of a library, of which a command is only a user.  It belongs to the outer
layer, around the results of the other modules.
-/

/-- The most detailed level a directive lets through; `none` lets nothing through. -/
abbrev Threshold := Option Level

structure Directive where
  scope : Option String
  fields : List String
  threshold : Threshold
deriving DecidableEq, Repr

inductive DirectiveError where
  | malformed
  /-- An offset falls inside a character. -/
  | insideCharacter
deriving DecidableEq, Repr

namespace Directive

def ofDigits? (digits : List Char) : Option Nat :=
  let digits := match digits with
    | '+' :: rest => rest
    | _ => digits
  if digits.isEmpty || !digits.all Char.isDigit then none
  else some (digits.foldl (fun value c => 10 * value + (c.toNat - 48)) 0)

/-- A level as a number from 0 to 5, or as a word in any case. -/
def threshold? (text : List Char) : Option Threshold :=
  match ofDigits? text with
  | some 0 => some none
  | some 1 => some (some .error)
  | some 2 => some (some .warn)
  | some 3 => some (some .info)
  | some 4 => some (some .debug)
  | some 5 => some (some .trace)
  | some _ => none
  | none =>
      match (String.ofList text).toLower with
      | "off" => some none
      | "error" => some (some .error)
      | "warn" => some (some .warn)
      | "info" => some (some .info)
      | "debug" => some (some .debug)
      | "trace" => some (some .trace)
      | _ => none

/-- The level after an equals sign; leaving it out means every level. -/
def thresholdAfterEquals (text : List Char) : Except DirectiveError Threshold :=
  if text.isEmpty then .ok (some .trace)
  else
    match threshold? text with
    | some threshold => .ok threshold
    | none => .error .malformed

def isStart (c : Char) : Bool :=
  c == '-' || c == ':' || c == '_' || Text.isLetterOrNumber c

structure Field where
  name : String
  hasValue : Bool

/-- Read a field.  A value ends before the next equals sign. -/
def readField (text : List Char) : Except DirectiveError Field :=
  match text.splitOn '=' with
  | name :: value :: _ =>
      if Pattern.isValue value then .ok ⟨String.ofList name, true⟩ else .error .malformed
  | _ => if text.isEmpty then .error .malformed else .ok ⟨String.ofList text, false⟩

/-- Where in a directive the reading stands.  A part that is still being read knows the
offset at which it starts. -/
inductive Part where
  | start
  | head
  | span (start : Nat)
  | field (start : Nat)
  | fieldsClosed
  | spanClosed
  | level (start : Nat)

structure Draft where
  scope : Option String
  hasSpan : Bool
  fields : List Field

def slice (start stop : Nat) (text : List Char) : Except DirectiveError (List Char) :=
  match Text.slice? start stop text with
  | some part => .ok part
  | none => .error .insideCharacter

/-- Read on by one character, which stands at an offset.  Parts are cut out of the text
at such offsets as soon as they end. -/
def step (text : List Char) (draft : Draft) (part : Part) (offset : Nat) (c : Char) :
    Except DirectiveError (Draft × Part) :=
  match part with
  | .start =>
      if c = '[' then .ok (draft, .span (offset + 1))
      else if isStart c then .ok (draft, .head)
      else .error .malformed
  | .head =>
      if c = '=' then
        (slice 0 offset text).map fun scope =>
          ({ draft with scope := some (String.ofList scope) }, .level (offset + 1))
      else if c = '[' then
        (slice 0 offset text).map fun scope =>
          ({ draft with scope := some (String.ofList scope) }, .span (offset + 1))
      else .ok (draft, .head)
  | .span start =>
      if c = ']' then
        (slice start offset text).map fun _ => ({ draft with hasSpan := true }, .spanClosed)
      else if c = '\x7b' then
        (slice start offset text).map fun name =>
          ({ draft with hasSpan := !name.isEmpty }, .field (offset + 1))
      else .ok (draft, part)
  | .field start =>
      if c = '\x7d' then
        match slice start offset text with
        | .error error => .error error
        | .ok fieldText =>
            (readField fieldText).map fun field =>
              ({ draft with fields := draft.fields ++ [field] }, .fieldsClosed)
      else .ok (draft, part)
  | .fieldsClosed => if c = ']' then .ok (draft, .spanClosed) else .error .malformed
  | .spanClosed => if c = '=' then .ok (draft, .level (offset + 1)) else .error .malformed
  | .level _ => .ok (draft, part)

def steps (text : List Char) (draft : Draft) (part : Part) :
    List (Nat × Char) → Except DirectiveError (Draft × Part)
  | [] => .ok (draft, part)
  | (offset, c) :: rest =>
      match step text draft part offset c with
      | .ok (next, nextPart) => steps text next nextPart rest
      | .error error => .error error

/-- The directive a draft makes.  Spans are never entered here, and fields have no
values to compare, so a directive that asks for either applies to nothing. -/
def ofDraft (draft : Draft) (threshold : Threshold) : Option Directive :=
  if draft.hasSpan || draft.fields.any Field.hasValue then none
  else some ⟨draft.scope, draft.fields.map Field.name, threshold⟩

/-- Read one directive: a level, a target, or a target with a level.  Offsets are found
in the text without the blanks around it and used in the text with them, so that blanks
in front shift every part.  `none` for a directive that applies to nothing. -/
def parse (text : List Char) : Except DirectiveError (Option Directive) :=
  match steps text ⟨none, false, []⟩ .start (Text.offsets 0 (Text.trim text)) with
  | .error error => .error error
  | .ok (_, .head) =>
      match threshold? text with
      | some threshold => .ok (some ⟨none, [], threshold⟩)
      | none => .ok (some ⟨some (String.ofList text), [], some .trace⟩)
  | .ok (draft, .level start) =>
      match Text.dropBytes? start text with
      | none => .error .insideCharacter
      | some level => (thresholdAfterEquals level).map (ofDraft draft)
  | .ok (draft, .spanClosed) => .ok (ofDraft draft (some .trace))
  | .ok _ => .error .malformed

def appliesTo (directive : Directive) (event : Event) : Bool :=
  (directive.scope.all fun scope => scope.toList.isPrefixOf event.target.path.toList) &&
    directive.fields.all fun name =>
      name == "message" || event.fields.any (·.1 == name)

/-- How specific a directive is: first by the length of its target, then by the number
of its fields, then by the names of its fields in alphabetical order. -/
def isAtLeastAsSpecific (directive other : Directive) : Bool :=
  let length := fun d : Directive => (d.scope.map (·.utf8ByteSize + 1)).getD 0
  length directive > length other ||
    length directive == length other &&
      (directive.fields.length > other.fields.length ||
        directive.fields.length == other.fields.length && !(directive.fields < other.fields))

def allows (directive : Directive) (event : Event) : Bool :=
  directive.threshold.any fun level => event.level.detail ≤ level.detail

end Directive

structure Filter where
  directives : List Directive
deriving DecidableEq, Repr

namespace Filter

/-- Read directives one after another, up to the first that cannot be read. -/
def readAll : List (List Char) → Except DirectiveError (List Directive)
  | [] => .ok []
  | text :: rest =>
      match Directive.parse text with
      | .error error => .error error
      | .ok directive => (readAll rest).map (directive.toList ++ ·)

def parse (text : String) : Except DirectiveError Filter :=
  (readAll ((text.toList.splitOn ',').filter (!·.isEmpty))).map Filter.mk

def deciding? (filter : Filter) (event : Event) : Option Directive :=
  (filter.directives.filter (·.appliesTo event)).foldl
    (fun best directive =>
      match best with
      | none => some directive
      | some other => if directive.isAtLeastAsSpecific other then some directive else best)
    none

def allows (filter : Filter) (event : Event) : Bool :=
  (filter.deciding? event).any (·.allows event)

/-- The filter of a verbosity: warnings, then information, then everything but the
finest detail. -/
def ofVerbosity (verbosity : Nat) : Filter :=
  let level : Level := match verbosity with
    | 0 => .warn
    | 1 => .info
    | _ => .debug
  ⟨[⟨some Target.commandLine.path, [], some level⟩]⟩

/-- A readable setting replaces the verbosity, and a malformed one is ignored.  `none`
for a setting that would have to be cut inside a character. -/
def ofSetting (setting : Option String) (verbosity : Nat) : Option Filter :=
  match setting with
  | none => some (ofVerbosity verbosity)
  | some text =>
      match parse text with
      | .ok filter => some filter
      | .error .malformed => some (ofVerbosity verbosity)
      | .error .insideCharacter => none

end Filter

end Tapewright.Log
