import Tapewright.Op
import Tapewright.Source
import Tapewright.Peephole

namespace Tapewright

/-! Resolved programs.

Resolution pairs the brackets of an op list and writes into each the index of its
partner.  Indices count the ops as they are given, so after a peephole pass they count
the ops that the pass left.
-/

inductive BracketError where
  /-- A loop end with no loop open before it. -/
  | unmatchedClose (index : Nat)
  /-- The outermost loop start that nothing closes. -/
  | unmatchedOpen (index : Nat)
  /-- A partner index that does not fit an operand. -/
  | tooLarge (index : Nat)
deriving DecidableEq, Repr

def BracketError.message : BracketError → String
  | .unmatchedClose index =>
      "unbalanced brackets: ']' at op " ++ toString index ++ " has no matching '['"
  | .unmatchedOpen index =>
      "unbalanced brackets: '[' at op " ++ toString index ++ " is never closed"
  | .tooLarge index =>
      "program too large: " ++ toString index ++ " ops do not fit a jump target"

/-- Ops in which every bracket holds the index of its partner. -/
structure Program where
  ops : Array Op
deriving DecidableEq, Repr, Inhabited

namespace Program

/-- An op index as an operand, if it fits 31 bits. -/
def partner? (index : Nat) : Option Int32 :=
  if index < 0x80000000 then some (Int32.ofNat index) else none

/-- Resolve the ops that are left, given the resolved ones and the indices of the
loop starts still open, innermost first. -/
def resolveFrom (resolved : Array Op) (pending : List Nat) :
    List Op → Except BracketError (Array Op)
  | [] =>
      match pending.getLast? with
      | none => .ok resolved
      | some index => .error (.unmatchedOpen index)
  | op :: rest =>
      let here := resolved.size
      match op.opcode with
      | .loopStart => resolveFrom (resolved.push op) (here :: pending) rest
      | .loopEnd =>
          match pending with
          | [] => .error (.unmatchedClose here)
          | there :: outer =>
              match partner? here, partner? there with
              | some forward, some back =>
                  resolveFrom
                    ((resolved.setIfInBounds there ⟨.loopStart, forward⟩).push ⟨.loopEnd, back⟩)
                    outer rest
              | _, _ => .error (.tooLarge here)
      | _ => resolveFrom (resolved.push op) pending rest

def resolve (ops : List Op) : Except BracketError Program :=
  (resolveFrom #[] [] ops).map Program.mk

/-- The program of a source text, with or without the peephole passes. -/
def compile (optimize : Bool) (text : String) : Except BracketError Program :=
  let ops := Source.ops text
  resolve (if optimize then Peephole.optimize ops else ops)

def size (program : Program) : Nat :=
  program.ops.size

/-- An index in a column five wide, aligned to the right. -/
def renderIndex (index : Nat) : String :=
  let digits := toString index
  "".pushn ' ' (5 - digits.length) ++ digits

def renderLine (index : Nat) (op : Op) : String :=
  renderIndex index ++ ": " ++ op.render ++ "\n"

def renderFrom (start : Nat) (program : Program) : String :=
  program.ops.toList.zipIdx.foldl
    (fun text entry => if start ≤ entry.2 then text ++ renderLine entry.2 entry.1 else text) ""

def render (program : Program) : String :=
  program.renderFrom 0

end Program

end Tapewright
