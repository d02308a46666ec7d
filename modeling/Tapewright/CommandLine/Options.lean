namespace Tapewright.CommandLine

/-! What a valid command line asks for. -/

inductive Mode where
  | interpreter
  | native
  | aheadOfTime
  | all
deriving DecidableEq, Repr

def Mode.word : Mode → String
  | .interpreter => "interpreter"
  | .native => "jit"
  | .aheadOfTime => "aot"
  | .all => "all"

/-- A mode by its word, in lower case only. -/
def Mode.ofWord? (word : String) : Option Mode :=
  [Mode.interpreter, .native, .aheadOfTime, .all].find? (·.word == word)

structure Options where
  file : String
  input : Option String
  mode : Mode
  noOptimize : Bool
  checkBounds : Bool
  compiler : String
  dumpOps : Bool
  emitC : Bool
  verbosity : Nat
deriving DecidableEq, Repr

end Tapewright.CommandLine
