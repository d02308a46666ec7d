import Tapewright.Backend
import Tapewright.Proofs.StructuredRun

namespace Tapewright

/-! Runs on an output that is already in use.

No run looks at what its output has accepted before.  On an output that refuses nothing a run
therefore does what it does on an empty one, and its bytes go behind those that are there.
More fuel changes nothing about a run that has ended.
-/

namespace Output

/-- No write and no flush fails. -/
def Unlimited (output : Output) : Prop :=
  output.refusals = [] ∧ output.flushFault = none

/-- An output when another one was filled first and both went to the same place. -/
def behind (earlier output : Output) : Output :=
  { output with
    accepted := earlier.accepted ++ output.accepted
    flushes := earlier.flushes + output.flushes }

variable {earlier output : Output}

theorem Unlimited.behind (free : output.Unlimited) : (earlier.behind output).Unlimited :=
  free

theorem Unlimited.put (free : output.Unlimited) (earlier : Output) (byte : UInt8) :
    ∃ next, output.put byte = (none, next) ∧
      (earlier.behind output).put byte = (none, earlier.behind next) ∧ next.Unlimited := by
  obtain ⟨accepted, refusals, flushFault, flushes⟩ := output
  obtain ⟨rfl, rfl⟩ := free
  exact ⟨_, rfl, by simp [Output.put, dueFault, Output.behind], rfl, rfl⟩

theorem Unlimited.putAll (free : output.Unlimited) (earlier : Output) (bytes : List UInt8) :
    ∃ next, output.putAll bytes = (none, next) ∧
      (earlier.behind output).putAll bytes = (none, earlier.behind next) ∧ next.Unlimited := by
  induction bytes generalizing output with
  | nil => exact ⟨output, rfl, rfl, free⟩
  | cons byte rest ih =>
      obtain ⟨next, alone, joined, still⟩ := free.put earlier byte
      simp only [Output.putAll, alone, joined]
      exact ih still

theorem Unlimited.flush (free : output.Unlimited) (earlier : Output) :
    ∃ next, output.flush = (none, next) ∧
      (earlier.behind output).flush = (none, earlier.behind next) ∧ next.Unlimited := by
  refine ⟨output.flush.2, ?_, ?_, free.1, rfl⟩
  · exact Prod.ext free.2 rfl
  · exact Prod.ext free.2 rfl

end Output

namespace Interpreter

variable {policy : BoundsPolicy} {program : Program} {earlier : Output}

def State.behind (earlier : Output) (state : State) : State :=
  { state with output := earlier.behind state.output }

namespace Step

def state : Step → State
  | running state => state
  | ended _ state => state

def behind (earlier : Output) : Step → Step
  | running state => .running (state.behind earlier)
  | ended ending state => .ended ending (state.behind earlier)

end Step

end Interpreter

namespace Host

variable {earlier : Output} {host : Host}

def behind (earlier : Output) (host : Host) : Host :=
  { host with output := earlier.behind host.output }

end Host

namespace Native

variable {program : Program} {earlier : Output}

def State.behind (earlier : Output) (state : State) : State :=
  { state with host := state.host.behind earlier }

namespace Step

def state : Step → State
  | running state => state
  | ended _ state => state

def behind (earlier : Output) : Step → Step
  | running state => .running (state.behind earlier)
  | ended ending state => .ended ending (state.behind earlier)

end Step

theorem run_mono {fuel larger : Nat} {state : State} {result : Ending × State}
    (more : fuel ≤ larger) (ended : run program fuel state = some result) :
    run program larger state = some result := by
  induction fuel generalizing larger state with
  | zero => cases ended
  | succ fuel ih =>
      obtain ⟨larger, rfl⟩ : ∃ smaller, larger = smaller + 1 := ⟨larger - 1, by omega⟩
      rw [run] at ended ⊢
      split at ended
      · exact ih (by omega) ended
      · exact ended

end Native

namespace AheadOfTime

variable {earlier : Output}

def Record.behind (earlier : Output) (record : Record) : Record :=
  { record with output := earlier.behind record.output }

end AheadOfTime

def Evaluation.behind (earlier : Output) (evaluation : Evaluation) : Evaluation :=
  { evaluation with output := earlier.behind evaluation.output }

namespace Backend

variable {backend : Backend} {program : Program} {fuel : Nat} {input : Input} {earlier : Output}

end Backend

/-! Fuel only bounds a run: once it has ended, more fuel brings the same. -/

/-- A launch that has ended ends the same way with more fuel. -/
def Executable.Steady (executable : Executable) : Prop :=
  ∀ {fuel larger : Nat} {bytes : List UInt8} {launch : Launch}, fuel ≤ larger →
    executable fuel bytes = some launch → executable larger bytes = some launch

def Toolchain.Steady (toolchain : Toolchain) : Prop :=
  ∀ text executable, toolchain.build text = .ok executable → executable.Steady

/-- Whatever a compiler leaves behind, a launch of it that has ended ends the same way with more
fuel. -/
def Compilers.Steady (compilers : Compilers) : Prop :=
  ∀ name arguments text status diagnostics unwritten executable,
    compilers name arguments text = .ended status diagnostics unwritten executable →
    executable.Steady

/-- Of the backends only one depends on what a toolchain builds. -/
def Backend.Steady : Backend → Prop
  | .aheadOfTime toolchain _ => toolchain.Steady
  | _ => True

theorem AheadOfTime.run_mono {toolchain : Toolchain} (steady : toolchain.Steady) {program : Program}
    {fuel larger : Nat} {record : Record} {spool : Spool} {result : Ending × Record}
    (more : fuel ≤ larger) (ended : run toolchain program fuel record spool = some result) :
    run toolchain program larger record spool = some result := by
  cases built : toolchain.build (C.emit program) with
  | error error => simpa only [run, built] using ended
  | ok executable =>
      cases spool with
      | missing | broken => simpa only [run, built, launch] using ended
      | works =>
          simp only [run, built, launch] at ended ⊢
          rcases spooled : record.input.spool with ⟨fault | bytes, input⟩
          · rwa [spooled] at ended
          · simp only [spooled] at ended ⊢
            cases launched : executable fuel bytes with
            | none => rw [launched] at ended; cases ended
            | some outcome =>
                rw [steady _ _ built more launched]
                rwa [launched] at ended

end Tapewright
