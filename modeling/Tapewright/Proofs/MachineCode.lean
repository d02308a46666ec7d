import Tapewright.Proofs.CallFrame
import Tapewright.Proofs.NativeRun
import Tapewright.Proofs.Nesting

namespace Tapewright.X86

open Machine

/-! The machine code of a program.

The prologue sets up what shows the first state of the op-level run, the blocks lead from
state to state, and the epilogue puts back what the prologue saved.  Every block has at least
one instruction, so the code goes on as long as the op-level run does.
-/

section Ops

variable {code : List UInt8} {side : HostSide} {context base : UInt64} {size : Nat}
  {entry machine : Machine} {program : Program} {state next : Native.State}

theorem cellAddress_add (base pointer : UInt64) (distance : Int64) :
    cellAddress base pointer + (distance * Assembly.cellBytes).toUInt64 =
      cellAddress base (pointer + distance.toUInt64) := by
  have four : Assembly.cellBytes.toUInt64 = 4 := rfl
  rw [cellAddress, cellAddress, Int64.toUInt64_mul, four, UInt64.mul_add, UInt64.add_assoc,
    UInt64.mul_comm distance.toUInt64]

theorem touched_of_running {op : Op} (found : program.ops[state.index]? = some op)
    (touches : op.opcode ≠ .shiftRight ∧ op.opcode ≠ .shiftLeft ∧ op.opcode ≠ .loopEnd)
    (running : Native.step program state = .running next) :
    ∃ cell, state.tape.get? state.pointer = some cell := by
  obtain ⟨opcode, operand⟩ := op
  cases touched : state.tape.get? state.pointer with
  | some cell => exact ⟨cell, rfl⟩
  | none =>
      simp only [Native.step, found, touched] at running
      cases opcode <;> simp at running touches

/-- The block of an op leads to the state the op leads to. -/
theorem block_leads (laid : Laid side.addresses program code) (short : code.length < 0x80000000)
    (ready : Ready side base size entry) (shows : Shows entry base context size state machine)
    (here : machine.position = place program state.index)
    (running : Native.step program state = .running next) :
    Leads code side context entry base size state next (place program next.index) machine := by
  cases found : program.ops[state.index]? with
  | none =>
      simp only [Native.step, found] at running
      split at running <;> cases running
  | some op =>
      have loaded := laid.blocks found
      have behind : place program (state.index + 1) = machine.position +
          (encodeAll (blockOf side.addresses (place program) state.index op)).length := by
        rw [length_blockOf, here, place_succ found]
      have near (index : Nat) : place program index < 0x80000000 := by
        have length := laid.length
        have within := place_le program index
        omega
      rw [← here] at loaded
      have needs := @touched_of_running program state next op found
      obtain ⟨opcode, operand⟩ := op
      cases opcode with
      | shiftRight =>
          simp only [Native.step, found, Native.Step.running.injEq] at running
          subst running
          rw [behind]
          exact addPointer_leads shows (shows.rbx ▸ cellAddress_add ..) loaded _
      | shiftLeft =>
          simp only [Native.step, found, Native.Step.running.injEq] at running
          subst running
          rw [behind]
          refine addPointer_leads shows ?_ loaded _
          rw [shows.rbx, cellAddress_add, Int64.toUInt64_neg, ← UInt64.sub_eq_add_neg]
          rfl
      | loopEnd =>
          simp only [Native.step, found, Native.Step.running.injEq] at running
          subst running
          simp only [blockOf, ← here] at loaded behind
          exact jumpBack_leads shows loaded (behind ▸ near _) (near _) _
      | increment =>
          obtain ⟨cell, touched⟩ := needs (by simp) running
          simp only [Native.step, found, touched, Native.Step.running.injEq] at running
          subst running
          rw [behind]
          exact addCell_leads shows ready touched loaded _
      | decrement =>
          obtain ⟨cell, touched⟩ := needs (by simp) running
          simp only [Native.step, found, touched, Native.Step.running.injEq] at running
          subst running
          rw [behind, Int32.sub_eq_add_neg]
          exact addCell_leads shows ready touched loaded _
      | assign =>
          obtain ⟨cell, touched⟩ := needs (by simp) running
          simp only [Native.step, found, touched, Native.Step.running.injEq] at running
          subst running
          rw [behind]
          exact storeCell_leads shows ready touched loaded _
      | output =>
          obtain ⟨cell, touched⟩ := needs (by simp) running
          simp only [Native.step, found, touched, Native.Step.running.injEq] at running
          subst running
          rw [behind]
          exact callWithCell_leads shows ready touched loaded _
      | input =>
          obtain ⟨cell, touched⟩ := needs (by simp) running
          simp only [Native.step, found, touched, Native.Step.running.injEq] at running
          subst running
          rw [behind]
          exact callIntoCell_leads shows ready touched loaded _
      | loopStart =>
          obtain ⟨cell, touched⟩ := needs (by simp) running
          simp only [Native.step, found, touched] at running
          simp only [blockOf, ← here] at loaded behind
          have leads := @jumpIfZero_leads code side context base size entry machine state cell
            shows touched _ loaded (behind ▸ near _) (near _)
          by_cases zero : cell = 0
          · simp only [zero, ↓reduceIte, Native.Step.running.injEq] at running leads
            subst running
            exact leads _
          · simp only [zero, ↓reduceIte, Native.Step.running.injEq] at running leads
            subst running
            rw [behind]
            exact leads _

end Ops

section Runs

variable {code : List UInt8} {side : HostSide} {context base : UInt64} {tape : Tape} {host : Host}
  {entry machine : Machine} {program : Program} {state next : Native.State} {count ops : Nat}

/-- After so many instructions the code shows this state and is at the block of its op. -/
def ShownAt (program : Program) (code : List UInt8) (side : HostSide) (context base : UInt64)
    (size : Nat) (entry : Machine) (state : Native.State) (count : Nat) : Prop :=
  ∃ machine, after code side context count entry = some machine ∧
    Shows entry base context size state machine ∧ machine.position = place program state.index

/-- The code is on its way from one state of the op-level run to the next one. -/
structure Performs (program : Program) (code : List UInt8) (side : HostSide) (context base : UInt64)
    (tape : Tape) (host : Host) (entry : Machine) (count : Nat) (machine : Machine)
    (state next : Native.State) : Prop where
  reached : ∃ ops, Native.after program ops (.start tape host) = some state
  running : Native.step program state = .running next
  shown : ∃ first, first ≤ count ∧ ShownAt program code side context base tape.size entry state first
  coming : ∃ later, count < later ∧
    ShownAt program code side context base tape.size entry next later
  body : InBody entry base context state.pointer machine

theorem ShownAt.op (laid : Laid side.addresses program code) (short : code.length < 0x80000000)
    (ready : Ready side base tape.size entry)
    (shown : ShownAt program code side context base tape.size entry state count)
    (running : Native.step program state = .running next) :
    ∃ later, count < later ∧ ShownAt program code side context base tape.size entry next later ∧
      ∀ between machine, count ≤ between → between < later →
        after code side context between entry = some machine →
        InBody entry base context state.pointer machine := by
  obtain ⟨first, there, shows, position⟩ := shown
  obtain ⟨more, last, path, lastShows, lastPosition⟩ := block_leads laid short ready shows position running
  have lastThere : after code side context (count + (more + 1)) entry = some last := by
    rw [after_add, there]
    exact path.after_eq
  refine ⟨count + (more + 1), by omega, ⟨last, lastThere, lastShows, lastPosition⟩, ?_⟩
  intro between machine start before betweenThere
  obtain ⟨further, rfl⟩ : ∃ further, between = count + further := ⟨between - count, by omega⟩
  rw [after_add, there] at betweenThere
  exact path.holds_before (by omega) betweenThere

/-- The code keeps up with the op-level run.  It shows every state of that run in turn, and
before that it is in the prologue or on its way between two earlier states. -/
theorem shownAt_of_after (laid : Laid side.addresses program code) (short : code.length < 0x80000000)
    (setup : Setup side context base tape host entry)
    (reached : Native.after program ops (.start tape host) = some state) :
    ∃ count, ops ≤ count ∧ ShownAt program code side context base tape.size entry state count ∧
      ∀ earlier machine, earlier < count → after code side context earlier entry = some machine →
        machine.position < place program 0 ∨
        ∃ before next, Performs program code side context base tape host entry earlier machine
          before next := by
  induction ops generalizing state with
  | zero =>
      obtain ⟨first, path, shows, position⟩ := enter setup laid.enters
      cases reached
      refine ⟨6, by omega, ⟨first, path.after_eq, shows, position⟩, ?_⟩
      intro earlier machine less there
      exact .inl (path.holds_before less there)
  | succ ops ih =>
      obtain ⟨middle, middleReached, running⟩ := Native.after_succ reached
      obtain ⟨count, enough, shown, before⟩ := ih middleReached
      obtain ⟨later, more, laterShown, body⟩ := shown.op laid short setup.toReady running
      refine ⟨later, by omega, laterShown, ?_⟩
      intro earlier machine less there
      by_cases old : earlier < count
      · exact before earlier machine old there
      · exact .inr ⟨middle, state, ⟨ops, middleReached⟩, running, ⟨count, by omega, shown⟩,
          ⟨later, less, laterShown⟩, body earlier machine (by omega) less there⟩

theorem returns_of_ended (laid : Laid side.addresses program code) (short : code.length < 0x80000000)
    (setup : Setup side context base tape host entry)
    (reached : Native.after program ops (.start tape host) = some state)
    (through : program.ops[state.index]? = none) :
    ∃ count final last, after code side context count entry = some final ∧
      final.step code side context = .returned last ∧ Restored entry last ∧
      last.position = code.length ∧ HoldsTape base last.memory state.tape ∧
      last.host = state.host ∧
      ∀ earlier machine, earlier ≤ count → after code side context earlier entry = some machine →
        machine.position < place program 0 ∨ place program program.size ≤ machine.position ∨
        ∃ before next, Performs program code side context base tape host entry earlier machine
          before next := by
  obtain ⟨count, -, ⟨machine, there, shows, position⟩, before⟩ :=
    shownAt_of_after laid short setup reached
  have behind : machine.position = place program program.size := position.trans (place_of_none through)
  obtain ⟨final, last, path, beyond, returned, restored, end_, memory, sameHost⟩ :=
    @leave code side context base tape.size entry machine state shows (behind ▸ laid.leaves)
  have finalThere : after code side context (count + 3) entry = some final := by
    rw [after_add, there]
    exact path.after_eq
  refine ⟨count + 3, final, last, finalThere, returned, restored, ?_, memory ▸ shows.holds,
    sameHost.trans shows.host, ?_⟩
  · rw [end_, behind, laid.length]
  · intro earlier between within betweenThere
    by_cases old : earlier < count
    · exact (before earlier between old betweenThere).imp_right .inr
    · refine .inr (.inl ?_)
      rw [← behind]
      by_cases same : earlier = count + 3
      · rw [same, finalThere] at betweenThere
        cases betweenThere
        exact beyond
      · obtain ⟨further, rfl⟩ : ∃ further, earlier = count + further := ⟨earlier - count, by omega⟩
        rw [after_add, there] at betweenThere
        exact path.holds_before (by omega) betweenThere

/-- Every machine on the way goes on or returns, and is in the prologue, in the epilogue or
between two states of the op-level run. -/
theorem reached_cases (laid : Laid side.addresses program code) (short : code.length < 0x80000000)
    (setup : Setup side context base tape host entry)
    (stays : Native.StaysOnTape program (.start tape host))
    (there : after code side context count entry = some machine) :
    machine.step code side context ≠ .stuck ∧
      (machine.position < place program 0 ∨ place program program.size ≤ machine.position ∨
        ∃ before next, Performs program code side context base tape host entry count machine
          before next) := by
  rcases Native.after_or_ended program (.start tape host) (count + 1) with
    ⟨state, reached⟩ | ⟨ops, state, ending, final, -, reached, ended⟩
  · obtain ⟨later, enough, ⟨last, lastThere, -, -⟩, before⟩ := shownAt_of_after laid short setup reached
    obtain ⟨further, running⟩ := running_of_after lastThere (by omega) there
    refine ⟨by rw [running]; exact nofun, ?_⟩
    exact (before count machine (by omega) there).imp_right .inr
  · have through := (Native.step_ended stays reached ended).1
    obtain ⟨later, leaving, last, lastThere, returned, -, -, -, -, before⟩ :=
      returns_of_ended laid short setup reached through
    have within : count ≤ later := by
      refine Nat.not_lt.mp fun more => ?_
      rw [after_none_of_run (run_of_returned lastThere returned) more] at there
      cases there
    refine ⟨?_, before count machine within there⟩
    by_cases same : count = later
    · subst same
      rw [lastThere] at there
      cases there
      rw [returned]
      exact nofun
    · obtain ⟨further, running⟩ := running_of_after lastThere (by omega) there
      rw [running]
      exact nofun

/-- What it means that code runs a program, for a call that is set up in this way. -/
structure Implements (program : Program) (code : List UInt8) (side : HostSide)
    (context base : UInt64) (tape : Tape) (host : Host) (entry : Machine) : Prop where
  /-- The code shows every state of the op-level run, and between a state and the next one it
  keeps the address of the cell, the host context and the stack pointer. -/
  ops : ∀ ops state, Native.after program ops (.start tape host) = some state →
    ∃ first, ShownAt program code side context base tape.size entry state first ∧
      ∀ next, Native.step program state = .running next →
        ∃ later, first < later ∧ ShownAt program code side context base tape.size entry next later ∧
          ∀ count machine, first ≤ count → count < later →
            after code side context count entry = some machine →
            InBody entry base context state.pointer machine
  /-- Between the prologue and the epilogue there is nothing but the ops. -/
  body : ∀ count machine, after code side context count entry = some machine →
    (encodeAll prologue).length ≤ machine.position →
    machine.position + (encodeAll epilogue).length < code.length →
    ∃ state next, Performs program code side context base tape host entry count machine state next
  going : ∀ count machine, after code side context count entry = some machine →
    machine.step code side context ≠ .stuck
  calls : ∀ count machine rest, after code side context count entry = some machine →
    decode? (code.drop machine.position) = some (.callRax, rest) →
    machine.registers.rsp % 16 = 0 ∧ machine.registers.rdi = context
  ends : (∃ fuel last, run code side context fuel entry = some last) ↔
    Native.Terminates program (.start tape host)
  outcome : ∀ fuel last other ending final, run code side context fuel entry = some last →
    Native.run program other (.start tape host) = some (ending, final) →
    last.position = code.length ∧ Restored entry last ∧ HoldsTape base last.memory final.tape ∧
      ending = .ofResult last.host.finish.1 ∧ final.host = last.host.finish.2

theorem call_of_not_stuck {rest : List UInt8}
    (decoded : decode? (code.drop machine.position) = some (.callRax, rest))
    (going : machine.step code side context ≠ .stuck) :
    machine.registers.rsp % 16 = 0 ∧ machine.registers.rdi = context := by
  refine Classical.byContradiction fun wrong => going ?_
  rw [step, decoded]
  have fails : machine.registers.rsp % 16 ≠ 0 ∨ machine.registers.rdi ≠ context :=
    Decidable.not_and_iff_or_not.mp wrong
  exact if_pos fails

/-- The code of a resolved program runs it. -/
theorem assemble_implements {source : List Op} (resolved : Program.resolve source = .ok program)
    (short : (assemble side.addresses program).size < 0x80000000)
    (setup : Setup side context base tape host entry)
    (stays : Native.StaysOnTape program (.start tape host)) :
    Implements program (assemble side.addresses program).code.toList side context base tape host
      entry := by
  obtain ⟨tree, -, -, placed⟩ := Program.placed_of_resolve resolved
  have laid := laid_assemble side.addresses placed
  rw [Assembler.size, ← Array.length_toList] at short
  have returns {ops : Nat} {state final : Native.State} {ending : Native.Ending}
      (reached : Native.after program ops (.start tape host) = some state)
      (ended : Native.step program state = .ended ending final) :=
    returns_of_ended laid short setup reached (Native.step_ended stays reached ended).1
  constructor
  case ops =>
    intro ops state reached
    obtain ⟨first, -, shown, -⟩ := shownAt_of_after laid short setup reached
    exact ⟨first, shown, fun next running => shown.op laid short setup.toReady running⟩
  case body =>
    intro count machine there below above
    rcases (reached_cases laid short setup stays there).2 with early | late | between
    · exact absurd early (Nat.not_lt.mpr below)
    · have length := laid.length
      omega
    · exact between
  case going =>
    intro count machine there
    exact (reached_cases laid short setup stays there).1
  case calls =>
    intro count machine rest there decoded
    exact call_of_not_stuck decoded (reached_cases laid short setup stays there).1
  case ends =>
    constructor
    · rintro ⟨fuel, last, ended⟩
      rcases Native.after_or_ended program (.start tape host) fuel with
        ⟨state, reached⟩ | ⟨ops, state, ending, final, -, reached, stepEnded⟩
      · obtain ⟨count, enough, ⟨machine, there, -, -⟩, -⟩ := shownAt_of_after laid short setup reached
        rw [after_none_of_run ended enough] at there
        cases there
      · exact ⟨ops + 1, ending, final, Native.run_of_ended reached stepEnded⟩
    · rintro ⟨fuel, ending, final, ended⟩
      obtain ⟨ops, state, reached, stepEnded⟩ := Native.ended_of_run ended
      obtain ⟨count, leaving, last, there, returned, -⟩ := returns reached stepEnded
      exact ⟨count + 1, last, run_of_returned there returned⟩
  case outcome =>
    intro fuel last other ending final ended nativeEnded
    obtain ⟨ops, state, reached, stepEnded⟩ := Native.ended_of_run nativeEnded
    obtain ⟨count, leaving, found, there, returned, restored, position, holds, sameHost, -⟩ :=
      returns reached stepEnded
    obtain rfl : last = found := run_unique ended (run_of_returned there returned)
    obtain ⟨-, rfl, rfl⟩ := Native.step_ended stays reached stepEnded
    rw [sameHost]
    exact ⟨position, restored, holds, rfl, rfl⟩

/-- On `+[.-]`, with a host that overwrites everything below the frame, the code returns after
the one round of the loop, having written a single byte. -/
theorem assemble_implements_countdown :
    ∃ fuel last,
      run (assemble ⟨1, 2⟩ ⟨#[⟨.increment, 1⟩, ⟨.loopStart, 4⟩, ⟨.output, 0⟩, ⟨.decrement, 1⟩,
          ⟨.loopEnd, 1⟩]⟩).code.toList
        ⟨⟨1, 2⟩, fun place => place < 4080, fun _ => ⟨9, 9, 9, false, fun _ => 9⟩⟩ 64 fuel
        ⟨0, ⟨0, 5, 6, 4104, 64, 8192, 7⟩, false, fun _ => 0, .ofStreams (.ofBytes []) .unlimited⟩ =
          some last ∧
      last.registers.rbx = 5 ∧ last.registers.rbp = 6 ∧ last.registers.r12 = 7 ∧
      last.registers.rsp = 4112 ∧ last.memory.load32 8192 = 0 ∧
      last.host.finish = (none, .ofStreams ⟨[], 0⟩ ⟨#[1], [], none, 1⟩) := by
  have resolved : Program.resolve [⟨.increment, 1⟩, ⟨.loopStart, 0⟩, ⟨.output, 0⟩, ⟨.decrement, 1⟩,
      ⟨.loopEnd, 0⟩] = .ok ⟨#[⟨.increment, 1⟩, ⟨.loopStart, 4⟩, ⟨.output, 0⟩, ⟨.decrement, 1⟩,
      ⟨.loopEnd, 1⟩]⟩ := rfl
  have nativeEnds : Native.run ⟨#[⟨.increment, 1⟩, ⟨.loopStart, 4⟩, ⟨.output, 0⟩, ⟨.decrement, 1⟩,
      ⟨.loopEnd, 1⟩]⟩ 7 (.start (.zeroed 1) (.ofStreams (.ofBytes []) .unlimited)) =
      some (.finished, ⟨5, 0, ⟨#[0]⟩, .ofStreams ⟨[], 0⟩ ⟨#[1], [], none, 1⟩⟩) := by decide
  have setup : Setup ⟨⟨1, 2⟩, fun place => place < 4080, fun _ => ⟨9, 9, 9, false, fun _ => 9⟩⟩
      64 8192 (.zeroed 1) (.ofStreams (.ofBytes []) .unlimited)
      ⟨0, ⟨0, 5, 6, 4104, 64, 8192, 7⟩, false, fun _ => 0,
        .ofStreams (.ofBytes []) .unlimited⟩ := by
    refine ⟨⟨rfl, by decide, by decide, ?_, ?_⟩, rfl, rfl, rfl, rfl, ?_⟩
    · intro place tape frame
      have bound := place.toNat_lt
      simp only [Within, Tape.size_zeroed, UInt64.toNat_sub, UInt64.reduceToNat] at tape frame
      omega
    · intro place scratch
      have bound := place.toNat_lt
      simp only [decide_eq_true_eq, UInt64.lt_iff_toNat_lt, UInt64.reduceToNat] at scratch
      simp only [Within, Tape.size_zeroed, UInt64.toNat_sub, UInt64.reduceToNat]
      omega
    · intro pointer cell found
      obtain ⟨inside, rfl⟩ := Tape.get?_eq_some_iff.mp found
      simp only [Tape.zeroed, Array.getElem_replicate]
      rfl
  have implements := assemble_implements resolved (by decide +kernel) setup
    fun fuel pointer index last escaped => by cases Native.run_unique escaped nativeEnds
  obtain ⟨fuel, last, ended⟩ := implements.ends.mpr ⟨_, _, _, nativeEnds⟩
  obtain ⟨-, restored, holds, ending, sameHost⟩ := implements.outcome _ _ _ _ _ ended nativeEnds
  have clean : last.host.finish.1 = none := by
    cases result : last.host.finish.1 with
    | none => rfl
    | some fault =>
        rw [result] at ending
        cases ending
  exact ⟨fuel, last, ended, restored.rbx, restored.rbp, restored.r12, restored.rsp, holds 0 0 rfl,
    Prod.ext clean sameHost.symm⟩

end Runs

end Tapewright.X86
