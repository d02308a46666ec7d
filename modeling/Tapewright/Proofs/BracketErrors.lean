import Tapewright.Proofs.Pairing

namespace Tapewright

/-! Which bracket an error is about.

A list of ops that resolution rejects has a shortest prefix that ends more loops than it starts,
or else a first loop start that nothing closes.  The error names the bracket that is last in
that prefix, or that loop start.
-/

/-- The first so many ops end more loops than they start. -/
def Overclosed (ops : List Op) (count : Nat) : Prop :=
  starts (ops.take count) < ends (ops.take count)

/-- A loop start and a later loop end with balanced ops between them. -/
structure ClosedBy (ops : List Op) (start stop : Nat) : Prop where
  later : start < stop
  head : ∃ first, ops[start]? = some first ∧ first.opcode = .loopStart
  foot : ∃ last, ops[stop]? = some last ∧ last.opcode = .loopEnd
  inside : Balanced ((ops.take stop).drop (start + 1))

/-- A loop start that no later loop end closes. -/
structure NeverClosed (ops : List Op) (start : Nat) : Prop where
  head : ∃ first, ops[start]? = some first ∧ first.opcode = .loopStart
  unclosed : ∀ stop, ¬ ClosedBy ops start stop

section Counting

variable {ops other : List Op} {first : Op} {start stop : Nat}

theorem starts_map_bare (ops : List Op) : starts (ops.map Op.bare) = starts ops := by
  simp [starts, List.countP_map, Function.comp_def]

theorem ends_map_bare (ops : List Op) : ends (ops.map Op.bare) = ends ops := by
  simp [ends, List.countP_map, Function.comp_def]

theorem Balanced.of_bare (balanced : Balanced ops) (same : other.map Op.bare = ops.map Op.bare) :
    Balanced other := by
  constructor
  · intro count
    have taken : (other.take count).map Op.bare = (ops.take count).map Op.bare := by
      rw [List.map_take, same, ← List.map_take]
    rw [← ends_map_bare, ← starts_map_bare, taken, ends_map_bare, starts_map_bare]
    exact balanced.started count
  · rw [← ends_map_bare, ← starts_map_bare, same, ends_map_bare, starts_map_bare]
    exact balanced.ended

theorem Unclosed.ends_take_le (unclosed : Unclosed ops) (count : Nat) :
    ends (ops.take count) ≤ starts (ops.take count) := by
  induction unclosed generalizing count with
  | nested nested => exact (balanced_iff_nested.mpr nested).started count
  | @opens front rest first before start _ ih =>
      have within := (balanced_iff_nested.mpr before).started count
      rw [List.take_append, ends_append, starts_append]
      cases count - front.length with
      | zero => exact within
      | succ further =>
          have beyond := ih further
          obtain ⟨opened, notEnded⟩ := counts_start start
          rw [List.take_succ_cons, ends_cons, starts_cons]
          omega

/-- From a loop start to the loop end that closes it as many loops end as start. -/
theorem ClosedBy.stretch (closed : ClosedBy ops start stop) :
    ends ((ops.drop start).take (stop - start + 1)) =
      starts ((ops.drop start).take (stop - start + 1)) := by
  obtain ⟨first, head, starts_⟩ := closed.head
  obtain ⟨last, foot, ends_⟩ := closed.foot
  obtain ⟨headInside, rfl⟩ := List.getElem?_eq_some_iff.mp head
  obtain ⟨footInside, rfl⟩ := List.getElem?_eq_some_iff.mp foot
  have later := closed.later
  have stretch : (ops.drop start).take (stop - start + 1) =
      ops[start] :: ((ops.take stop).drop (start + 1) ++ [ops[stop]]) := by
    have total : start + (stop - start + 1) = stop + 1 := by omega
    have long : start + 1 ≤ (ops.take stop).length := by
      rw [List.length_take]
      omega
    rw [List.take_drop, total, List.take_succ_eq_append_getElem footInside,
      List.drop_append_of_le_length (by omega), List.drop_eq_getElem_cons long, List.getElem_take]
    rfl
  rw [stretch]
  exact (closed.inside.loop starts_ ends_).ended

theorem ClosedBy.append (closed : ClosedBy ops start stop) (rest : List Op) :
    ClosedBy (ops ++ rest) start stop := by
  obtain ⟨first, head, starts_⟩ := closed.head
  obtain ⟨last, foot, ends_⟩ := closed.foot
  have headInside := (List.getElem?_eq_some_iff.mp head).1
  have footInside := (List.getElem?_eq_some_iff.mp foot).1
  refine ⟨closed.later, ⟨first, ?_, starts_⟩, ⟨last, ?_, ends_⟩, ?_⟩
  · rw [List.getElem?_append_left headInside, head]
  · rw [List.getElem?_append_left footInside, foot]
  · rw [List.take_append_of_le_length (Nat.le_of_lt footInside)]
    exact closed.inside

theorem opcode_of_bare {index : Nat} {op : Op} (same : other.map Op.bare = ops.map Op.bare)
    (found : other[index]? = some op) :
    ∃ mate, ops[index]? = some mate ∧ mate.opcode = op.opcode := by
  have mapped : (ops[index]?).map Op.bare = some op.bare := by
    rw [← List.getElem?_map, ← same, List.getElem?_map, found]
    rfl
  obtain ⟨mate, there, alike⟩ := Option.map_eq_some_iff.mp mapped
  refine ⟨mate, there, ?_⟩
  rw [← Op.opcode_bare mate, alike, Op.opcode_bare]

/-- Balanced ops close every loop that they start. -/
theorem Balanced.closedBy (balanced : Balanced ops) (small : ops.length ≤ 0x80000000)
    (found : ops[start]? = some first) (starts_ : first.opcode = .loopStart) :
    ∃ stop, ClosedBy ops start stop := by
  obtain ⟨program, resolved⟩ := Program.resolve_of_nested (balanced_iff_nested.mp balanced) small
  have pairing := Program.pairing_of_resolve resolved
  obtain ⟨written, there, alike⟩ := opcode_of_bare pairing.same.symm found
  obtain ⟨stop, later, -, ⟨last, foot, ends_, -⟩, inside⟩ :=
    pairing.closed ((Array.getElem?_toList ..).symm.trans there) (alike.trans starts_)
  obtain ⟨mate, footFound, footAlike⟩ :=
    opcode_of_bare pairing.same ((Array.getElem?_toList ..).trans foot)
  refine ⟨stop, later, ⟨first, found, starts_⟩, ⟨mate, footFound, footAlike.trans ends_⟩, ?_⟩
  refine inside.of_bare ?_
  rw [Program.slice, List.map_drop, List.map_take, List.map_drop, List.map_take, pairing.same]

end Counting

namespace Program

/-- The error of a rejected list names the right bracket.  If some prefix ends more loops than it
starts, that is the loop end of the shortest such prefix; otherwise it is the first loop start
that is never closed.  The ops before it are balanced, and from it on there are at all times more
loops started than ended. -/
theorem resolve_error_bracket {ops : List Op} {error : BracketError}
    (small : ops.length ≤ 0x80000000) (rejected : resolve ops = .error error) :
    ((∃ count, Overclosed ops count) →
      ∃ index last, error = .unmatchedClose index ∧ ops[index]? = some last ∧
        last.opcode = .loopEnd ∧ Overclosed ops (index + 1) ∧
        ∀ count, Overclosed ops count → index + 1 ≤ count) ∧
    ((¬ ∃ count, Overclosed ops count) →
      ∃ index, error = .unmatchedOpen index ∧ NeverClosed ops index ∧
        (∀ other, NeverClosed ops other → index ≤ other) ∧ Balanced (ops.take index) ∧
        ∀ count, 0 < count →
          ends ((ops.drop index).take count) < starts ((ops.drop index).take count)) := by
  have verdict := resolve_verdict small
  rw [rejected] at verdict
  cases verdict with
  | @closes front rest last whole before stop =>
      subst whole
      have balanced := balanced_iff_nested.mpr before
      obtain ⟨notOpened, closed⟩ := counts_end stop
      have tooMany : Overclosed (front ++ last :: rest) (front.length + 1) := by
        have taken : (front ++ last :: rest).take (front.length + 1) = front ++ [last] := by
          simp [List.take_append, List.take_of_length_le]
        rw [Overclosed, taken, starts_append, ends_append, balanced.ended]
        omega
      refine ⟨fun _ => ⟨front.length, last, rfl, by simp, stop, tooMany, ?_⟩,
        fun never => absurd ⟨_, tooMany⟩ never⟩
      intro count early
      refine Nat.not_le.mp fun within => ?_
      rw [Overclosed, List.take_append_of_le_length within] at early
      have started := balanced.started count
      omega
  | @opens front rest first whole before start after =>
      subst whole
      have balanced := balanced_iff_nested.mpr before
      have unclosed : Unclosed (front ++ first :: rest) := .opens before start after
      have stretch (count : Nat) (positive : 0 < count) :
          ends (((front ++ first :: rest).drop front.length).take count) <
            starts (((front ++ first :: rest).drop front.length).take count) := by
        obtain ⟨further, rfl⟩ : ∃ further, count = further + 1 := ⟨count - 1, by omega⟩
        have beyond := after.ends_take_le further
        obtain ⟨opened, notEnded⟩ := counts_start start
        rw [List.drop_left, List.take_succ_cons, ends_cons, starts_cons]
        omega
      refine ⟨fun ⟨count, tooMany⟩ => absurd tooMany (Nat.not_lt.mpr (unclosed.ends_take_le count)), fun _ =>
        ⟨front.length, rfl, ⟨⟨first, by simp, start⟩, ?_⟩, ?_, by simpa using balanced, stretch⟩⟩
      · intro stop closed
        exact Nat.lt_irrefl _ (closed.stretch ▸ stretch _ (Nat.succ_pos _))
      · intro other never
        refine Nat.not_lt.mp fun earlier => ?_
        obtain ⟨first, head, starts_⟩ := never.head
        rw [List.getElem?_append_left earlier] at head
        rw [List.length_append] at small
        obtain ⟨stop, closed⟩ := balanced.closedBy (by omega) head starts_
        exact never.unclosed stop (closed.append _)

/-- In `[]]+` the second loop end is one too many.  In `[]+[[-]` the second loop start is the first
that is never closed, and the loop inside it does not matter. -/
theorem resolve_error_bracket_second_of_each :
    (resolve (Source.ops "[]]+") = .error (.unmatchedClose 2) ∧ Overclosed (Source.ops "[]]+") 3) ∧
    resolve (Source.ops "[]+[[-]") = .error (.unmatchedOpen 3) ∧
      NeverClosed (Source.ops "[]+[[-]") 3 ∧ Balanced ((Source.ops "[]+[[-]").take 3) := by
  constructor
  · have rejected : resolve (Source.ops "[]]+") = .error (.unmatchedClose 2) := rfl
    have tooMany : Overclosed (Source.ops "[]]+") 4 := by
      rw [Overclosed]
      decide
    obtain ⟨index, last, same, -, -, shortest, -⟩ :=
      (resolve_error_bracket (by decide) rejected).1 ⟨4, tooMany⟩
    cases same
    exact ⟨rejected, shortest⟩
  · have rejected : resolve (Source.ops "[]+[[-]") = .error (.unmatchedOpen 3) := rfl
    obtain ⟨closes, opens⟩ := resolve_error_bracket (by decide) rejected
    have never : ¬ ∃ count, Overclosed (Source.ops "[]+[[-]") count := by
      intro tooMany
      obtain ⟨_, _, same, _⟩ := closes tooMany
      cases same
    obtain ⟨index, same, unclosed, -, balanced, -⟩ := opens never
    cases same
    exact ⟨rejected, unclosed, balanced⟩

end Program

end Tapewright
