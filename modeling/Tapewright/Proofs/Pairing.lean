import Tapewright.Proofs.Balance

namespace Tapewright

/-! Paired brackets.

In a resolved program every loop start and its loop end hold each other's index, and the ops
between them are balanced.  Loops are therefore nested or apart, and nothing else about the
ops has changed.
-/

/-- The op without what a bracket holds. -/
def Op.bare (op : Op) : Op :=
  match op.opcode with
  | .loopStart | .loopEnd => { op with operand := 0 }
  | _ => op

@[simp] theorem Op.opcode_bare (op : Op) : op.bare.opcode = op.opcode := by
  obtain ⟨opcode, operand⟩ := op
  cases opcode <;> rfl

theorem Op.bare_of_plain {op : Op} (plain : op.IsPlain) : op.bare = op := by
  obtain ⟨opcode, operand⟩ := op
  cases opcode <;> simp_all [Op.bare, Op.IsPlain]

theorem Op.bare_start {op : Op} (start : op.opcode = .loopStart) : op.bare = ⟨.loopStart, 0⟩ := by
  simp [Op.bare, start]

theorem Op.bare_end {op : Op} (stop : op.opcode = .loopEnd) : op.bare = ⟨.loopEnd, 0⟩ := by
  simp [Op.bare, stop]

/-- Resolution leaves everything but the brackets as it was. -/
theorem Nests.bare_resolved {index : Nat} {ops : List Op} {tree : LoopTree}
    (nests : Nests index ops tree) : tree.resolved.map Op.bare = ops.map Op.bare := by
  induction nests with
  | done => rfl
  | act _ _ ih => simp [LoopTree.resolved, ih]
  | loop start stop _ _ insideIH tailIH =>
      simp [LoopTree.resolved, insideIH, tailIH, Op.bare_start, Op.bare_end, start, stop]

/-- Reading ops as a tree takes no notice of what brackets hold. -/
theorem Nests.of_bare {index : Nat} {ops other : List Op} {tree : LoopTree}
    (nests : Nests index ops tree) (same : other.map Op.bare = ops.map Op.bare) :
    Nests index other tree := by
  induction nests generalizing other with
  | done =>
      rw [List.map_nil, List.map_eq_nil_iff] at same
      rw [same]
      exact .done
  | @act index op rest next plain _ ih =>
      obtain ⟨first, others, rfl, sameOp, sameRest⟩ := List.map_eq_cons_iff.mp same
      have kind : first.opcode = op.opcode := by
        rw [← Op.opcode_bare first, sameOp, Op.opcode_bare]
      have firstPlain : first.IsPlain := by
        rw [Op.IsPlain, kind]
        exact plain
      rw [Op.bare_of_plain plain, Op.bare_of_plain firstPlain] at sameOp
      subst sameOp
      exact .act plain (ih sameRest)
  | @loop index first last inner rest body next start stop _ _ insideIH tailIH =>
      rw [List.map_cons, List.map_append, List.map_cons] at same
      obtain ⟨head, others, rfl, sameHead, sameOthers⟩ := List.map_eq_cons_iff.mp same
      obtain ⟨middle, others, rfl, sameMiddle, sameOthers⟩ := List.map_eq_append_iff.mp sameOthers
      obtain ⟨foot, others, rfl, sameFoot, sameRest⟩ := List.map_eq_cons_iff.mp sameOthers
      have headStart : head.opcode = .loopStart := by
        rw [← Op.opcode_bare head, sameHead, Op.opcode_bare, start]
      have footEnd : foot.opcode = .loopEnd := by
        rw [← Op.opcode_bare foot, sameFoot, Op.opcode_bare, stop]
      have length : middle.length = inner.length := by
        simpa using congrArg List.length sameMiddle
      refine .loop headStart footEnd (insideIH sameMiddle) ?_
      rw [length]
      exact tailIH sameRest

namespace LoopTree

variable {program : Program} {index stop : Nat} {tree : LoopTree}

theorem Placed.le (placed : tree.Placed program index stop) : index ≤ stop := by
  induction placed with
  | done => exact Nat.le_refl _
  | act _ _ _ ih => omega
  | loop _ _ _ _ _ _ _ _ insideIH tailIH => omega

end LoopTree

namespace Program

/-- The ops from one index up to another. -/
def slice (program : Program) (index stop : Nat) : List Op :=
  (program.ops.toList.take stop).drop index

variable {program : Program} {index middle stop : Nat} {op : Op}

theorem slice_self (program : Program) (index : Nat) : program.slice index index = [] :=
  List.drop_eq_nil_of_le (List.length_take_le ..)

theorem slice_cons (found : program.ops[index]? = some op) (less : index < stop) :
    program.slice index stop = op :: program.slice (index + 1) stop := by
  have there : (program.ops.toList.take stop)[index]? = some op := by
    rw [List.getElem?_take_of_lt less, Array.getElem?_toList, found]
  obtain ⟨inside, rfl⟩ := List.getElem?_eq_some_iff.mp there
  exact List.drop_eq_getElem_cons inside

theorem slice_append (found : program.ops[middle]? = some op) (before : index ≤ middle)
    (after : middle ≤ stop) :
    program.slice index middle ++ program.slice middle stop = program.slice index stop := by
  have inside : middle < program.ops.toList.length := (Array.getElem?_eq_some_iff.mp found).1
  have long : index ≤ (program.ops.toList.take middle).length := by
    rw [List.length_take]
    omega
  have front : (program.ops.toList.take stop).take middle = program.ops.toList.take middle := by
    rw [List.take_take, Nat.min_eq_left after]
  rw [slice, slice, slice, ← List.drop_append_of_le_length long, ← front, List.take_append_drop]

/-- A loop start and a loop end that hold each other's index, with a tree between them. -/
structure LoopAt (program : Program) (start stop : Nat) : Prop where
  head : ∃ first, program.ops[start]? = some first ∧ first.opcode = .loopStart ∧ first.target = stop
  inside : ∃ body : LoopTree, body.Placed program (start + 1) stop
  foot : ∃ last, program.ops[stop]? = some last ∧ last.opcode = .loopEnd ∧ last.target = start

theorem LoopAt.lt {start : Nat} (loop : program.LoopAt start stop) : start < stop := by
  obtain ⟨body, placed⟩ := loop.inside
  exact placed.le

end Program

namespace LoopTree

variable {program : Program} {index stop here : Nat} {tree : LoopTree} {op : Op}

theorem Placed.nests (placed : tree.Placed program index stop) :
    Nests index (program.slice index stop) tree := by
  induction placed with
  | done =>
      rw [Program.slice_self]
      exact .done
  | act found plain tail ih =>
      rw [Program.slice_cons found tail.le]
      exact .act plain ih
  | @loop index close stop first last body next head start _ inside foot ends _ tail insideIH tailIH =>
      have within := inside.le
      have beyond := tail.le
      have length : (program.slice (index + 1) close).length = close - (index + 1) := by
        have size : close < program.ops.size := (Array.getElem?_eq_some_iff.mp foot).1
        simp only [Program.slice, List.length_drop, List.length_take, Array.length_toList]
        omega
      rw [Program.slice_cons head (by omega), ← Program.slice_append foot within (by omega),
        Program.slice_cons foot beyond]
      refine .loop start ends insideIH ?_
      rw [length, Nat.add_sub_cancel' within]
      exact tailIH

/-- Every bracket of a tree belongs to a loop of the tree. -/
theorem Placed.loopAt (placed : tree.Placed program index stop) (after : index ≤ here)
    (before : here < stop) (found : program.ops[here]? = some op) (bracket : ¬ op.IsPlain) :
    ∃ start close, program.LoopAt start close ∧ close < stop ∧ (here = start ∨ here = close) := by
  induction placed with
  | done => omega
  | @act index stop other next there plain _ ih =>
      by_cases same : here = index
      · subst same
        rw [found] at there
        cases there
        exact absurd plain bracket
      · exact ih (by omega) before
  | @loop index close stop first last body next head start forward inside foot ends back tail insideIH
      tailIH =>
      have beyond : close < stop := tail.le
      have loop : program.LoopAt index close :=
        ⟨⟨first, head, start, forward⟩, ⟨body, inside⟩, ⟨last, foot, ends, back⟩⟩
      by_cases atHead : here = index
      · exact ⟨index, close, loop, beyond, .inl atHead⟩
      by_cases atFoot : here = close
      · exact ⟨index, close, loop, beyond, .inr atFoot⟩
      rcases Nat.lt_or_ge here close with earlier | later
      · obtain ⟨innerStart, innerClose, innerLoop, within, place⟩ := insideIH (by omega) earlier
        exact ⟨innerStart, innerClose, innerLoop, by omega, place⟩
      · exact tailIH (by omega) before

theorem Placed.loopAt_of_start (placed : tree.Placed program index stop) (after : index ≤ here)
    (before : here < stop) (found : program.ops[here]? = some op) (start : op.opcode = .loopStart) :
    ∃ close, close < stop ∧ program.LoopAt here close := by
  obtain ⟨_, close, loop, within, rfl | rfl⟩ :=
    placed.loopAt after before found fun plain => plain.1 start
  · exact ⟨close, within, loop⟩
  · obtain ⟨last, foot, ends, _⟩ := loop.foot
    rw [found] at foot
    cases foot
    rw [start] at ends
    cases ends

theorem Placed.loopAt_of_end (placed : tree.Placed program index stop) (after : index ≤ here)
    (before : here < stop) (found : program.ops[here]? = some op) (ends : op.opcode = .loopEnd) :
    ∃ start, program.LoopAt start here := by
  obtain ⟨start, _, loop, _, rfl | rfl⟩ :=
    placed.loopAt after before found fun plain => plain.2 ends
  · obtain ⟨first, head, starts, _⟩ := loop.head
    rw [found] at head
    cases head
    rw [ends] at starts
    cases starts
  · exact ⟨start, loop⟩

/-- What a bracket holds is an index, and not a negative number that passes for zero. -/
theorem toInt_operand_resolved {ops : List Op} (nests : Nests index ops tree) (fits : tree.Fits) :
    ∀ op ∈ tree.resolved, ¬ op.IsPlain → op.operand.toInt = op.target := by
  have held {number : Nat} (opcode : Opcode) (bound : number < 0x80000000) :
      (Op.mk opcode (Int32.ofNat number)).operand.toInt =
        (Op.mk opcode (Int32.ofNat number)).target := by
    rw [Op.target_ofNat opcode bound]
    exact Int32.toInt_ofNat_of_lt bound
  induction nests with
  | done => simp [resolved]
  | act plain _ ih =>
      intro op member bracket
      rcases List.mem_cons.mp member with rfl | later
      · exact absurd plain bracket
      · exact ih fits op later bracket
  | loop _ _ _ _ insideIH tailIH =>
      obtain ⟨bound, bodyFits, nextFits⟩ := fits
      intro op member bracket
      simp only [resolved, List.mem_cons, List.mem_append] at member
      rcases member with rfl | inside | rfl | later
      · exact held _ bound
      · exact insideIH bodyFits op inside bracket
      · exact held _ (by omega)
      · exact tailIH nextFits op later bracket

end LoopTree

namespace Program

variable {program : Program} {start stop : Nat}

theorem LoopAt.stop_unique {other : Nat} (loop : program.LoopAt start stop)
    (another : program.LoopAt start other) : other = stop := by
  obtain ⟨first, found, _, forward⟩ := loop.head
  obtain ⟨again, alsoFound, _, otherForward⟩ := another.head
  rw [found] at alsoFound
  cases alsoFound
  exact otherForward.symm.trans forward

theorem LoopAt.start_unique {other : Nat} (loop : program.LoopAt start stop)
    (another : program.LoopAt other stop) : other = start := by
  obtain ⟨last, found, _, back⟩ := loop.foot
  obtain ⟨again, alsoFound, _, otherBack⟩ := another.foot
  rw [found] at alsoFound
  cases alsoFound
  exact otherBack.symm.trans back

/-- Two loops are apart, or the one that starts later ends first. -/
theorem LoopAt.nested {innerStart innerStop : Nat} (loop : program.LoopAt start stop)
    (inner : program.LoopAt innerStart innerStop) (later : start < innerStart) :
    stop < innerStart ∨ innerStop < stop := by
  obtain ⟨body, placed⟩ := loop.inside
  obtain ⟨first, head, starts, _⟩ := inner.head
  rcases Nat.lt_trichotomy innerStart stop with within | rfl | beyond
  · obtain ⟨close, before, found⟩ := placed.loopAt_of_start later within head starts
    rw [inner.stop_unique found] at before
    exact .inr before
  · obtain ⟨last, foot, ends, _⟩ := loop.foot
    rw [head] at foot
    cases foot
    rw [starts] at ends
    cases ends
  · exact .inl beyond

/-- The op at an index has the opcode and holds the other index. -/
def Holds (program : Program) (opcode : Opcode) (index target : Nat) : Prop :=
  ∃ op, program.ops[index]? = some op ∧ op.opcode = opcode ∧ op.operand.toInt = target

/-- How the brackets of a program that was made of some ops are paired. -/
structure Pairing (ops : List Op) (program : Program) : Prop where
  /-- Nothing but what brackets hold has changed. -/
  same : program.ops.toList.map Op.bare = ops.map Op.bare
  /-- A loop start and the loop end that it holds are partners, with balanced ops between. -/
  closed : ∀ {start op}, program.ops[start]? = some op → op.opcode = .loopStart →
    ∃ stop, start < stop ∧ program.Holds .loopStart start stop ∧ program.Holds .loopEnd stop start ∧
      Balanced (program.slice (start + 1) stop)
  /-- A loop end is held by one loop start and no other. -/
  opened : ∀ {stop op}, program.ops[stop]? = some op → op.opcode = .loopEnd →
    ∃ start, program.Holds .loopStart start stop ∧
      ∀ other, program.Holds .loopStart other stop → other = start
  /-- Pairs never cross. -/
  nested : ∀ {start stop innerStart innerStop}, program.Holds .loopStart start stop →
    program.Holds .loopStart innerStart innerStop → start < innerStart →
    stop < innerStart ∨ innerStop < stop

theorem pairing_of_resolve {ops : List Op} (resolved : resolve ops = .ok program) :
    Pairing ops program := by
  obtain ⟨tree, nests, fits, same⟩ := resolve_eq_ok_iff.mp resolved
  have placed := placed_of_resolved nests fits same
  have held {index : Nat} {op : Op} (found : program.ops[index]? = some op) (bracket : ¬ op.IsPlain) :
      op.operand.toInt = op.target := by
    refine LoopTree.toInt_operand_resolved nests fits op ?_ bracket
    rw [← same]
    exact List.mem_of_getElem? ((Array.getElem?_toList ..).trans found)
  have size {index : Nat} {op : Op} (found : program.ops[index]? = some op) : index < program.size :=
    (Array.getElem?_eq_some_iff.mp found).1
  have holds {start stop : Nat} (loop : program.LoopAt start stop) :
      program.Holds .loopStart start stop ∧ program.Holds .loopEnd stop start := by
    obtain ⟨first, head, starts, forward⟩ := loop.head
    obtain ⟨last, foot, ends, back⟩ := loop.foot
    refine ⟨⟨first, head, starts, ?_⟩, ⟨last, foot, ends, ?_⟩⟩
    · rw [held head fun plain => plain.1 starts, forward]
    · rw [held foot fun plain => plain.2 ends, back]
  have loopAt {start stop : Nat} (paired : program.Holds .loopStart start stop) :
      program.LoopAt start stop := by
    obtain ⟨first, head, starts, target⟩ := paired
    obtain ⟨close, _, loop⟩ := placed.loopAt_of_start (Nat.zero_le _) (size head) head starts
    obtain ⟨again, alsoHead, _, forward⟩ := loop.head
    rw [head] at alsoHead
    cases alsoHead
    rw [held head fun plain => plain.1 starts, forward] at target
    rwa [← Int.ofNat_inj.mp target]
  constructor
  · rw [same, nests.bare_resolved]
  · intro start op found starts
    obtain ⟨stop, _, loop⟩ := placed.loopAt_of_start (Nat.zero_le _) (size found) found starts
    obtain ⟨body, inside⟩ := loop.inside
    exact ⟨stop, loop.lt, (holds loop).1, (holds loop).2, inside.nests.balanced⟩
  · intro stop op found ends
    obtain ⟨start, loop⟩ := placed.loopAt_of_end (Nat.zero_le _) (size found) found ends
    refine ⟨start, (holds loop).1, ?_⟩
    intro other paired
    exact loop.start_unique (loopAt paired)
  · intro start stop innerStart innerStop paired innerPaired later
    exact (loopAt paired).nested (loopAt innerPaired) later

/-- Whether and why resolution fails depends on the opcodes alone. -/
theorem resolveFrom_error_of_bare {ops other : List Op} (same : other.map Op.bare = ops.map Op.bare)
    (before earlier : Array Op) (size : earlier.size = before.size) (pending : List Nat)
    {error : BracketError} (failed : resolveFrom before pending ops = .error error) :
    resolveFrom earlier pending other = .error error := by
  induction ops generalizing other before earlier pending with
  | nil =>
      rw [List.map_nil, List.map_eq_nil_iff] at same
      subst same
      cases outermost : pending.getLast? with
      | none => simp [resolveFrom, outermost] at failed
      | some index => simpa only [resolveFrom, outermost] using failed
  | cons op rest ih =>
      obtain ⟨first, others, rfl, sameOp, sameRest⟩ := List.map_eq_cons_iff.mp same
      have kind : first.opcode = op.opcode := by
        rw [← Op.opcode_bare first, sameOp, Op.opcode_bare]
      by_cases stop : op.opcode = .loopEnd
      · have otherStop := kind.trans stop
        cases pending with
        | nil => simpa only [resolveFrom, stop, otherStop, size] using failed
        | cons there outer =>
            simp only [resolveFrom, stop] at failed
            simp only [resolveFrom, otherStop, size]
            split
            · rename_i forward back here_ there_
              simp only [here_, there_] at failed
              exact ih sameRest _ _ (by simp [size]) outer failed
            · rename_i none_
              split at failed
              · rename_i forward back here_ there_
                exact absurd there_ (none_ _ _ here_)
              · exact failed
      by_cases start : op.opcode = .loopStart
      · rw [resolveFrom_start start] at failed
        rw [resolveFrom_start (kind.trans start), size]
        exact ih sameRest _ _ (by simp [size]) _ failed
      · rw [resolveFrom_plain ⟨start, stop⟩] at failed
        rw [resolveFrom_plain ⟨kind ▸ start, kind ▸ stop⟩]
        exact ih sameRest _ _ (by simp [size]) _ failed

/-- What brackets hold before they are resolved does not matter. -/
theorem resolve_of_bare {ops other : List Op} (same : other.map Op.bare = ops.map Op.bare) :
    resolve other = resolve ops := by
  cases resolved : resolve ops with
  | ok program =>
      obtain ⟨tree, nests, fits, written⟩ := resolve_eq_ok_iff.mp resolved
      exact resolve_eq_ok_iff.mpr ⟨tree, nests.of_bare same, fits, written⟩
  | error error =>
      cases from_ : resolveFrom #[] [] ops with
      | ok result => simp [resolve, from_, Except.map] at resolved
      | error cause =>
          simp only [resolve, from_, Except.map, Except.error.injEq] at resolved
          subst resolved
          rw [resolve, resolveFrom_error_of_bare same #[] #[] rfl [] from_]
          rfl

/-- Resolution is exact.  Of ops that are few enough it accepts those that are balanced; it
pairs their brackets and changes nothing else, whatever the brackets held before, so the ops of
a resolved program resolve to the program itself. -/
theorem resolve_exact {ops : List Op} (small : ops.length ≤ 0x80000000) :
    ((∃ program, resolve ops = .ok program) ↔ Balanced ops) ∧
    (∀ other, other.map Op.bare = ops.map Op.bare → resolve other = resolve ops) ∧
    ∀ program, resolve ops = .ok program →
      Pairing ops program ∧ resolve program.ops.toList = .ok program := by
  refine ⟨⟨?_, ?_⟩, fun other => resolve_of_bare, ?_⟩
  · rintro ⟨program, resolved⟩
    obtain ⟨tree, nests, _⟩ := resolve_eq_ok_iff.mp resolved
    exact nests.balanced
  · intro balanced
    exact resolve_of_nested (balanced_iff_nested.mp balanced) small
  · intro program resolved
    have pairing := pairing_of_resolve resolved
    exact ⟨pairing, by rw [resolve_of_bare pairing.same, resolved]⟩

theorem resolve_exact_nested_loops :
    ∃ program, resolve (Source.ops "[[][[]]][]") = .ok program ∧ Balanced (Source.ops "[[][[]]][]") ∧
      Pairing (Source.ops "[[][[]]][]") program ∧ resolve program.ops.toList = .ok program := by
  have resolved : ∃ program, resolve (Source.ops "[[][[]]][]") = .ok program := ⟨_, rfl⟩
  obtain ⟨balanced, _, paired⟩ := @resolve_exact (Source.ops "[[][[]]][]") (by decide)
  obtain ⟨program, accepted⟩ := resolved
  exact ⟨program, accepted, balanced.mp ⟨program, accepted⟩, paired program accepted⟩

end Program

end Tapewright
