import Tapewright.Program.LoopTree

namespace Tapewright

/-! Op lists that nest.

An op list that resolution accepts reads in one way as a tree of loops, and the ops that
resolution returns can be written down from the tree: every bracket holds the index of its
partner.  Everything that follows a program through its loops goes by the tree.
-/

def Op.IsPlain (op : Op) : Prop :=
  op.opcode ≠ .loopStart ∧ op.opcode ≠ .loopEnd

theorem Op.target_ofNat {index : Nat} (opcode : Opcode) (bound : index < 0x80000000) :
    (Op.mk opcode (Int32.ofNat index)).target = index :=
  Int32.toNatClampNeg_ofNat_of_lt bound

/-- The ops, the first of which has the given index, read as the tree.  What brackets hold
does not matter. -/
inductive Nests : Nat → List Op → LoopTree → Prop where
  | done {index : Nat} : Nests index [] .done
  | act {index : Nat} {op : Op} {rest : List Op} {next : LoopTree}
      (plain : op.IsPlain) (tail : Nests (index + 1) rest next) :
      Nests index (op :: rest) (.act index op next)
  | loop {index : Nat} {first last : Op} {inner rest : List Op} {body next : LoopTree}
      (start : first.opcode = .loopStart) (stop : last.opcode = .loopEnd)
      (inside : Nests (index + 1) inner body)
      (tail : Nests (index + 1 + inner.length + 1) rest next) :
      Nests index (first :: (inner ++ last :: rest)) (.loop index body next)

namespace LoopTree

/-- The ops of a tree, each bracket with the index of its partner. -/
def resolved : LoopTree → List Op
  | .done => []
  | .act _ op next => op :: next.resolved
  | .loop index body next =>
      ⟨.loopStart, Int32.ofNat (index + 1 + body.resolved.length)⟩ ::
        (body.resolved ++ ⟨.loopEnd, Int32.ofNat index⟩ :: next.resolved)

def Fits : LoopTree → Prop
  | .done => True
  | .act _ _ next => next.Fits
  | .loop index body next =>
      index + 1 + body.resolved.length < 0x80000000 ∧ body.Fits ∧ next.Fits

end LoopTree

theorem Nests.length_resolved {index : Nat} {ops : List Op} {tree : LoopTree}
    (nests : Nests index ops tree) : tree.resolved.length = ops.length := by
  induction nests with
  | done => rfl
  | act _ _ tail => simp [LoopTree.resolved, tail]
  | loop _ _ _ _ inside tail => simp [LoopTree.resolved, inside, tail]

theorem Nests.append {index : Nat} {left right : List Op} {tree other : LoopTree}
    (first : Nests index left tree) (second : Nests (index + left.length) right other) :
    ∃ joined, Nests index (left ++ right) joined ∧
      (tree.Fits → other.Fits → joined.Fits) := by
  induction first with
  | done => exact ⟨other, by simpa using second, fun _ fits => fits⟩
  | act plain _ ih =>
      obtain ⟨joined, nests, fits⟩ := ih (by
        simpa only [List.length_cons, Nat.add_assoc, Nat.add_comm 1] using second)
      exact ⟨_, .act plain nests, fits⟩
  | @loop index first last inner rest body next start stop inside _ _ ih =>
      have place : index + (first :: (inner ++ last :: rest)).length =
          index + 1 + inner.length + 1 + rest.length := by
        simp only [List.length_cons, List.length_append]
        omega
      obtain ⟨joined, nests, fits⟩ := ih (place ▸ second)
      refine ⟨.loop index body joined, ?_, fun left right =>
        ⟨left.1, left.2.1, fits left.2.2 right⟩⟩
      simpa only [List.cons_append, List.append_assoc] using Nests.loop start stop inside nests

theorem Nests.of_singleton {index : Nat} {op : Op} {tree : LoopTree}
    (nests : Nests index [op] tree) : tree = .act index op .done := by
  generalize single : [op] = ops at nests
  cases nests with
  | done => cases single
  | act _ tail =>
      cases single
      cases tail
      rfl
  | loop => simp at single

theorem Nests.start_ne_of_append {index : Nat} {ops : List Op} {tree : LoopTree}
    (nests : Nests index ops tree) {front : List Op} {start step : Op}
    (whole : ops = front ++ [start, step]) (plain : step.IsPlain) : start.opcode ≠ .loopStart := by
  induction nests generalizing front with
  | done => simp at whole
  | act opPlain _ ih =>
      cases front with
      | nil =>
          obtain ⟨rfl, _⟩ := List.cons.inj whole
          exact opPlain.1
      | cons op front => exact ih (List.cons.inj whole).2
  | @loop _ first last inner rest _ _ _ stop _ _ _ ih =>
      -- Read from the end, the list is the rest, the loop end and the loop before it.
      have mirrored : rest.reverse ++ last :: (inner.reverse ++ [first]) =
          step :: start :: front.reverse := by
        simpa using congrArg List.reverse whole
      cases order : rest.reverse with
      | nil =>
          rw [order] at mirrored
          obtain ⟨rfl, _⟩ := List.cons.inj mirrored
          exact absurd stop plain.2
      | cons final earlier =>
          rw [order] at mirrored
          obtain ⟨rfl, others⟩ := List.cons.inj mirrored
          cases earlier with
          | nil =>
              obtain ⟨rfl, _⟩ := List.cons.inj others
              simp [stop]
          | cons before front =>
              obtain ⟨rfl, _⟩ := List.cons.inj others
              have ended : rest = front.reverse ++ [before, final] := by
                rw [← List.reverse_reverse rest, order]
                simp
              exact ih ended

namespace Program

@[simp] theorem partner?_of_lt {index : Nat} (bound : index < 0x80000000) :
    partner? index = some (Int32.ofNat index) :=
  if_pos bound

theorem resolveFrom_start {first : Op} (start : first.opcode = .loopStart) (before : Array Op)
    (pending : List Nat) (rest : List Op) :
    resolveFrom before pending (first :: rest) =
      resolveFrom (before.push first) (before.size :: pending) rest := by
  simp only [resolveFrom, start]

theorem resolveFrom_plain {op : Op} (plain : op.IsPlain) (before : Array Op) (pending : List Nat)
    (rest : List Op) :
    resolveFrom before pending (op :: rest) = resolveFrom (before.push op) pending rest := by
  obtain ⟨noStart, noEnd⟩ := plain
  cases kind : op.opcode <;> simp_all [resolveFrom]

/-- Resolution passes over a nested list, appends its resolved ops and leaves the pending
loops alone. -/
theorem resolveFrom_append {index : Nat} {ops : List Op} {tree : LoopTree}
    (nests : Nests index ops tree) (fits : tree.Fits) (before : Array Op) (pending : List Nat)
    (rest : List Op) (size : before.size = index) :
    resolveFrom before pending (ops ++ rest) =
      resolveFrom (before ++ tree.resolved.toArray) pending rest := by
  induction nests generalizing before pending rest with
  | done => simp [LoopTree.resolved]
  | @act index op ops next plain tail ih =>
      have pushed := ih fits (before.push op) pending rest (by simp [size])
      rw [List.cons_append, resolveFrom_plain plain, pushed]
      congr 1
      simp [LoopTree.resolved]
  | @loop index first last inner ops body next start stop inside tail insideIH tailIH =>
      obtain ⟨bound, bodyFits, nextFits⟩ := fits
      have width := inside.length_resolved
      have opened : resolveFrom before pending (first :: (inner ++ last :: ops) ++ rest) =
          resolveFrom (before.push first ++ body.resolved.toArray) (index :: pending)
            (last :: (ops ++ rest)) := by
        rw [List.cons_append, List.append_assoc, resolveFrom_start start, size]
        exact insideIH bodyFits (before.push first) (index :: pending) _ (by simp [size])
      have here : (before.push first ++ body.resolved.toArray).size =
          index + 1 + body.resolved.length := by
        simp only [Array.size_append, Array.size_push, size, List.size_toArray]
      have closed := tailIH nextFits
        ((before.push ⟨.loopStart, Int32.ofNat (index + 1 + body.resolved.length)⟩ ++
          body.resolved.toArray).push ⟨.loopEnd, Int32.ofNat index⟩) pending rest
        (by simp [size, width]; omega)
      have patched : (before.push first ++ body.resolved.toArray).setIfInBounds index
            ⟨.loopStart, Int32.ofNat (index + 1 + body.resolved.length)⟩ =
          before.push ⟨.loopStart, Int32.ofNat (index + 1 + body.resolved.length)⟩ ++
            body.resolved.toArray := by
        rw [← Array.toList_inj]
        simp [← size]
      rw [opened, resolveFrom]
      simp only [stop, here, partner?_of_lt bound,
        partner?_of_lt (Nat.lt_of_le_of_lt (Nat.le_add_right index _) (Nat.add_assoc .. ▸ bound)),
        patched, closed]
      congr 1
      simp [LoopTree.resolved]

/-- What it takes for resolution to succeed on the ops that are left.  With no loop pending
they nest; else they start with the rest of the innermost pending loop, and resolution
succeeds on what follows its end. -/
def Resolves (here : Nat) (pending : List Nat) (ops : List Op) (result : Array Op) : Prop :=
  match pending with
  | [] => ∃ tree, Nests here ops tree ∧ tree.Fits
  | _ :: outer =>
      ∃ inner last rest body between, ops = inner ++ last :: rest ∧ last.opcode = .loopEnd ∧
        Nests here inner body ∧ body.Fits ∧ here + inner.length < 0x80000000 ∧
        between.size = here + inner.length + 1 ∧ resolveFrom between outer rest = .ok result

theorem Resolves.append {here : Nat} {pending : List Nat} {front ops : List Op}
    {result : Array Op} {tree : LoopTree} (nests : Nests here front tree) (fits : tree.Fits)
    (resolves : Resolves (here + front.length) pending ops result) :
    Resolves here pending (front ++ ops) result := by
  cases pending with
  | nil =>
      obtain ⟨other, otherNests, otherFits⟩ := resolves
      obtain ⟨joined, joinedNests, joinedFits⟩ := nests.append otherNests
      exact ⟨joined, joinedNests, joinedFits fits otherFits⟩
  | cons there outer =>
      obtain ⟨inner, last, rest, body, between, rfl, stop, bodyNests, bodyFits, bound, size,
        resolved⟩ := resolves
      obtain ⟨joined, joinedNests, joinedFits⟩ := nests.append bodyNests
      refine ⟨front ++ inner, last, rest, joined, between, by simp, stop, joinedNests,
        joinedFits fits bodyFits, ?_, ?_, resolved⟩ <;>
        rw [List.length_append] <;> omega

theorem resolves_of_resolveFrom {before : Array Op} {pending : List Nat} {ops : List Op}
    {result : Array Op} (resolved : resolveFrom before pending ops = .ok result) :
    Resolves before.size pending ops result := by
  -- By the number of ops left: a loop start is followed by its body and its end, and then by
  -- fewer ops, on which resolution succeeds again.
  induction length : ops.length using Nat.strongRecOn generalizing before pending ops with
  | _ length ih =>
      subst length
      cases ops with
      | nil =>
          cases pending with
          | nil => exact ⟨.done, .done, trivial⟩
          | cons there outer => simp [resolveFrom, List.getLast?_cons] at resolved
      | cons op rest =>
          by_cases start : op.opcode = .loopStart
          · simp only [resolveFrom, start] at resolved
            obtain ⟨inner, last, after, body, between, rfl, stop, nests, fits, bound, size,
              tail⟩ := ih rest.length (by simp) resolved rfl
            rw [Array.size_push] at nests bound size
            have later := ih after.length (by simp; omega) tail rfl
            have loop : Nests before.size (op :: (inner ++ [last])) (.loop before.size body .done) :=
              .loop start stop nests .done
            have end_ : between.size = before.size + (op :: (inner ++ [last])).length := by
              simp only [size, List.length_cons, List.length_append, List.length_nil]
              omega
            have joined := Resolves.append loop
              ⟨by rw [nests.length_resolved]; exact bound, fits, trivial⟩ (end_ ▸ later)
            simpa using joined
          · by_cases stop : op.opcode = .loopEnd
            · cases pending with
              | nil => simp [resolveFrom, stop] at resolved
              | cons there outer =>
                  simp only [resolveFrom, stop] at resolved
                  split at resolved
                  · rename_i forward back here _
                    have bound : before.size < 0x80000000 := by
                      by_cases bound : before.size < 0x80000000
                      · exact bound
                      · rw [partner?, if_neg bound] at here
                        cases here
                    exact ⟨[], op, rest, .done, _, rfl, stop, .done, trivial, bound, by simp,
                      resolved⟩
                  · cases resolved
            · have tail : resolveFrom (before.push op) pending rest = .ok result := by
                cases kind : op.opcode <;> simp_all [resolveFrom]
              have later := ih rest.length (by simp) tail rfl
              rw [Array.size_push] at later
              exact Resolves.append (.act ⟨start, stop⟩ .done) trivial later

/-- Resolution succeeds exactly on the ops that nest, with every loop end at an index that
fits; the tree says what it returns. -/
theorem resolve_eq_ok_iff {ops : List Op} {program : Program} :
    resolve ops = .ok program ↔
      ∃ tree, Nests 0 ops tree ∧ tree.Fits ∧ program.ops.toList = tree.resolved := by
  have resolved_of {tree : LoopTree} (nests : Nests 0 ops tree) (fits : tree.Fits) :
      resolveFrom #[] [] ops = .ok tree.resolved.toArray := by
    simpa [resolveFrom] using resolveFrom_append nests fits #[] [] [] rfl
  constructor
  · intro resolved
    cases from_ : resolveFrom #[] [] ops with
    | error error => simp [resolve, from_, Except.map] at resolved
    | ok result =>
        obtain ⟨tree, nests, fits⟩ := resolves_of_resolveFrom from_
        refine ⟨tree, nests, fits, ?_⟩
        simp only [resolve, resolved_of nests fits, Except.map, Except.ok.injEq] at resolved
        rw [← resolved]
  · rintro ⟨tree, nests, fits, same⟩
    have whole : program.ops = tree.resolved.toArray := by rw [← same]
    simp [resolve, resolved_of nests fits, Except.map, ← whole]

end Program

namespace LoopTree

/-- The tree stands in the program from one op index up to another: every op is where its
index says, and brackets hold the places of their partners. -/
inductive Placed (program : Program) : Nat → Nat → LoopTree → Prop where
  | done {index : Nat} : Placed program index index .done
  | act {index stop : Nat} {op : Op} {next : LoopTree}
      (found : program.ops[index]? = some op) (plain : op.IsPlain)
      (tail : Placed program (index + 1) stop next) :
      Placed program index stop (.act index op next)
  | loop {index close stop : Nat} {first last : Op} {body next : LoopTree}
      (head : program.ops[index]? = some first) (start : first.opcode = .loopStart)
      (forward : first.target = close) (inside : Placed program (index + 1) close body)
      (foot : program.ops[close]? = some last) (ends : last.opcode = .loopEnd)
      (back : last.target = index) (tail : Placed program (close + 1) stop next) :
      Placed program index stop (.loop index body next)

theorem Placed.of_nests {program : Program} {index : Nat} {ops : List Op} {tree : LoopTree}
    (nests : Nests index ops tree) (fits : tree.Fits) (before after : List Op)
    (whole : program.ops.toList = before ++ tree.resolved ++ after)
    (place : before.length = index) :
    tree.Placed program index (index + ops.length) := by
  induction nests generalizing before after with
  | done => exact .done
  | @act index op ops next plain _ ih =>
      have found : program.ops[index]? = some op := by
        rw [← Array.getElem?_toList, whole, ← place]
        simp [resolved]
      have tail := ih fits (before ++ [op]) after (by simp [whole, resolved]) (by simp [place])
      simpa only [List.length_cons, Nat.add_assoc, Nat.add_comm 1] using Placed.act found plain tail
  | @loop index first last inner ops body next _ _ inside _ insideIH tailIH =>
      obtain ⟨bound, bodyFits, nextFits⟩ := fits
      rw [inside.length_resolved] at bound
      let head : Op := ⟨.loopStart, Int32.ofNat (index + 1 + inner.length)⟩
      let foot : Op := ⟨.loopEnd, Int32.ofNat index⟩
      have split : program.ops.toList =
          before ++ head :: body.resolved ++ foot :: next.resolved ++ after := by
        simp [whole, resolved, inside.length_resolved, head, foot]
      have headFound : program.ops[index]? = some head := by
        rw [← Array.getElem?_toList, split, ← place]
        simp
      have footFound : program.ops[index + 1 + inner.length]? = some foot := by
        have position : index + 1 + inner.length = (before ++ head :: body.resolved).length := by
          simp only [List.length_append, List.length_cons, inside.length_resolved, place]
          omega
        rw [← Array.getElem?_toList, split, position]
        simp
      have inner_ := insideIH bodyFits (before ++ [head]) (foot :: next.resolved ++ after)
        (by simp [split]) (by simp [place])
      have tail := tailIH nextFits (before ++ head :: body.resolved ++ [foot]) after
        (by simp [split]) (by simp [place, inside.length_resolved]; omega)
      have stop : index + 1 + inner.length + 1 + ops.length =
          index + (first :: (inner ++ last :: ops)).length := by
        simp only [List.length_cons, List.length_append]
        omega
      exact stop ▸ Placed.loop headFound rfl (Op.target_ofNat _ bound) inner_ footFound rfl
        (Op.target_ofNat _ (by omega)) tail

end LoopTree

theorem Program.placed_of_resolved {ops : List Op} {tree : LoopTree} {program : Program}
    (nests : Nests 0 ops tree) (fits : tree.Fits)
    (same : program.ops.toList = tree.resolved) : tree.Placed program 0 program.size := by
  have placed : tree.Placed program 0 (0 + ops.length) :=
    .of_nests nests fits [] [] (by simp [same]) rfl
  have size : 0 + ops.length = program.size := by
    rw [Program.size, ← Array.length_toList, same, nests.length_resolved, Nat.zero_add]
  exact size ▸ placed

/-- A resolved program holds the tree of the ops it was made of. -/
theorem Program.placed_of_resolve {ops : List Op} {program : Program}
    (resolved : Program.resolve ops = .ok program) :
    ∃ tree, Nests 0 ops tree ∧ tree.Fits ∧ tree.Placed program 0 program.size := by
  obtain ⟨tree, nests, fits, same⟩ := Program.resolve_eq_ok_iff.mp resolved
  exact ⟨tree, nests, fits, placed_of_resolved nests fits same⟩

theorem Program.resolve_of_nests {ops : List Op} {tree : LoopTree}
    (nests : Nests 0 ops tree) (fits : tree.Fits) :
    ∃ program, Program.resolve ops = .ok program ∧ tree.Placed program 0 program.size :=
  ⟨⟨tree.resolved.toArray⟩, Program.resolve_eq_ok_iff.mpr ⟨tree, nests, fits, rfl⟩,
    placed_of_resolved nests fits rfl⟩

end Tapewright
