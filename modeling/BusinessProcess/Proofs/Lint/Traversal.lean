import BusinessProcess.Lint.Run
import BusinessProcess.Proofs.Graph.Walk
import BusinessProcess.Proofs.History.Integrity

/-!
# The traversal of a run

A run keeps the elements still to be visited on a stack and takes the next one from its top. The
stack read from its top down is the list of pending elements of the walk, so each turn of the loop
is one step of the walk, and on a process that was reached the loop stops when every element has
been visited once.
-/

namespace BusinessProcess

namespace Lint

/-- A traversal in progress: the stack with its top at the end, and the elements visited so far,
oldest first. -/
structure Traversal where
  stack : List Element
  visited : List Element

namespace Traversal

/-- A turn visits the top of the stack and replaces it by what lies directly inside it, in reverse
order. An empty stack stops the loop. -/
def turn? (graph : Graph) (traversal : Traversal) : Option Traversal :=
  traversal.stack.getLast?.map fun element =>
    ⟨traversal.stack.dropLast ++ (graph.contents element).reverse,
      traversal.visited ++ [element]⟩

/-- A number of turns leads from one traversal to another. -/
inductive Turns (graph : Graph) : Nat → Traversal → Traversal → Prop where
  | stay (traversal : Traversal) : Turns graph 0 traversal traversal
  | more {count : Nat} {first second last : Traversal} (turn : first.turn? graph = some second)
      (rest : Turns graph count second last) : Turns graph (count + 1) first last

variable {graph : Graph}

/-- A turn visits the element that is pending first. -/
theorem turn?_reverse (element : Element) (pending visited : List Element) :
    turn? graph ⟨(element :: pending).reverse, visited⟩ =
      some ⟨(graph.contents element ++ pending).reverse, visited ++ [element]⟩ := by
  simp [turn?]

/-- The loop makes the walk, one element in each turn. -/
theorem turns_of_meet {steps : Nat} {pending met : List Element}
    (finished : graph.meet steps pending = some met) (visited : List Element) :
    Turns graph met.length ⟨pending.reverse, visited⟩ ⟨[], visited ++ met⟩ := by
  induction steps generalizing pending met visited with
  | zero =>
      cases pending with
      | nil =>
          cases finished
          rw [List.append_nil]
          exact .stay _
      | cons head rest => cases finished
  | succ steps inductionHypothesis =>
      cases pending with
      | nil =>
          cases finished
          rw [List.append_nil]
          exact .stay _
      | cons head rest =>
          obtain ⟨others, metOthers, rfl⟩ := Option.map_eq_some_iff.1 finished
          have later := inductionHypothesis metOthers (visited ++ [head])
          rw [List.append_assoc, List.singleton_append] at later
          exact .more (turn?_reverse head rest visited) later

/-- Where the loop has stopped, no turns lead further. -/
theorem Turns.count_le {count further : Nat} {first last other : Traversal}
    (turns : Turns graph count first last) (stopped : last.turn? graph = none)
    (others : Turns graph further first other) : further ≤ count := by
  induction turns generalizing further with
  | stay =>
      cases others with
      | stay => exact Nat.le_refl 0
      | more turn _ =>
          rw [stopped] at turn
          cases turn
  | more turn _ inductionHypothesis =>
      cases others with
      | stay => exact Nat.zero_le _
      | more otherTurn otherRest =>
          rw [turn] at otherTurn
          cases otherTurn
          exact Nat.succ_le_succ (inductionHypothesis stopped otherRest)

end Traversal

end Lint

/-- On a process that was reached the loop over the stack stops, after one turn for each element and
never later. It has then visited every node and every flow once and nothing else, each container
before its contents and these in the order in which it lists them, each with all that lies inside it
before the next. A run of rules goes by the elements in this order. -/
theorem Reached.traversal_exact {policy : Policy} {root : ElementId} {ledger : Ledger}
    (reached : Reached policy root ledger) :
    ∃ top visited, ledger.graph.node? root = some top ∧
      Lint.Traversal.Turns ledger.graph visited.length ⟨[.node top], []⟩ ⟨[], visited⟩ ∧
      (∀ count other, Lint.Traversal.Turns ledger.graph count ⟨[.node top], []⟩ other →
        count ≤ visited.length) ∧
      ledger.graph.Preorder [.node top] visited ∧
      visited.Nodup ∧ visited.Perm ledger.graph.elements ∧
      ∀ registry translate, Lint.run registry translate ledger.graph =
        .ofFindings
          (Lint.findingsOn (Lint.activeRules registry) translate ledger.graph [] visited) := by
  have wellFormed := reached.sound.wellFormed
  obtain ⟨top, isTop, preorder, finished, all⟩ := wellFormed.exists_walk
  rw [reached.sound.sameRoot] at isTop
  have turns := Lint.Traversal.turns_of_meet finished []
  exact ⟨top, ledger.graph.walk, isTop, turns, fun _ _ others => turns.count_le rfl others,
    preorder, all.nodup_iff.2 wellFormed.nodup_elements, all, fun _ _ => rfl⟩

/-- A sub-process with two tasks and the flow between them is visited with all its contents before
the task behind it. -/
theorem traversal_of_scope : ∃ ledger, Reached ⟨false, false⟩ ⟨"P"⟩ ledger ∧
    ∃ top visited, ledger.graph.node? ⟨"P"⟩ = some top ∧
      Lint.Traversal.Turns ledger.graph 6 ⟨[.node top], []⟩ ⟨[], visited⟩ ∧
      visited.map Element.id = [⟨"P"⟩, ⟨"S"⟩, ⟨"B"⟩, ⟨"A"⟩, ⟨"F"⟩, ⟨"T"⟩] := by
  let edits : List Edit :=
    [.addNode ⟨"P"⟩ (.alone ⟨"S"⟩ (.subProcess false)), .addNode ⟨"P"⟩ (.alone ⟨"T"⟩ (.task .user)),
      .addNode ⟨"S"⟩ (.alone ⟨"B"⟩ (.task .user)), .addNode ⟨"S"⟩ (.alone ⟨"A"⟩ (.task .send)),
      .addFlow ⟨"S"⟩ (.between ⟨"F"⟩ ⟨"A"⟩ ⟨"B"⟩)]
  have added : ∀ {ledger : Ledger} {parent id kind}, Reached ⟨false, false⟩ ⟨"P"⟩ ledger →
      Reached ⟨false, false⟩ ⟨"P"⟩ (ledger.record (.addNode parent (.alone id kind))) :=
    fun reached => .edit reached (.fresh _ _ ⟨rfl, rfl, rfl, rfl, fun _ => ⟨rfl, rfl⟩⟩)
  have built : Reached ⟨false, false⟩ ⟨"P"⟩ ((Ledger.new ⟨"P"⟩).recordAll edits) :=
    .edit (added (added (added (added .new)))) trivial
  refine ⟨_, built, ?_⟩
  obtain ⟨top, visited, isTop, turns, _, preorder, _, _, _⟩ := built.traversal_exact
  have order : visited = ((Ledger.new ⟨"P"⟩).recordAll edits).graph.walk := by
    obtain ⟨root, isRoot, walked, _⟩ := built.sound.wellFormed.exists_walk
    rw [built.sound.sameRoot, isTop] at isRoot
    cases isRoot
    exact preorder.unique walked
  have listed : visited.map Element.id = [⟨"P"⟩, ⟨"S"⟩, ⟨"B"⟩, ⟨"A"⟩, ⟨"F"⟩, ⟨"T"⟩] := by
    rw [order]
    decide
  have count : visited.length = 6 := by
    simpa using congrArg List.length listed
  exact ⟨top, visited, isTop, count ▸ turns, listed⟩

end BusinessProcess
