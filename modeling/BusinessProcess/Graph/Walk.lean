import BusinessProcess.Graph.Basic

/-!
# Walking through a process

The walk meets a container before its contents and the contents in the order in which the
container lists them, and it finishes with the contents of a sub-process before it goes on
behind it. Elements still to be met are kept on a list, the next one first.
-/

namespace BusinessProcess.Graph

/-- The elements directly inside an element; only containers have any. -/
def contents (graph : Graph) : Element → List Element
  | .node node => if node.kind.isContainer then graph.children node.id else []
  | .flow _ => []

/-- The elements met from a list of pending ones on, or nothing if elements are still pending
after `steps` steps. -/
def meet (graph : Graph) : (steps : Nat) → (pending : List Element) → Option (List Element)
  | _, [] => some []
  | 0, _ :: _ => none
  | steps + 1, element :: pending =>
      (graph.meet steps (graph.contents element ++ pending)).map (element :: ·)

/-- The elements in the order of the walk from the root. It takes one step for each element. -/
def walk (graph : Graph) : List Element :=
  match graph.node? graph.root with
  | some root =>
      (graph.meet (graph.nodes.length + graph.flows.length) [.node root]).getD []
  | none => []

end BusinessProcess.Graph
