import BusinessProcess.Lint.Rule.Basic

/-!
# Rules about gateways and disallowed kinds
-/

namespace BusinessProcess.Lint.Rule

/-- A gateway forks or joins, not both. -/
def noGatewayJoinFork : Rule :=
  ofNodeCheck "no-gateway-join-fork" .joinFork fun _ node =>
    remarkIf (node.kind.isGateway && node.incoming.length > 1 && node.outgoing.length > 1) node
      "Gateway forks and joins"

/-- A gateway with one source and one target does nothing. -/
def superfluousGateway : Rule :=
  ofNodeCheck "superfluous-gateway" .superfluousGateway fun _ node =>
    remarkIf (node.kind.isGateway && node.incoming.length == 1 && node.outgoing.length == 1) node
      "Gateway is superfluous. It only has one source and target."

/-- No node is of the given kind. -/
def disallowKind (name : String) (code : Code) (kind : NodeKind) : Rule :=
  ofNodeCheck name code fun _ node =>
    remarkIf (node.kind = kind) node ("Element has disallowed type <" ++ kind.label ++ ">")

/-- There are no complex gateways. -/
def noComplexGateway : Rule :=
  disallowKind "no-complex-gateway" .complexGateway (.gateway .complex)

/-- There are no inclusive gateways. -/
def noInclusiveGateway : Rule :=
  disallowKind "no-inclusive-gateway" .inclusiveGateway (.gateway .inclusive)

end BusinessProcess.Lint.Rule
