import ClassPolicy.Pattern.MemberPattern

/-!
# Distributed methods

Calls of a distributed method are replayed on the other nodes, on all of them
or only where the instance is resident. The first registration that matches
counts. Static members and initializers are never distributed.
-/

set_option autoImplicit false

namespace ClassPolicy

structure DistributedMethod where
  pattern : String
  runOnAllNodes : Bool := true
deriving DecidableEq, Repr

namespace DistributedMethod

def firstMatch (m : MemberDescriptor) :
    List DistributedMethod → Except PatternError (Option DistributedMethod)
  | [] => .ok none
  | d :: rest =>
    match matchMember d.pattern m with
    | .error e => .error e
    | .ok true => .ok (some d)
    | .ok false => firstMatch m rest

def lookup (registered : List DistributedMethod) (m : MemberDescriptor) :
    Except PatternError (Option DistributedMethod) :=
  if m.modifiers.has .static || m.isInitializer then .ok none else firstMatch m registered

end DistributedMethod

end ClassPolicy
