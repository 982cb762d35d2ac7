import ShardedSql.Algorithm
import ShardedSql.Text.Case

/-!
# Load balancers

A load balancer picks one of several candidates: each in turn, or always the same one.  Whose turn
it is belongs to the state of a session, kept apart from the balancer itself, because several
groups may share one balancer.
-/

namespace ShardedSql

/-- How a candidate is picked. -/
inductive BalancePolicy where
  | roundRobin
  | fixed (target : String)
  deriving DecidableEq, Repr

namespace BalancePolicy

/-- Sets up a policy. -/
def setUp (name : String) (spec : AlgorithmSpec) : Except Fault BalancePolicy :=
  let type := Text.upper spec.type
  if type == "ROUND_ROBIN" then .ok roundRobin
  else if type == "FIXED" then (spec.required name "value").map fixed
  else .error (.algorithm (.unknownType name "load balancer" type))

/-- Picks a candidate, given how often the policy has picked before; yields the new count. -/
def pick (policy : BalancePolicy) (turn : UInt64) (candidates : List String) :
    Except Fault String × UInt64 :=
  match policy with
  | roundRobin =>
      match candidates[turn.toNat % candidates.length]? with
      | some c => (.ok c, turn + 1)
      | none => (.error (.routing .noCandidates), turn)
  | fixed target =>
      if candidates.isEmpty then (.error (.routing .noCandidates), turn)
      else if target ∈ candidates then (.ok target, turn)
      else (.error (.routing (.fixedTargetMissing target candidates)), turn)

end BalancePolicy

/-- Which balancer a turn belongs to. -/
inductive BalancerKey where
  /-- The balancer of the group at a position of its configuration. -/
  | own (configuration position : Nat)
  /-- A named balancer of a configuration, shared by all groups that name it. -/
  | named (configuration : Nat) (name : String)
  deriving DecidableEq, Repr

/-- How often each balancer has picked; balancers that are not listed have not. -/
abbrev Turns := List (BalancerKey × UInt64)

namespace Turns

/-- How often a balancer has picked. -/
def get (turns : Turns) (key : BalancerKey) : UInt64 :=
  (turns.lookup key).getD 0

/-- Sets the count of a balancer. -/
def set (turns : Turns) (key : BalancerKey) (turn : UInt64) : Turns :=
  (key, turn) :: turns.filter (·.1 != key)

end Turns

/-- A balancer: its policy and the turn it advances. -/
structure Balancer where
  /-- Whose turn it advances. -/
  key : BalancerKey
  policy : BalancePolicy
  deriving DecidableEq, Repr

/-- Picks a candidate and advances the turn. -/
def Balancer.pick (b : Balancer) (candidates : List String) (turns : Turns) :
    Except Fault String × Turns :=
  let (picked, turn) := b.policy.pick (turns.get b.key) candidates
  (picked, turns.set b.key turn)

/-- A computation that may advance load balancers and may fail; turns taken before a failure stay
taken. -/
abbrev Balancing := ExceptT Fault (StateM Turns)

/-- Picks a candidate with a balancer. -/
def Balancer.choose (b : Balancer) (candidates : List String) : Balancing String :=
  fun turns => b.pick candidates turns

/-- The same computation with another fault. -/
def Balancing.orFault {α : Type} (x : Balancing α) (fault : Fault) : Balancing α := fun turns =>
  match x turns with
  | (.ok a, turns) => (.ok a, turns)
  | (.error _, turns) => (.error fault, turns)

/-- A computation that advances no balancer. -/
def Balancing.ofExcept {α : Type} (x : Except Fault α) : Balancing α := fun turns => (x, turns)

end ShardedSql
