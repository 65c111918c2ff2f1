import Ultiledger.AccountStore
import Ultiledger.Quorum
import Mathlib.Data.List.Sort

/-!
# Leaders of a nomination round

`updateRoundLeaders` of `consensus/decree.go` and the normalisation it starts from, with
exact weights in place of doubles.

Normalisation takes over a nested quorum, not a copy, and sorts it in place, and so
sorts a part of the decree's own quorum (`settleQuorum`).  The comparison is not an
order, so the arrangement it leaves is a parameter.
-/

namespace Ultiledger

section Normalisation

variable (nodeID : String) (arrange : List Quorum → List Quorum)

/-- The test of `simplifyQuorum` for an unnecessary nesting. -/
def isWrapper (threshold : ℚ) (validators : List String) (nestQuorums : List Quorum) : Bool :=
  decide (threshold = 1) && validators.isEmpty && decide (nestQuorums.length = 1)

mutual

def simplifyQuorum : Quorum → Quorum
  | .mk threshold validators nestQuorums =>
    let simplified := simplifyQuorums nestQuorums
    match isWrapper threshold validators nestQuorums, nestQuorums with
    | true, nested :: _ => nested
    | _, _ => .mk threshold (validators.filter fun vid => vid ≠ nodeID) simplified

def simplifyQuorums : List Quorum → List Quorum
  | [] => []
  | quorum :: rest => simplifyQuorum quorum :: simplifyQuorums rest

end

mutual

def sortQuorum : Quorum → Quorum
  | .mk threshold validators nestQuorums =>
    .mk threshold (validators.insertionSort (· ≤ ·)) (arrange (sortQuorums nestQuorums))

def sortQuorums : List Quorum → List Quorum
  | [] => []
  | quorum :: rest => sortQuorum quorum :: sortQuorums rest

end

def normalizeQuorum (quorum : Quorum) : Quorum :=
  sortQuorum arrange (simplifyQuorum nodeID quorum)

mutual

/-- The quorum handed to `normalizeQuorum`, as the call leaves it. -/
def settleQuorum : Quorum → Quorum
  | .mk threshold validators nestQuorums =>
    let settled := settleQuorums nestQuorums
    match isWrapper threshold validators nestQuorums, nestQuorums with
    | true, nested :: _ => .mk threshold validators [sortQuorum arrange nested]
    | _, _ => .mk threshold validators settled

def settleQuorums : List Quorum → List Quorum
  | [] => []
  | quorum :: rest => settleQuorum quorum :: settleQuorums rest

end

mutual

def getQuorumNodes : Quorum → List String
  | .mk _ validators nestQuorums => validators ++ getQuorumsNodes nestQuorums

def getQuorumsNodes : List Quorum → List String
  | [] => []
  | quorum :: rest => getQuorumNodes quorum ++ getQuorumsNodes rest

end

mutual

def getNodeWeight : Quorum → Nat
  | .mk threshold validators nestQuorums =>
    if nodeID ∈ validators then
      ⌈(2 ^ 63 : ℚ) * threshold⌉.toNat
    else
      ⌊(firstWeight nestQuorums : ℚ) * threshold⌋.toNat

def firstWeight : List Quorum → Nat
  | [] => 0
  | quorum :: rest =>
    if getNodeWeight quorum > 0 then getNodeWeight quorum else firstWeight rest

end

end Normalisation

/-- `binary.PutUvarint`, which overwrites the start of the buffer. -/
def putUvarint (buf : List UInt8) (number : Nat) : List UInt8 :=
  encodeVarint 10 number ++ buf.drop (encodeVarint 10 number).length

/-- What a node or value hash of a round is computed from. -/
structure RoundSeed where
  index : Nat
  prevConsensusValue : String
  nominationRound : Nat
  sha256HashUint64 : List UInt8 → Nat

/-- The hash of a text under a purpose.  Each number is written over the one
before it, as in the source. -/
def RoundSeed.hash (seed : RoundSeed) (purpose : Nat) (text : String) : Nat :=
  let buf := putUvarint (List.replicate 10 0) seed.index
  let buf := buf ++ utf8 seed.prevConsensusValue
  let buf := putUvarint buf purpose
  let buf := putUvarint buf seed.nominationRound
  seed.sha256HashUint64 (buf ++ utf8 text)

def getNodeHash (seed : RoundSeed) (nodeID : String) (isPriority : Bool) : Nat :=
  seed.hash (if isPriority then 2 else 1) nodeID

def getConsensusValueHash (seed : RoundSeed) (vote : String) : Nat :=
  seed.hash 3 vote

def getNodePriority (seed : RoundSeed) (localID : String) (quorum : Quorum) (nodeID : String) :
    Nat :=
  let weight := if nodeID = localID then 2 ^ 64 - 1 else getNodeWeight nodeID quorum
  if weight > 0 ∧ getNodeHash seed nodeID false ≤ weight then getNodeHash seed nodeID true else 0

def electLeaders (priority : String → Nat) :
    List String → Nat → List String → List String
  | [], _, leaders => leaders
  | node :: rest, topPriority, leaders =>
    let higher := priority node > topPriority
    let topPriority := if higher then priority node else topPriority
    let leaders := if higher then [] else leaders
    let leaders :=
      if priority node > 0 ∧ priority node = topPriority then leaders.insert node else leaders
    electLeaders priority rest topPriority leaders

/-- The leaders that `updateRoundLeaders` adds. -/
def roundLeaders (seed : RoundSeed) (localID : String) (arrange : List Quorum → List Quorum)
    (quorum : Quorum) : List String :=
  let quorum := normalizeQuorum localID arrange quorum
  let priority := getNodePriority seed localID quorum
  electLeaders priority (getQuorumNodes quorum) (priority localID) [localID]

end Ultiledger
