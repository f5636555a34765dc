import BoxEngine.Lib.Keyed
import BoxEngine.Lib.Number
import Mathlib.Data.List.Dedup

/-!
# Subscription coordinator

One lane's market data, counted: who wants a token holds a lease on it, and the transport hears of a token when its
first consumer comes and when its last one goes.
-/

namespace BoxEngine

open Js

inductive SubscriptionOwner where
  | browser
  | scanner
  | strategy
  | analytics
  deriving DecidableEq

def subscriptionOwners : List SubscriptionOwner := [.browser, .scanner, .strategy, .analytics]

structure TokenCounts where
  token : Number
  of : SubscriptionOwner → ℕ
  total : ℕ

inductive LeaseId where
  | numbered (owner : SubscriptionOwner) (seq : ℕ)
  | set (owner : SubscriptionOwner)
  deriving DecidableEq

structure SubscriptionLease where
  leaseId : LeaseId
  owner : SubscriptionOwner
  tokens : List Number

structure LeaseRelease where
  leaseId : LeaseId
  released : Bool

inductive TransportCall where
  | subscribeTokens (tokens : List Number)
  | unsubscribeTokens (tokens : List Number)

structure SubscriptionCoordinator where
  counts : List TokenCounts
  leases : List SubscriptionLease
  leaseSeq : ℕ
  releases : List LeaseRelease

inductive SubscriptionOp where
  | acquire (owner : SubscriptionOwner) (tokens : List Number)
  | release (n : ℕ)
  | setOwnerTokens (owner : SubscriptionOwner) (tokens : List Number)
  | resetForBrokerSwitch

namespace TokenCounts

def empty (token : Number) : TokenCounts := ⟨token, fun _ => 0, 0⟩

def raise (owner : SubscriptionOwner) (entry : TokenCounts) : TokenCounts :=
  { entry with of := Function.update entry.of owner (entry.of owner + 1), total := entry.total + 1 }

def lower (owner : SubscriptionOwner) (entry : TokenCounts) : TokenCounts :=
  { entry with of := Function.update entry.of owner (entry.of owner - 1), total := entry.total - 1 }

end TokenCounts

def validToken (token : Number) : Bool := token.isFinite && decide (.fin 0 < token)

def tokenSet (tokens : List Number) : List Number := tokens.reverse.dedup.reverse

namespace SubscriptionCoordinator

def new : SubscriptionCoordinator := ⟨[], [], 0, []⟩

def countsEntry (counts : List TokenCounts) (token : Number) : Option TokenCounts := counts.find? fun entry => entry.token = token

def countsOf (counts : List TokenCounts) (token : Number) : TokenCounts := (countsEntry counts token).getD (.empty token)

/-- One more consumer of a token. The second part collects what the transport has to subscribe. -/
def addToken (owner : SubscriptionOwner) (progress : List TokenCounts × List Number) (token : Number) :
    List TokenCounts × List Number :=
  let entry := countsOf progress.1 token
  (Keyed.put TokenCounts.token progress.1 (entry.raise owner),
    if entry.total = 0 then progress.2 ++ [token] else progress.2)

def dropToken (owner : SubscriptionOwner) (progress : List TokenCounts × List Number) (token : Number) :
    List TokenCounts × List Number :=
  match countsEntry progress.1 token with
  | none => progress
  | some entry =>
    let entry := entry.lower owner
    if entry.total = 0 then (progress.1.filter fun other => other.token ≠ token, progress.2 ++ [token])
    else (Keyed.put TokenCounts.token progress.1 entry, progress.2)

def subscribeCalls (tokens : List Number) : List TransportCall := if tokens.isEmpty then [] else [.subscribeTokens tokens]

def unsubscribeCalls (tokens : List Number) : List TransportCall :=
  if tokens.isEmpty then [] else [.unsubscribeTokens tokens]

variable (s : SubscriptionCoordinator)

def acquire (owner : SubscriptionOwner) (tokens : List Number) : SubscriptionCoordinator × List TransportCall :=
  let unique := tokenSet (tokens.filter validToken)
  let leaseId := .numbered owner (s.leaseSeq + 1)
  let (counts, toSubscribe) := unique.foldl (addToken owner) (s.counts, [])
  ({ counts
     leases := Keyed.put SubscriptionLease.leaseId s.leases ⟨leaseId, owner, unique⟩
     leaseSeq := s.leaseSeq + 1
     releases := s.releases ++ [⟨leaseId, false⟩] }, subscribeCalls toSubscribe)

def releaseLease (leaseId : LeaseId) : SubscriptionCoordinator × List TransportCall :=
  match s.leases.find? fun lease => lease.leaseId = leaseId with
  | none => (s, [])
  | some lease =>
    let (counts, toUnsubscribe) := lease.tokens.foldl (dropToken lease.owner) (s.counts, [])
    ({ s with counts, leases := s.leases.filter fun other => other.leaseId ≠ leaseId }, unsubscribeCalls toUnsubscribe)

def release (n : ℕ) : SubscriptionCoordinator × List TransportCall :=
  match s.releases[n]? with
  | none => (s, [])
  | some handed =>
    if handed.released then (s, [])
    else releaseLease { s with releases := s.releases.set n { handed with released := true } } handed.leaseId

/-- Replaces what an owner holds by one lease, with one difference for the transport. -/
def setOwnerTokens (owner : SubscriptionOwner) (tokens : List Number) :
    SubscriptionCoordinator × List TransportCall :=
  let want := tokenSet (tokens.filter validToken)
  let previouslyHeld := tokenSet ((s.leases.filter fun lease => lease.owner = owner).flatMap SubscriptionLease.tokens)
  let kept := s.leases.filter fun lease => lease.owner ≠ owner
  let (counts, toUnsubscribe) := (previouslyHeld.filter (· ∉ want)).foldl (dropToken owner) (s.counts, [])
  let (counts, toSubscribe) := (want.filter (· ∉ previouslyHeld)).foldl (addToken owner) (counts, [])
  ({ s with
      counts
      leases := if want.isEmpty then kept else Keyed.put SubscriptionLease.leaseId kept ⟨.set owner, owner, want⟩ },
    unsubscribeCalls toUnsubscribe ++ subscribeCalls toSubscribe)

def resetForBrokerSwitch : SubscriptionCoordinator :=
  { s with counts := [], leases := [] }

def step : SubscriptionOp → SubscriptionCoordinator × List TransportCall
  | .acquire owner tokens => s.acquire owner tokens
  | .release n => s.release n
  | .setOwnerTokens owner tokens => s.setOwnerTokens owner tokens
  | .resetForBrokerSwitch => (s.resetForBrokerSwitch, [])

end SubscriptionCoordinator

end BoxEngine
