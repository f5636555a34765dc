import BoxEngine.UnstartedSound

/-!
# The coordinator over a store of underlyings

The store grants a key whenever no other owner holds it and decides a call before its answer arrives; other processes
take and give back keys. Nothing reads what is recorded beside.
-/

namespace BoxEngine

namespace Coordination

inductive KeyOwner where
  | here (owner : MintedId)
  | elsewhere
  deriving DecidableEq

structure UnderlyingWorld where
  coordinator : ExecutionCoordinator
  owners : String → Option KeyOwner
  decided : List (MintedId × Bool)
  dependants : List (Dependant × String)
  kept : List (MintedId × String)

inductive UnderlyingEvent where
  | moved (event : CoordinatorEvent)
  | asked (owner : MintedId)
  | freed (owner : MintedId)
  | taken (key : String)
  | returned (key : String)

def Holder.depends : Holder → Bool
  | .dependant _ => true
  | .pipeline _ => false

def EntryStage.acquiring? : EntryStage → Option Acquiring
  | .holding asked => some asked
  | .promoting asked _ => some asked
  | _ => none

namespace ExecutionCoordinator

def flying (s : ExecutionCoordinator) : List Acquiring :=
  s.acquirings ++ s.entries.filterMap fun call => call.stage.acquiring?

def Held (s : ExecutionCoordinator) (key : String) (holder : Holder) : Prop :=
  ∃ claim ∈ s.positionClaims, claim.key = key ∧ holder ∈ claim.holders

variable (cfg : CoordinatorConfig)

def Runs (s : ExecutionCoordinator) (id : MintedId) (key : String) : Prop :=
  ∃ call ∈ s.entries, call.id = id ∧ call.stage.running = true ∧
    s.positionClaimKey cfg call.candidate.underlying = key

def dependantsAfter (s : ExecutionCoordinator) (dependants : List (Dependant × String)) :
    CoordinatorEvent → List (Dependant × String)
  | .claimed underlying dependant => (dependant, s.positionClaimKey cfg underlying) :: dependants
  | .unclaimed underlying dependant =>
    dependants.filter fun claimed => claimed ≠ (dependant, s.positionClaimKey cfg underlying)
  | .entryAnswered id (.executed result) _ =>
    match (s.entry? id).filter fun call => call.stage = .executing with
    | some call =>
      match promoted call result with
      | some tradeId => (.trade tradeId, s.positionClaimKey cfg call.candidate.underlying) :: dependants
      | none => dependants
    | none => dependants
  | _ => dependants

/-- A pipeline keeps its own when its entry throws, or leaves it uncertain what there is. -/
def keptAfter (s : ExecutionCoordinator) (kept : List (MintedId × String)) :
    CoordinatorEvent → List (MintedId × String)
  | .entryAnswered id answer _ =>
    match (s.entry? id).filter fun call => call.stage = .executing with
    | some call =>
      match answer with
      | .rejected => (id, s.positionClaimKey cfg call.candidate.underlying) :: kept
      | .executed result =>
        if promoted call result = none ∧ certainty call result = .uncertain then
          (id, s.positionClaimKey cfg call.candidate.underlying) :: kept
        else kept
      | _ => kept
    | none => kept
  | _ => kept

end ExecutionCoordinator

namespace UnderlyingWorld

open ExecutionCoordinator

def init (context : Context) : UnderlyingWorld := ⟨.init context, fun _ => none, [], [], []⟩

variable (w : UnderlyingWorld)

def ask (owner : MintedId) : UnderlyingWorld :=
  match w.coordinator.flying.find? fun acquiring => acquiring.owner = owner with
  | some acquiring =>
    if owner ∈ w.decided.map Prod.fst then w
    else
      match w.owners acquiring.key with
      | none =>
        { w with
          owners := Function.update w.owners acquiring.key (some (.here owner))
          decided := (owner, true) :: w.decided }
      | some _ => { w with decided := (owner, false) :: w.decided }
  | none => w

def free (owner : MintedId) : UnderlyingWorld :=
  if owner ∈ w.coordinator.drops then
    { w with owners := fun key => if w.owners key = some (.here owner) then none else w.owners key }
  else w

variable (cfg : CoordinatorConfig)
variable (w : UnderlyingWorld)

def step : UnderlyingEvent → UnderlyingWorld × Unit
  | .moved event =>
    ({ w with
      coordinator := (w.coordinator.step cfg event).1
      dependants := w.coordinator.dependantsAfter cfg w.dependants event
      kept := w.coordinator.keptAfter cfg w.kept event }, ())
  | .asked owner => (w.ask owner, ())
  | .freed owner => (w.free owner, ())
  | .taken key =>
    (if w.owners key = none then { w with owners := Function.update w.owners key (some .elsewhere) } else w, ())
  | .returned key =>
    (if w.owners key = some .elsewhere then { w with owners := Function.update w.owners key none } else w, ())

def AsDecided (owner : MintedId) : Answer → Prop
  | .acquire (.acquired _) _ => (owner, true) ∈ w.decided
  | .acquire .conflict _ => (owner, false) ∈ w.decided
  | _ => False

/-- Acquisitions of underlyings are answered as the store decided, and the broker stays. -/
def Honest : UnderlyingEvent → Prop
  | .moved (.claimAnswered owner answer) => w.AsDecided owner answer
  | .moved (.entryAnswered id answer _) =>
    ∀ call ∈ w.coordinator.entries, call.id = id → ∀ acquiring ∈ call.stage.acquiring?.toList,
      w.AsDecided acquiring.owner answer
  | .moved (.switched _) | .moved .reset => False
  | _ => True

def Quiet : Prop :=
  w.coordinator.acquirings = [] ∧ w.coordinator.drops = [] ∧
    ∀ call ∈ w.coordinator.entries, call.stage.acquiring? = none

/-- Exactly while a dependant, a running pipeline or whatever else is named is there. -/
def ClaimedWith (others : String → Prop) : Prop :=
  ∀ key,
    ((∃ claim ∈ w.coordinator.positionClaims, claim.key = key) ↔
      (∃ dependant, (dependant, key) ∈ w.dependants) ∨ (∃ id, w.coordinator.Runs cfg id key) ∨ others key) ∧
    ∀ dependant, (dependant, key) ∈ w.dependants → w.coordinator.Held key (.dependant dependant)

def Claimed : Prop := w.ClaimedWith cfg fun _ => False

def ClaimedOrKept : Prop :=
  w.ClaimedWith cfg fun key => ∃ id, (id, key) ∈ w.kept

/-- No dependant is turned away or dropped in mid-claim: it asks while the key is free and is released once its claim
has landed. -/
def Orderly : UnderlyingEvent → Prop
  | .asked owner => ∀ acquiring ∈ w.coordinator.flying, acquiring.owner = owner → acquiring.holder.depends = true →
      owner ∉ w.decided.map Prod.fst → w.owners acquiring.key = none
  | .moved (.unclaimed underlying dependant) => ∀ acquiring ∈ w.coordinator.flying,
      acquiring.holder = .dependant dependant → acquiring.key ≠ w.coordinator.positionClaimKey cfg underlying
  | .moved event => w.coordinator.Undisturbed event
  | _ => True

end UnderlyingWorld

end Coordination

end BoxEngine
