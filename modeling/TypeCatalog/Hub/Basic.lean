import TypeCatalog.Catalog.FundamentalType
import TypeCatalog.Catalog.Enumeration

/-!
# A catalog with observers

Observers subscribe to a hub with a selection of events. After each change the hub tells them, event
by event, and for one event in the order of subscription. An observer may echo the types it is told
of: it registers a shadow of each under a longer name, from inside the notification.
-/

namespace TypeCatalog

/-- Which events an observer wants to see. -/
structure Selection where
  types : Bool
  scopes : Bool
  members : Bool
  /-- The kinds of types to be told of; `none` stands for all of them. -/
  kinds : Option (List TypeKind)
deriving DecidableEq

namespace Selection

def all : Selection := ⟨true, true, true, none⟩

def typesOnly : Selection := ⟨true, false, false, none⟩

def membersOnly : Selection := ⟨false, false, true, none⟩

def typesOf (kinds : List TypeKind) : Selection := ⟨true, false, false, some kinds⟩

def wants (s : Selection) : Event → Bool
  | .typeRegistered entry => s.types && s.kinds.all fun kinds => entry.kind ∈ kinds
  | .scopeDeclared _ => s.scopes
  | .memberAdded _ _ _ => s.members

end Selection

structure SubscriptionId where
  index : Nat
deriving DecidableEq

structure Subscription where
  id : SubscriptionId
  selection : Selection
  /-- What is put behind the name of a type to name its shadow. -/
  echo : Option String
deriving DecidableEq

/-- One event handed to one observer. -/
structure Delivery where
  observer : SubscriptionId
  event : Event
deriving DecidableEq

structure Hub where
  catalog : Catalog
  /-- In the order of subscription. -/
  subscriptions : List Subscription
  nextSubscription : Nat
  /-- What the observers were told, oldest first. -/
  delivered : List Delivery
deriving DecidableEq

/-- Work on a hub. A failure keeps what was done before it. -/
abbrev HubM := EStateM Fault Hub

namespace Subscription

/-- The name of the shadow that the observer registers for a type. A shadow has no shadow of the
same observer. -/
def shadow? (s : Subscription) : Event → Option (Entry × String)
  | .typeRegistered entry =>
    match s.echo with
    | some suffix =>
      if suffix.toList.isSuffixOf entry.name.toList then none
      else some (entry, entry.name ++ suffix)
    | none => none
  | _ => none

end Subscription

namespace Hub

def ofSettings (settings : CatalogSettings) : Hub := ⟨.empty settings, [], 0, []⟩

def interested (hub : Hub) (event : Event) : List Subscription :=
  hub.subscriptions.filter (·.selection.wants event)

/-- Registers the shadow of a type, if there is one to register. Answers what that raised. -/
def cast (hub : Hub) : Option (Entry × String) → Hub × List Event
  | none => (hub, [])
  | some (entry, name) =>
    match EStateM.run (Change.register (.named name) entry.kind entry.size name)
        (Draft.mk hub.catalog []) with
    | .ok _ draft => ({ hub with catalog := draft.catalog }, draft.events)
    | .error _ draft => ({ hub with catalog := draft.catalog }, draft.events)

/-- Tells one observer of an event. -/
def hear (event : Event) (hub : Hub) (s : Subscription) : Hub :=
  { hub with delivered := hub.delivered ++ [Delivery.mk s.id event] }

/-- Tells one observer of an event, then tells everyone, by `tell`, of what its shadow raised. -/
def deliver (tell : Hub → List Event → Hub) (event : Event) (hub : Hub) (s : Subscription) : Hub :=
  let (hub', raised) := (hear event hub s).cast (s.shadow? event)
  tell hub' raised

/-- Hands events to the observers, one after the other, each by `hand`. -/
def handOut (hand : Event → Hub → Subscription → Hub) (hub : Hub) (events : List Event) : Hub :=
  events.foldl (fun hub event => (hub.interested event).foldl (hand event) hub) hub

/-- Tells the observers of events, with shadows of shadows `levels` deep. Below that they hear of
everything still, and echo nothing. -/
def announce : Nat → Hub → List Event → Hub
  | 0 => handOut hear
  | levels + 1 => handOut (deliver (announce levels))

/-- Shadows of shadows come to an end above this depth or not at all. Each has a longer name than
the one before. If two observers echo under suffixes of which neither ends in the other, only a key
that is taken already can stop them, and none is longer than the longest; otherwise each observer
echoes at most once on the way down. -/
def echoDepth (hub : Hub) : Nat :=
  let lengths := hub.catalog.types.entries.map fun e => e.key.text.length
  lengths.foldl max 0 + hub.subscriptions.length + 2

/-- Tells the observers of events. -/
def tell (hub : Hub) (events : List Event) : Hub := announce hub.echoDepth hub events

/-- Runs a change, then tells the observers of what it raised, even if it failed on the way. -/
def commit {α : Type} (change : Change α) : HubM α := fun hub =>
  match EStateM.run change (Draft.mk hub.catalog []) with
  | .ok a draft => .ok a ({ hub with catalog := draft.catalog }.tell draft.events)
  | .error fault draft =>
    .error fault ({ hub with catalog := draft.catalog }.tell draft.events)

def catalogNow : HubM Catalog := do return (← get).catalog

/-! ## Observers -/

def subscribe (hub : Hub) (selection : Selection) (echo : Option String) : SubscriptionId × Hub :=
  let id : SubscriptionId := ⟨hub.nextSubscription⟩
  (id,
    { hub with
      subscriptions := hub.subscriptions ++ [⟨id, selection, echo⟩]
      nextSubscription := hub.nextSubscription + 1 })

/-- Ends a subscription. Tells whether there was one. -/
def unsubscribe (hub : Hub) (id : SubscriptionId) : Bool × Hub :=
  let rest := hub.subscriptions.filter (·.id ≠ id)
  (rest.length ≠ hub.subscriptions.length, { hub with subscriptions := rest })

end Hub

end TypeCatalog
