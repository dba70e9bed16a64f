/-!
# Phases of a session

A session only moves forward through its phases.

* `Phase` — the phases in their order;
* `Phase.label` — the name that messages use;
* `Phase.rank` — the place in the order.
-/

namespace SymbolAtlas

/-- How far a session has come. -/
inductive Phase
  /-- Nothing has been sent. -/
  | created
  /-- The handshake is under way. -/
  | initializing
  /-- The handshake is done. -/
  | initialized
  /-- At least one document is open. -/
  | documentOpen
  /-- Nothing more may be asked. -/
  | closed
  deriving DecidableEq, Repr

namespace Phase

/-- The name that messages use. -/
def label : Phase → String
  | .created => "created"
  | .initializing => "initializing"
  | .initialized => "initialized"
  | .documentOpen => "document_open"
  | .closed => "closed"

/-- The place in the order. -/
def rank : Phase → Nat
  | .created => 0
  | .initializing => 1
  | .initialized => 2
  | .documentOpen => 3
  | .closed => 4

/-- All phases in their order. -/
def all : List Phase :=
  [.created, .initializing, .initialized, .documentOpen, .closed]

/-- The phase with a name. -/
def ofLabel? (s : String) : Option Phase :=
  all.find? fun p => p.label == s

/-- The phases in which the workspace can be queried. -/
def ready : List Phase :=
  [.initialized, .documentOpen]

end Phase

end SymbolAtlas
