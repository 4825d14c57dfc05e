import RoutingFabric.Cluster.Order
import RoutingFabric.Phase

/-!
# Selection of local drivers

Every pin that an edge may drive selects one of its edges: the first one if the pin is known to
carry no net, otherwise the first one whose source carries the net of the pin. What a source
carries is resolved on demand, by a walk that keeps the pins waiting for others on a stack.

A pin with a known net does not wait for a source that in turn waits for it: it goes on to its
next edge. A pin without one has to take its first edge; it fails if the source waits for it
and has to take its own first edge as well.
-/

namespace RoutingFabric.Cluster

/-- A pin waiting for the source of one of its edges. -/
structure Frame where
  pin : PinId
  inputs : List Input
  cursor : Nat := 0
  deriving DecidableEq

/-- State of the walk. -/
structure Walk where
  visit : Array Visit
  resolved : Array (Option NetId)
  pins : Array PinState
  stack : List Frame

/-- What the pin on top of the stack does next. -/
inductive Move where
  /-- it waits for a pin not yet dealt with -/
  | descend (id : PinId)
  /-- it goes on to its next edge -/
  | skip
  /-- it is done -/
  | finish (selected : Option LocalDriver) (resolved : Option NetId) (isOpen : Bool)
  deriving DecidableEq

/-- The driver a pin selects with one of its edges. -/
def Frame.driver (f : Frame) (path : Nat) (i : Input) : LocalDriver :=
  ⟨i.source, i.edge, path, f.inputs.length⟩

variable (b : BlockGraph) (g : RoutingGraph) (t : NetTable) (c : Cluster)

/-! ### Pins that wait -/

/-- Whether the net of a pin comes from a pin that waits, within a number of pins. -/
def dependsOnPending (w : Walk) : Nat → Option PinId → Outcome Bool
  | 0, _ => return false
  | _ + 1, none => return false
  | more + 1, some id => do
    match ← entry w.visit id with
    | .visiting => return true
    | _ => dependsOnPending w more (← dependency b c w.pins id)

/-- The net that a waiting pin will carry whatever its drivers, if there is one. A pin that
takes its first edge has none. -/
def pendingNet (id : PinId) : Outcome (Option (Option NetId)) := do
  match ← knownNet b g c id with
  | some net => return some (some net)
  | none =>
    match ← b.activeInputs c.modes id with
    | [] => return some none
    | _ :: _ => return none

/-! ### Moves -/

/-- The next move of a pin that no edge may drive. -/
def Frame.moveIdle (f : Frame) (w : Walk) (known : Option NetId) : Outcome Move := do
  match ← forwarded b c f.pin with
  | some input =>
    if (← entry w.visit input) = .unvisited then return .descend input
    else return .finish none known (← isUndriven b f.pin)
  | none => return .finish none known (← isUndriven b f.pin)

/-- The next move of a pin that is known to carry a net. -/
def Frame.moveKnown (f : Frame) (w : Walk) (net : NetId) : Outcome Move := do
  match f.inputs[f.cursor]? with
  | none =>
    fail (.missingLocalDriver c.name (← b.pinName f.pin) (t.nameOf net) f.inputs.length)
  | some i =>
    match ← entry w.visit i.source with
    | .unvisited => return .descend i.source
    | .visiting => return .skip
    | .done =>
      if (← entry w.resolved i.source) = some net then
        if ← dependsOnPending b c w (w.pins.size + 1) (some i.source) then return .skip
        else return .finish (some (f.driver f.cursor i)) (some net) false
      else return .skip

/-- The next move of a pin that is known to carry no net, which takes its first edge. -/
def Frame.moveFree (f : Frame) (w : Walk) (first : Input) : Outcome Move := do
  match ← entry w.visit first.source with
  | .unvisited => return .descend first.source
  | .visiting =>
    match ← pendingNet b g c first.source with
    | some net => return .finish (some (f.driver 0 first)) net false
    | none => fail (.localDriverCycle c.name (← b.pinName f.pin))
  | .done => return .finish (some (f.driver 0 first)) (← entry w.resolved first.source) false

/-- The next move of a pin. -/
def Frame.move (f : Frame) (w : Walk) : Outcome Move := do
  let known ← knownNet b g c f.pin
  match f.inputs with
  | [] => f.moveIdle b c w known
  | first :: _ =>
    match known with
    | some net => f.moveKnown b t c w net
    | none => f.moveFree b g c w first

/-! ### The walk -/

/-- Before the walk. -/
def Walk.start (pins : Nat) : Walk where
  visit := Array.replicate pins .unvisited
  resolved := Array.replicate pins none
  pins := Array.replicate pins {}
  stack := []

/-- A pin is put on the stack. -/
def Walk.push (w : Walk) (id : PinId) : Outcome Walk := do
  let visit ← alter w.visit id fun _ => .visiting
  let inputs ← inputsOf b c id
  return { w with visit, stack := { pin := id, inputs } :: w.stack }

/-- The pin of a frame makes a move, with the frames below it on the stack. -/
def Walk.apply (w : Walk) (f : Frame) (below : List Frame) : Move → Outcome Walk
  | .descend id => w.push b c id
  | .skip => return { w with stack := { f with cursor := f.cursor + 1 } :: below }
  | .finish selected resolved isOpen => do
    let visit ← alter w.visit f.pin fun _ => .done
    let resolved ← alter w.resolved f.pin fun _ => resolved
    let pins ← alter w.pins f.pin fun s => { s with selected, isOpen }
    return { visit, resolved, pins, stack := below }

/-- Moves are made until the stack is empty. What is left of the number of moves allowed is
given back. -/
def Walk.drain : Nat → Walk → Outcome (Nat × Walk)
  | budget, w =>
    match w.stack with
    | [] => return (budget, w)
    | f :: below =>
      match budget with
      | 0 => fault .endless
      | budget + 1 => do
        let move ← f.move b g t c w
        let w ← w.apply b c f below move
        drain budget w

/-- The walk deals with a pin, if it has not yet. -/
def Walk.visitPin (budget : Nat) (w : Walk) (id : PinId) : Outcome (Nat × Walk) := do
  if (← entry w.visit id) = .unvisited then
    let w ← w.push b c id
    w.drain b g t c budget
  else return (budget, w)

/-- The states of all pins after the walk, which may make a number of moves. -/
def selectWithin (budget : Nat) : Outcome (Array PinState) := do
  let (_, w) ← (List.range b.pins.size).foldlM
    (fun (budget, w) id => w.visitPin b g t c budget id) (budget, Walk.start b.pins.size)
  return w.pins

/-- A number of moves that suffices: each pin waits once and is done once, and each edge is
skipped at most once. -/
def moveBound : Nat := 2 * b.pins.size + b.pins.toList.foldr (·.inputs.length + ·) 0

/-- Every pin selects its driver, and the order of propagation is found. The cluster is left as
it was where this fails. -/
def selectLocalDrivers : Phase Cluster Unit := do
  let c ← Phase.state
  let pins ← Phase.lift (selectWithin b g t c (moveBound b))
  let order ← Phase.lift (propagationOrder b c pins)
  let locals := { c.locals with pins, order }
  Phase.put { c with locals }
  Phase.report (.driversSelected c.name locals.drivenCount locals.openCount)

end RoutingFabric.Cluster
