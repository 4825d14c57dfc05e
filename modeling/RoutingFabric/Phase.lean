import RoutingFabric.Event
import RoutingFabric.Outcome

/-!
# Phases

A phase of a run works on a state. It leaves a state behind whether it succeeds or is stopped,
and reports events on the way. A phase that follows another starts from the state the other
left, and does not start at all where the other was stopped.
-/

namespace RoutingFabric

/-- What a phase gives: its outcome, the state it leaves, and the events it reported. -/
structure Attempt (σ α : Type) where
  outcome : Outcome α
  state : σ
  events : List Event := []

/-- A phase of a run on states of type `σ`. -/
def Phase (σ α : Type) : Type := σ → Attempt σ α

namespace Phase

variable {σ τ α β : Type}

/-- What the phase gives from a state. -/
def run (p : Phase σ α) (s : σ) : Attempt σ α := p s

/-- One phase after another. -/
def andThen (p : Phase σ α) (next : α → Phase σ β) : Phase σ β := fun s =>
  match p s with
  | ⟨.ok a, s', events⟩ =>
    let rest := next a s'
    ⟨rest.outcome, rest.state, events ++ rest.events⟩
  | ⟨.error e, s', events⟩ => ⟨.error e, s', events⟩

instance : Monad (Phase σ) where
  pure a := fun s => ⟨.ok a, s, []⟩
  bind := andThen

/-- The state. -/
def state : Phase σ σ := fun s => ⟨.ok s, s, []⟩

/-- The state becomes `s`. -/
def put (s : σ) : Phase σ Unit := fun _ => ⟨.ok (), s, []⟩

/-- An event is reported. -/
def report (e : Event) : Phase σ Unit := fun s => ⟨.ok (), s, [e]⟩

/-- The value of an operation that leaves the state alone. -/
def lift (r : Outcome α) : Phase σ α := fun s => ⟨r, s, []⟩

/-- A phase on a part of the state. -/
def focus (view : σ → τ) (update : σ → τ → σ) (p : Phase τ α) : Phase σ α := fun s =>
  let a := p (view s)
  ⟨a.outcome, update s a.state, a.events⟩

/-- A phase for each item of a list, from the front. -/
def each {ι : Type} (p : ι → Phase σ Unit) : List ι → Phase σ Unit
  | [] => pure ()
  | i :: rest => do
    p i
    each p rest

/-- A value alone leaves the state as it is. -/
@[simp] theorem run_pure (a : α) (s : σ) : (pure a : Phase σ α).run s = ⟨.ok a, s, []⟩ := rfl

/-- Asking for the state leaves it as it is. -/
@[simp] theorem run_state (s : σ) : (state : Phase σ σ).run s = ⟨.ok s, s, []⟩ := rfl

/-- The state that is put is the one left behind. -/
@[simp] theorem run_put (s t : σ) : (put s).run t = ⟨.ok (), s, []⟩ := rfl

/-- A report leaves the state as it is. -/
@[simp] theorem run_report (e : Event) (s : σ) : (report e).run s = ⟨.ok (), s, [e]⟩ := rfl

/-- A lifted operation leaves the state as it is, whether or not it succeeds. -/
@[simp] theorem run_lift (r : Outcome α) (s : σ) : (lift r).run s = ⟨r, s, []⟩ := rfl

/-- A phase after one that succeeds starts from the state that one left, and its events follow. -/
theorem run_bind_of_ok {p : Phase σ α} {next : α → Phase σ β} {s s' : σ} {a : α}
    {events : List Event} (h : p.run s = ⟨.ok a, s', events⟩) :
  (p >>= next).run s
    = ⟨((next a).run s').outcome, ((next a).run s').state, events ++ ((next a).run s').events⟩
  := by
  change andThen p next s = _
  unfold andThen
  change p s = _ at h
  rw [h]
  rfl

/-- No phase starts after one that is stopped. -/
theorem run_bind_of_error {p : Phase σ α} {next : α → Phase σ β} {s s' : σ} {e : Stop}
    {events : List Event} (h : p.run s = ⟨.error e, s', events⟩) :
  (p >>= next).run s = ⟨.error e, s', events⟩
  := by
  change andThen p next s = _
  unfold andThen
  change p s = _ at h
  rw [h]

end Phase

end RoutingFabric
