import RoutingFabric.Mux.Code

/-!
# Multiplexer libraries

A library keeps the models built so far, one for each pair of a size and a circuit, and builds
a model only when it is asked for it the first time.
-/

namespace RoutingFabric.Mux

/-- The models built so far. -/
structure Library where
  models : List Model := []

namespace Library

/-- The library without models. -/
def empty : Library := {}

/-- The number of models. -/
def size (lib : Library) : Nat := lib.models.length

/-- The model of a size and a circuit, if it was built. -/
def find? (lib : Library) (size : Nat) (circuit : Circuit) : Option Model :=
  lib.models.find? fun m => m.size = size ∧ m.circuit = circuit

/-- The model of a size and a circuit, and the library that holds it. -/
def get (lib : Library) (size : Nat) (circuit : Circuit) : Library × Outcome Model :=
  match lib.find? size circuit with
  | some m => (lib, .ok m)
  | none =>
    match Model.build size circuit with
    | .ok m => (⟨m :: lib.models⟩, .ok m)
    | .error e => (lib, .error e)

/-- The bits that select an input of a multiplexer. The library keeps the model also where
the input does not exist. -/
def encode (lib : Library) (size : Nat) (circuit : Circuit) (path : Nat) :
    Library × Outcome ConfigBits :=
  match lib.get size circuit with
  | (lib, .ok m) => (lib, m.encode path)
  | (lib, .error e) => (lib, .error e)

end Library

end RoutingFabric.Mux
