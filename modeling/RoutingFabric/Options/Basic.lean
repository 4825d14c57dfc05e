import RoutingFabric.Mux.Circuit

/-!
# Options

What a user may choose for a run: the circuits of the multiplexers in switch boxes, in
connection boxes and in clusters, a limit on the rounds that look for parasitic nets, whether
nets of dedicated networks are left out, and the number of threads that build boxes.
-/

namespace RoutingFabric

/-- The options of a run. Without a limit on the rounds, the fabric sets one. -/
structure Options where
  switchMux : Mux.Circuit := {}
  connectionMux : Mux.Circuit := {}
  clusterMux : Mux.Circuit := {}
  maxRounds : Option Nat := none
  skipDedicated : Bool := true
  threads : Nat := 1
  deriving DecidableEq

end RoutingFabric
