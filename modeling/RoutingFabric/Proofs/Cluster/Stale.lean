import RoutingFabric.Proofs.Cluster.Preparation
import RoutingFabric.Proofs.Cluster.Selection
import RoutingFabric.Proofs.Cluster.Steady
import RoutingFabric.Proofs.RoutingGraph.Stale

/-!
# Stale data in a cluster

Preparing a cluster replaces all that was derived for it before, and selecting drivers the states of
its pins and their order. Neither is read before it is replaced.
-/

namespace RoutingFabric.Cluster

/-- The cluster without states of its pins and without an order of them. -/
def unannotated (c : Cluster) : Cluster := { c with locals := { bindings := c.locals.bindings } }

variable {b : BlockGraph} {g g' : RoutingGraph} {t : NetTable} {c c' : Cluster} {nets : Nat}
variable {pins : Array PinState}

/-! ### Preparation -/

/-- What does not depend on derived data is the same in clusters that differ in these only. -/
theorem congr_of_bare_eq {α : Type} (F : Cluster → α) (hF : ∀ c, F c.bare = F c)
    (h : c.bare = c'.bare) :
  F c = F c'
  := by
  rw [← hF, h, hF]

/-- A table that has a size already keeps its entries. -/
theorem resized_resized {α : Type} (xs : Array (Option α)) (n : Nat) :
  resized (resized xs n) n = resized xs n
  := by
  have hlength : (resized xs n).toList.length = n := size_resized xs n
  rw [resized, size_resized, Nat.sub_self, List.replicate_zero, List.append_nil]
  rw [List.take_of_length_le (Nat.le_of_eq hlength)]

/-- A cluster that fits its type stays as it is. -/
theorem fitted_fitted (c : Cluster) (b : BlockGraph) : (c.fitted b).fitted b = c.fitted b := by
  simp only [fitted, resized_resized]

/-- Preparing a cluster lets it fit its type, and changes what is derived. -/
theorem fitted_of_prepare (h : (prepare b g nets).Gives c () c') :
  (c'.fitted b).bare = (c.fitted b).bare
  := by
  obtain ⟨-, -, bs, -, rfl⟩ := gives_prepare_iff.mp h
  have hfitted := congrArg bare (c.fitted_fitted b)
  apply hfitted

/-- Bindings depend neither on derived data of a cluster nor on what the routed design adds to the
graph. -/
theorem bindings_congr (hc : c.bare = c'.bare) (hg : g.unannotated = g'.unannotated) :
  c.bindings b g = c'.bindings b g'
  := by
  have hbind : c'.bind b g = c'.bind b g' := by
    funext id
    rw [bind, bind, RoutingGraph.findPin_congr hg]
  calc c.bindings b g
    _ = c'.bindings b g := congr_of_bare_eq (·.bindings b g) (fun _ => rfl) hc
    _ = c'.bindings b g' := by rw [bindings, bindings, hbind]

/-- Clusters that are the same without derived data, once they fit their type, are prepared alike.
-/
theorem agree_prepare (hc : (c.fitted b).bare = (c'.fitted b).bare)
    (hg : g.unannotated = g'.unannotated) :
  (prepare b g nets).Agree Eq c (prepare b g' nets) c'
  := by
  apply Phase.agree_state_bind
  apply Phase.agree_put_bind
  apply Phase.agree_lift_bind_of_eq
  · apply congr_of_bare_eq (·.checkIndices b nets) (fun _ => rfl) hc
  rintro _ -
  apply Phase.agree_lift_bind_of_eq
  · apply congr_of_bare_eq (·.checkModes b) (fun _ => rfl) hc
  rintro _ -
  apply Phase.agree_lift_bind_of_eq
  · apply bindings_congr hc hg
  rintro bs -
  apply Phase.agree_put
  exact congrArg (fun d : Cluster =>
    { d with locals := { Local.blank b.pins.size with bindings := bs } }) hc

/-! ### Selection of drivers -/

/-- What does not depend on annotations is the same in clusters that differ in these only. -/
theorem congr_of_unannotated_eq {α : Type} (F : Cluster → α) (hF : ∀ c, F c.unannotated = F c)
    (h : c.unannotated = c'.unannotated) :
  F c = F c'
  := by
  rw [← hF, h, hF]

/-- What is annotated before plays no part in what waits for a pin. -/
theorem dependsOnPending_unannotated (w : Walk) (count : Nat) (id : Option PinId) :
  dependsOnPending b c.unannotated w count id = dependsOnPending b c w count id
  := by
  induction count generalizing id with
  | zero => rfl
  | succ count ih =>
    cases id with
    | none => rfl
    | some id =>
      rw [dependsOnPending, dependsOnPending]
      simp only [ih]
      rfl

/-- What is annotated before plays no part in a move. -/
theorem move_unannotated (f : Frame) (w : Walk) :
  f.move b g t c.unannotated w = f.move b g t c w
  := by
  have hknown : f.moveKnown b t c.unannotated w = f.moveKnown b t c w := by
    funext net
    rw [Frame.moveKnown, Frame.moveKnown]
    simp only [dependsOnPending_unannotated]
    rfl
  rw [Frame.move, Frame.move, hknown]
  rfl

/-- What is annotated before plays no part in a number of moves. -/
theorem drain_unannotated (budget : Nat) (w : Walk) :
  w.drain b g t c.unannotated budget = w.drain b g t c budget
  := by
  induction budget generalizing w with
  | zero =>
    rw [Walk.drain, Walk.drain]
  | succ budget ih =>
    rw [Walk.drain, Walk.drain]
    simp only [move_unannotated, ih]
    rfl

/-- What is annotated before plays no part in the walk. -/
theorem selectWithin_unannotated (budget : Nat) :
  selectWithin b g t c.unannotated budget = selectWithin b g t c budget
  := by
  have hvisit : Walk.visitPin b g t c.unannotated = Walk.visitPin b g t c := by
    funext budget w id
    rw [Walk.visitPin, Walk.visitPin]
    simp only [drain_unannotated]
    rfl
  rw [selectWithin, selectWithin, hvisit]

/-- What is annotated before plays no part in a chain. -/
theorem chain_unannotated (count : Nat) (visit : Array Visit) (found : List PinId)
    (id : Option PinId) :
  chain b c.unannotated pins count visit found id = chain b c pins count visit found id
  := by
  induction count generalizing visit found id with
  | zero => cases id <;> rfl
  | succ count ih =>
    cases id with
    | none => rfl
    | some id =>
      rw [chain, chain]
      simp only [ih]
      rfl

/-- What is annotated before plays no part in the order of propagation. -/
theorem propagationOrder_unannotated :
  propagationOrder b c.unannotated pins = propagationOrder b c pins
  := by
  rw [propagationOrder, propagationOrder]
  generalize Array.replicate pins.size Visit.unvisited = visit
  induction List.range pins.size generalizing visit with
  | nil => rfl
  | cons start rest ih =>
    rw [orderFrom, orderFrom]
    simp only [chain_unannotated, ih]

/-- Drivers are selected alike, whatever was annotated before. -/
theorem agree_selectLocalDrivers (h : c.unannotated = c'.unannotated) :
  (selectLocalDrivers b g t).Agree Eq c (selectLocalDrivers b g t) c'
  := by
  apply Phase.agree_state_bind
  apply Phase.agree_lift_bind_of_eq
  · apply congr_of_unannotated_eq (fun d => selectWithin b g t d (moveBound b)) _ h
    intro d
    apply selectWithin_unannotated
  rintro pins -
  apply Phase.agree_lift_bind_of_eq
  · apply congr_of_unannotated_eq (fun d => propagationOrder b d pins) _ h
    intro d
    apply propagationOrder_unannotated
  rintro order -
  apply Phase.agree_put_bind
  apply Phase.agree_report
  exact congrArg (fun d : Cluster => { d with locals := { d.locals with pins, order } }) h

/-- Propagating nets to pins changes the states of these only. -/
theorem unannotated_of_propagatePins {ids : List PinId} {count : Nat}
    (h : propagatePins b g t c ids = .ok (count, c')) :
  c'.unannotated = c.unannotated
  := by
  induction ids generalizing c count with
  | nil =>
    cases pure_eq_ok_iff.mp h
    rfl
  | cons id ids ih =>
    obtain ⟨⟨here, c₁⟩, hpin, h⟩ := bind_eq_ok_iff.mp h
    obtain ⟨⟨beyond, c₂⟩, hrest, h⟩ := bind_eq_ok_iff.mp h
    cases pure_eq_ok_iff.mp h
    obtain ⟨net, logical, p, s, -, -, -, -, rfl⟩ := propagatePin_eq_ok_iff.mp hpin
    apply ih hrest

end RoutingFabric.Cluster
