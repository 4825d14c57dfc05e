import RoutingFabric.Cluster.Propagation
import RoutingFabric.Proofs.Cluster.Selection

/-!
# Propagation leaves drivers alone

Propagating nets in a cluster changes the nets of its pins and nothing else. The drivers that
were selected stay, and with them the inputs that the multiplexers of the cluster have to select.
-/

namespace RoutingFabric.Cluster

variable (b : BlockGraph) (c : Cluster)

/-- Every pin with active edges has selected one of them. -/
def Driven : Prop :=
  ∀ id < b.pins.size, ∃ edges s, b.activeInputs c.modes id = .ok edges ∧ c.locals.pins[id]? = some s
    ∧ (edges ≠ [] → ∃ d, s.selected = some d ∧ d.path < edges.length)

variable {b} {g : RoutingGraph} {t : NetTable} {c}

/-- Where drivers are as they should be, every pin with active edges has selected one. -/
theorem driven_of_sound {c' : Cluster} {pins : Array PinState} (h : Sound b g c pins)
    (hpins : c'.locals.pins = pins) (hmodes : c'.modes = c.modes) :
  Driven b c'
  := by
  obtain ⟨hsize, htotal⟩ := h.total
  intro id hid
  obtain ⟨edges, known, hedges, -⟩ := htotal id hid
  rw [← hsize] at hid
  have hstate := Array.getElem?_eq_getElem hid
  use edges, pins[id]
  rw [hmodes, hpins]
  use hedges, hstate
  intro hne
  obtain ⟨d, hd⟩ := Option.isSome_iff_exists.mp ((h.driven id _ edges hstate hedges).mpr hne)
  obtain ⟨hfan, hpath, -⟩ := h.driver id _ d edges hstate hd hedges
  use d, hd
  omega

/-- A selection that succeeds lets every pin with active edges select one. -/
theorem driven_of_selectLocalDrivers {c' : Cluster} (h : (selectLocalDrivers b g t).Gives c () c') :
  Driven b c'
  := by
  obtain ⟨pins, order, hpins, horder, rfl⟩ := gives_selectLocalDrivers_iff.mp h
  apply driven_of_sound (sound_of_selection hpins horder)
  · rfl
  · rfl

/-- The pins of two clusters have the same drivers. -/
structure SameDrivers (c c' : Cluster) : Prop where
  modes : c'.modes = c.modes
  blockGraph : c'.blockGraph = c.blockGraph
  selected : ∀ id : PinId,
    (c'.locals.pins[id]?).map (·.selected) = (c.locals.pins[id]?).map (·.selected)

/-- What has been selected is seen in a cluster with the same drivers. -/
theorem Driven.of_same {c' : Cluster} (h : Driven b c) (hsame : SameDrivers c c') :
  Driven b c'
  := by
  intro id hid
  obtain ⟨edges, s, hedges, hs, hdriven⟩ := h id hid
  have hselected := hsame.selected id
  rw [hs] at hselected
  obtain ⟨s', hs', hs''⟩ := Option.map_eq_some_iff.mp hselected
  use edges, s', by rw [hsame.modes, hedges], hs'
  rw [hs'']
  apply hdriven

/-- Propagating nets to a pin leaves drivers alone. -/
theorem sameDrivers_of_propagatePin {c' : Cluster} {id : PinId} {count : Nat}
    (h : propagatePin b g t c id = .ok (count, c')) :
  SameDrivers c c'
  := by
  obtain ⟨⟨net, logical⟩, -, h⟩ := bind_eq_ok_iff.mp h
  obtain ⟨p, -, h⟩ := bind_eq_ok_iff.mp h
  obtain ⟨s, -, h⟩ := bind_eq_ok_iff.mp h
  obtain ⟨pins, hpins, h⟩ := bind_eq_ok_iff.mp h
  obtain ⟨-, rfl⟩ := alter_eq_ok_iff.mp hpins
  cases pure_eq_ok_iff.mp h
  constructor
  · rfl
  · rfl
  · intro q
    simp only [Array.getElem?_modify]
    split
    · rw [Option.map_map]
      rfl
    · rfl

/-- Propagating nets to pins leaves drivers alone. -/
theorem sameDrivers_of_propagatePins {c' : Cluster} {ids : List PinId} {count : Nat}
    (h : propagatePins b g t c ids = .ok (count, c')) :
  SameDrivers c c'
  := by
  induction ids generalizing c count with
  | nil =>
    cases pure_eq_ok_iff.mp h
    constructor <;> intros <;> rfl
  | cons id ids ih =>
    obtain ⟨⟨here, c''⟩, hpin, h⟩ := bind_eq_ok_iff.mp h
    obtain ⟨⟨beyond, c'''⟩, hrest, h⟩ := bind_eq_ok_iff.mp h
    cases pure_eq_ok_iff.mp h
    have hpin := sameDrivers_of_propagatePin hpin
    have hrest := ih hrest
    constructor
    · rw [hrest.modes, hpin.modes]
    · rw [hrest.blockGraph, hpin.blockGraph]
    · intro q
      rw [hrest.selected, hpin.selected]

/-- Propagating nets leaves drivers alone. -/
theorem sameDrivers_of_propagateNets {c' : Cluster} {count : Nat}
    (h : propagateNets b g t c = .ok (count, c')) :
  SameDrivers c c'
  := sameDrivers_of_propagatePins h

end RoutingFabric.Cluster
