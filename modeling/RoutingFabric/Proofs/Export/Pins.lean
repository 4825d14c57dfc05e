import RoutingFabric.Export.Pins
import RoutingFabric.Proofs.BlockGraph.Paths
import RoutingFabric.Proofs.Fabric.Identities
import RoutingFabric.Proofs.Fabric.Safety

/-!
# Pins that are listed

The reports of the pins of an annotated cluster are listed by the names of the pins. A name that two
pins share is listed once, with the report of the last of them. So no report is lost if names are
distinct, which they are unless a block has blocks of one name in two of its modes.
-/

namespace RoutingFabric.Export

open Relation BlockGraph Fabric

/-! ### Listings -/

namespace Listing

variable {α : Type} {l : Listing α} {pairs : List (String × α)} {name key : String} {a : α}

/-- A listing of names and values and one more is that of the first with one more. -/
theorem ofList_concat : ofList (pairs ++ [(name, a)]) = put name a (ofList pairs) := by
  rw [ofList, List.foldl_append]
  rfl

/-- The names of a listing with one more are those of it and that. -/
theorem mem_names_put :
  key ∈ (put name a l).map Prod.fst ↔ key = name ∨ key ∈ l.map Prod.fst
  := by
  induction l with
  | nil => simp [put]
  | cons p rest ih =>
    obtain ⟨other, b⟩ := p
    unfold put
    split
    · next heq => simp [heq]
    · split
      · simp
      · rw [List.map_cons, List.mem_cons, ih, List.map_cons, List.mem_cons, or_left_comm]

/-- The names of a listing stay in order. -/
theorem sorted_put (h : (l.map Prod.fst).Pairwise (· < ·)) :
  ((put name a l).map Prod.fst).Pairwise (· < ·)
  := by
  induction l with
  | nil => apply List.pairwise_singleton
  | cons p rest ih =>
    obtain ⟨other, b⟩ := p
    obtain ⟨hfirst, hrest⟩ := List.pairwise_cons.mp h
    unfold put
    split
    · next heq =>
      rw [List.map_cons, heq]
      apply h
    · next hne =>
      split
      · next hlt =>
        apply List.pairwise_cons.mpr ⟨?_, h⟩
        intro key hkey
        rcases List.mem_cons.mp hkey with rfl | hkey
        · apply hlt
        · apply String.lt_trans hlt (hfirst key hkey)
      · next hle =>
        apply List.pairwise_cons.mpr ⟨?_, ih hrest⟩
        intro key hkey
        rcases mem_names_put.mp hkey with rfl | hkey
        · by_contra hge
          apply hne (String.le_antisymm (String.not_lt.mp hge) (String.not_lt.mp hle))
        · apply hfirst key hkey

/-- The names of a listing are in order. -/
theorem sorted_ofList (pairs : List (String × α)) :
  ((ofList pairs).map Prod.fst).Pairwise (· < ·)
  := by
  induction pairs using List.reverseRecOn with
  | nil => apply List.Pairwise.nil
  | append_singleton pairs p ih =>
    rw [ofList_concat]
    apply sorted_put ih

/-- A name has the value it was given last. -/
theorem lookup_ofList (pairs : List (String × α)) (name : String) :
  (ofList pairs).lookup name = pairs.reverse.lookup name
  := by
  induction pairs using List.reverseRecOn with
  | nil => rfl
  | append_singleton pairs p ih =>
    obtain ⟨other, a⟩ := p
    rw [ofList_concat, List.reverse_concat]
    by_cases hname : name = other
    · rw [hname, lookup_put_self, List.lookup_cons_self]
    · rw [lookup_put_of_ne _ _ hname, ih, List.lookup_cons, beq_false_of_ne hname]

/-- A name that a listing does not have is added. -/
theorem perm_put (h : name ∉ l.map Prod.fst) : (put name a l).Perm ((name, a) :: l) := by
  induction l with
  | nil => rfl
  | cons p rest ih =>
    obtain ⟨other, b⟩ := p
    rw [List.map_cons, List.mem_cons, not_or] at h
    unfold put
    rw [if_neg h.1]
    split
    · rfl
    · apply ((ih h.2).cons (other, b)).trans
      apply List.Perm.swap

/-- Where names are distinct, all values are listed. -/
theorem perm_ofList (h : (pairs.map Prod.fst).Nodup) : (ofList pairs).Perm pairs := by
  induction pairs using List.reverseRecOn with
  | nil => rfl
  | append_singleton pairs p ih =>
    obtain ⟨name, a⟩ := p
    rw [List.map_append, List.map_singleton, List.nodup_append_comm, List.singleton_append,
      List.nodup_cons] at h
    have hall := ih h.2
    rw [ofList_concat]
    apply (perm_put _).trans ((hall.cons _).trans (List.perm_append_singleton _ _).symm)
    rw [(hall.map Prod.fst).mem_iff]
    apply h.1

end Listing

/-! ### Reports -/

/-- Each pin of a cluster has its report, and the reports are listed by the names of the pins, each
name with the last report it has. -/
structure Dumped (t : NetTable) (b : BlockGraph) (c : Cluster)
    (reports : List (String × PinReport)) (listing : Listing PinReport) : Prop where
  reported : pinReports t b c = .ok reports
  listed : pinListing t b c = .ok listing
  length : reports.length = b.pins.size
  own : ∀ id < b.pins.size, ∃ s text a, c.locals.pins[id]? = some s ∧ b.pinName id = .ok text
    ∧ reportOf t b s = .ok a ∧ reports[id]? = some (text, a)
  sorted : (listing.map Prod.fst).Pairwise (· < ·)
  last : ∀ text, listing.lookup text = reports.reverse.lookup text

variable {t : NetTable} {b : BlockGraph} {c : Cluster} {s : Cluster.PinState} {id : PinId}
variable {nodes : Nat}

/-- In a graph that is well built all pins have names. -/
theorem exists_pinName_of_lt (hb : b.WellBuilt) (hid : id < b.pins.size) :
  ∃ text, b.pinName id = .ok text
  := by
  apply hb.closed.exists_pinName (Array.getElem?_eq_getElem hid)
  rintro ⟨above, -, hloop⟩
  apply hb.not_above_self above hloop

/-- The pins of an ordered cluster have reports. -/
theorem exists_reportOf (hb : b.WellBuilt) (hc : Cluster.Ordered b c)
    (hs : c.locals.pins[id]? = some s) :
  ∃ a, reportOf t b s = .ok a
  := by
  unfold reportOf
  cases hselected : s.selected with
  | none => exact ⟨_, rfl⟩
  | some d =>
    have hlt := hc.lt_of_copies ((Cluster.copies_of_selected hs hselected d.pin).mpr rfl)
    rw [hc.size] at hlt
    obtain ⟨text, htext⟩ := exists_pinName_of_lt hb hlt
    simp only [htext]
    exact ⟨_, rfl⟩

/-- The pins of an ordered cluster are listed. -/
theorem exists_dump (hb : b.WellBuilt) (hc : Cluster.Ordered b c) (t : NetTable) :
  ∃ reports listing, Dumped t b c reports listing
  := by
  have hpin : ∀ x ∈ c.locals.pins.toList.zipIdx, ∃ entry : String × PinReport,
      (do let a ← reportOf t b x.1; return (← b.pinName x.2, a)) = Except.ok entry ∧ True := by
    rintro ⟨s, id⟩ hx
    have hs := List.mk_mem_zipIdx_iff_getElem?.mp hx
    rw [Array.getElem?_toList] at hs
    obtain ⟨a, ha⟩ := exists_reportOf (t := t) hb hc hs
    obtain ⟨hid, -⟩ := Array.getElem?_eq_some_iff.mp hs
    obtain ⟨text, htext⟩ := exists_pinName_of_lt hb (hc.size ▸ hid)
    exact ⟨(text, a), by simp only [ha, htext, ok_bind]; rfl, trivial⟩
  obtain ⟨reports, hreports, -⟩ := exists_mapM_eq_ok hpin
  use reports, Listing.ofList reports
  constructor
  case reported => apply hreports
  case listed => exact bind_eq_ok_iff.mpr ⟨reports, hreports, rfl⟩
  case length =>
    rw [length_of_mapM_eq_ok hreports, List.length_zipIdx, Array.length_toList, hc.size]
  case own =>
    intro id hid
    rw [← hc.size] at hid
    have hs := Array.getElem?_eq_getElem hid
    have hx : c.locals.pins.toList.zipIdx[id]? = some (c.locals.pins[id], id) := by
      rw [List.getElem?_zipIdx, Array.getElem?_toList, hs, Option.map_some, Nat.zero_add]
    obtain ⟨entry, hentry, hok⟩ := exists_getElem?_of_forall₂ (mapM_eq_ok_iff.mp hreports) hx
    obtain ⟨a, ha, hok⟩ := bind_eq_ok_iff.mp hok
    obtain ⟨text, htext, heq⟩ := bind_eq_ok_iff.mp hok
    cases pure_eq_ok_iff.mp heq
    exact ⟨_, text, a, hs, htext, ha, hentry⟩
  case sorted => apply Listing.sorted_ofList
  case last => apply Listing.lookup_ofList

variable {reports : List (String × PinReport)} {listing : Listing PinReport}

/-- Where pins have distinct names, each report is listed. -/
theorem Dumped.perm (h : Dumped t b c reports listing)
    (hnames : ∀ id id' text, b.pinName id = .ok text → b.pinName id' = .ok text → id = id') :
  listing.Perm reports
  := by
  have hlisting : listing = .ofList reports := by
    obtain ⟨reports', hreports, heq⟩ := bind_eq_ok_iff.mp h.listed
    cases h.reported.symm.trans hreports
    apply (pure_eq_ok_iff.mp heq).symm
  rw [hlisting]
  apply Listing.perm_ofList
  have hname : ∀ id < reports.length, ∃ text, b.pinName id = .ok text
      ∧ (reports.map Prod.fst)[id]? = some text := by
    intro id hid
    obtain ⟨s, text, a, -, htext, -, hentry⟩ := h.own id (h.length ▸ hid)
    exact ⟨text, htext, by rw [List.getElem?_map, hentry, Option.map_some]⟩
  apply List.nodup_iff_getElem?_ne_getElem?.mpr
  intro id id' hlt hid' heq
  rw [List.length_map] at hid'
  obtain ⟨text, htext, hentry⟩ := hname id (Nat.lt_trans hlt hid')
  obtain ⟨text', htext', hentry'⟩ := hname id' hid'
  rw [hentry, hentry'] at heq
  cases heq
  cases hnames id id' text htext htext'
  apply Nat.lt_irrefl id hlt

/-! ### Annotated clusters -/

/-- Pins have the same name exactly when they are the same bit of the same port of blocks that are
called the same all the way up. Such pins are the same, unless a block has blocks of one name in two
of its modes. The pins of an annotated cluster are listed by these names, each with the report of
the last pin that has it, so that no report is lost where pins have distinct names. -/
theorem pins_listed {name : String} {additions : List Addition}
    (h : (ofName name).addAll additions = .ok b) (hdistinct : Distinct name additions) :
  (∀ id id' p p', b.pins[id]? = some p → b.pins[id']? = some p' →
      ∃ text text', b.pinName id = .ok text ∧ b.pinName id' = .ok text'
        ∧ (text = text' ↔ b.Twins p.block p'.block ∧ p.port = p'.port ∧ p.bit = p'.bit))
    ∧ (¬ b.Forked → ∀ id id' text, b.pinName id = .ok text → b.pinName id' = .ok text → id = id')
    ∧ ∀ f₀ f₁ skip stats f₂ f rounds f' i c, prepare.Gives f₀ () f₁ →
      (traceNets skip).Gives f₁ stats f₂ → annotateClusters.Gives f₂ () f → f.Rounds rounds f' →
      f'.HasCluster i b c →
      ∃ reports listing, Dumped f'.nets b c reports listing ∧ (¬ b.Forked → listing.Perm reports)
  := by
  have hb := (wellBuilt_of_addAll h).1
  have hlabelled := labelled_of_addAll h hdistinct
  have hunique : ¬ b.Forked → ∀ id id' text, b.pinName id = .ok text → b.pinName id' = .ok text →
      id = id' := by
    intro hforked id id' text htext htext'
    apply hlabelled.pin_unique_of_pinName hb.nested hforked htext htext'
  refine ⟨?_, hunique, ?_⟩
  · intro id id' p p' hp hp'
    obtain ⟨hid, -⟩ := Array.getElem?_eq_some_iff.mp hp
    obtain ⟨hid', -⟩ := Array.getElem?_eq_some_iff.mp hp'
    obtain ⟨text, htext⟩ := exists_pinName_of_lt hb hid
    obtain ⟨text', htext'⟩ := exists_pinName_of_lt hb hid'
    exact ⟨text, text', htext, htext', hlabelled.pinName_inj hb.nested hp hp' htext htext'⟩
  · intro f₀ f₁ skip stats f₂ f rounds f' i c hprepare htrace hclusters hrounds hc
    have hready := ready_of_phases hprepare htrace hclusters
    obtain ⟨hprimed, -, -⟩ := hrounds.kept hready.primed hready.steady
    obtain ⟨reports, listing, hdump⟩ := exists_dump hb (hprimed.cluster hc).ordered f'.nets
    exact ⟨reports, listing, hdump, fun hforked => hdump.perm (hunique hforked)⟩

/-- A block with two modes. In the first it has a lookup table, and in the second one of the given
name. -/
def modesAdditions (second : String) : List Addition := [
  .mode 0 "a", .mode 0 "b", .child 0 0 "lut" "lut[0]", .child 0 1 "lut" second,
  .port 1 .input "in" 1, .port 2 .input "in" 1]

/-- The block of the additions. -/
def modesGraph (second : String) : BlockGraph where
  name := "clb"
  blocks := #[
    { name := "clb", type := "clb"
      modes := [{ name := "a", children := [1] }, { name := "b", children := [2] }] },
    { name := "lut[0]", type := "lut", parent := some (0, 0), depth := 1, pins := [0] },
    { name := second, type := "lut", parent := some (0, 1), depth := 1, pins := [1] }]
  pins := #[
    { block := 1, port := "in", bit := 0, kind := .input },
    { block := 2, port := "in", bit := 0, kind := .input }]

/-- The block in its first mode, with a net at the input of the first lookup table. -/
def modesFabric (second : String) : Fabric where
  grid := ⟨3, 3⟩
  blockGraphs := #[modesGraph second]
  clusters := #[{ Cluster.ofType "c0" 0 (modesGraph second) ⟨1, 1⟩ with
    modes := #[some 0, none, none]
    pinNets := #[some 0, none] }]
  nets := { nets := #[{ name := "x", dedicated := true, logical := 0 }], logicals := #[⟨"x"⟩] }

/-- The fabric after preparation. -/
def preparedModes (second : String) : Fabric :=
  ((Phase.each prepareCluster [0]).run (modesFabric second)).state

/-- The fabric after its nets are traced. -/
def tracedModes (second : String) : Fabric :=
  ((traceNets true).run (preparedModes second)).state

/-- The fabric after its clusters are annotated. -/
def annotatedModes (second : String) : Fabric :=
  (annotateClusters.run (tracedModes second)).state

/-- The additions make the block. -/
theorem addAll_modes (second : String) :
  (ofName "clb").addAll (modesAdditions second) = .ok (modesGraph second)
  := rfl

/-- Names are distinct, whatever the second lookup table is called. -/
theorem distinct_modes {second : String} (h : '.' ∉ second.toList) :
  Distinct "clb" (modesAdditions second)
  := by
  constructor
  case children =>
    change [((0, 0), "lut[0]"), ((0, 1), second)].Nodup
    simp
  case ports =>
    change [(1, "in"), (2, "in")].Nodup
    simp
  case top => decide
  case plain => simpa [modesAdditions, Addition.label?] using h

/-- No block has blocks of one name in two of its modes if both lookup tables have their own. -/
theorem not_forked_modes : ¬ (modesGraph "lut[1]").Forked := by
  have htold : ∀ x ∈ (modesGraph "lut[1]").blocks, ∀ x' ∈ (modesGraph "lut[1]").blocks,
      x.parent.map Prod.fst = x'.parent.map Prod.fst → x.name = x'.name → x.parent = x'.parent := by
    decide
  rintro ⟨id, id', above, x, x', mode, mode', hx, hx', hparent, hparent', hmode, hname⟩
  have heq := htold x (Array.mem_of_getElem? hx) x' (Array.mem_of_getElem? hx')
    (by rw [hparent, hparent']; rfl) hname
  rw [hparent, hparent'] at heq
  cases heq
  apply hmode rfl

/-- The fabric is prepared, and its clusters are annotated. -/
theorem annotate_modes {second : String} (h : second = "lut[0]" ∨ second = "lut[1]") :
  prepare.Gives (modesFabric second) () (preparedModes second)
    ∧ (traceNets true).Gives (preparedModes second) ⟨0, 1, 0⟩ (tracedModes second)
    ∧ annotateClusters.Gives (tracedModes second) () (annotatedModes second)
  := by
  rcases h with rfl | rfl
  all_goals refine ⟨prepare_of_empty rfl ?_ ⟨?_, rfl⟩, ⟨?_, rfl⟩, ?_, rfl⟩
  all_goals decide +kernel

/-- Where the lookup tables have names of their own, the reports of their inputs are both listed. -/
theorem listed_modes :
  (ofName "clb").addAll (modesAdditions "lut[1]") = .ok (modesGraph "lut[1]")
    ∧ Distinct "clb" (modesAdditions "lut[1]") ∧ ¬ (modesGraph "lut[1]").Forked
    ∧ prepare.Gives (modesFabric "lut[1]") () (preparedModes "lut[1]")
    ∧ (traceNets true).Gives (preparedModes "lut[1]") ⟨0, 1, 0⟩ (tracedModes "lut[1]")
    ∧ annotateClusters.Gives (tracedModes "lut[1]") () (annotatedModes "lut[1]")
    ∧ ∃ c reports listing, (annotatedModes "lut[1]").HasCluster 0 (modesGraph "lut[1]") c
      ∧ Dumped (annotatedModes "lut[1]").nets (modesGraph "lut[1]") c reports listing
      ∧ listing.Perm reports
  := by
  have hdistinct : Distinct "clb" (modesAdditions "lut[1]") := distinct_modes (by decide)
  obtain ⟨hprepare, htrace, hclusters⟩ := annotate_modes (.inr rfl)
  obtain ⟨c, hc⟩ : ∃ c, (annotatedModes "lut[1]").HasCluster 0 (modesGraph "lut[1]") c :=
    ⟨_, rfl, by decide +kernel⟩
  obtain ⟨-, -, hdump⟩ := pins_listed (addAll_modes "lut[1]") hdistinct
  obtain ⟨reports, listing, hdumped, hperm⟩ :=
    hdump _ _ _ _ _ _ 0 _ 0 c hprepare htrace hclusters .none hc
  exact ⟨addAll_modes _, hdistinct, not_forked_modes, hprepare, htrace, hclusters, c, reports,
    listing, hc, hdumped, hperm not_forked_modes⟩

/-- Where both lookup tables are called the same, so are their inputs, and the net at the first one
is not listed. -/
theorem overwritten_report :
  (ofName "clb").addAll (modesAdditions "lut[0]") = .ok (modesGraph "lut[0]")
    ∧ Distinct "clb" (modesAdditions "lut[0]")
    ∧ prepare.Gives (modesFabric "lut[0]") () (preparedModes "lut[0]")
    ∧ (traceNets true).Gives (preparedModes "lut[0]") ⟨0, 1, 0⟩ (tracedModes "lut[0]")
    ∧ annotateClusters.Gives (tracedModes "lut[0]") () (annotatedModes "lut[0]")
    ∧ (modesGraph "lut[0]").pinName 0 = .ok "clb.lut[0].in[0]"
    ∧ (modesGraph "lut[0]").pinName 1 = .ok "clb.lut[0].in[0]"
    ∧ ∃ c s, (annotatedModes "lut[0]").HasCluster 0 (modesGraph "lut[0]") c
      ∧ c.locals.pins[0]? = some s
      ∧ reportOf (annotatedModes "lut[0]").nets (modesGraph "lut[0]") s
        = .ok ⟨none, none, some "x", some "x", true⟩
      ∧ pinListing (annotatedModes "lut[0]").nets (modesGraph "lut[0]") c
        = .ok [("clb.lut[0].in[0]", ⟨none, none, none, none, true⟩)]
  := by
  obtain ⟨hprepare, htrace, hclusters⟩ := annotate_modes (.inl rfl)
  refine ⟨addAll_modes _, distinct_modes (by decide), hprepare, htrace, hclusters, ?_, ?_, _, _,
    ⟨rfl, ?_⟩, rfl, ?_, ?_⟩
  all_goals decide +kernel

end RoutingFabric.Export
